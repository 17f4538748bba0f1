import Onebox.Credentials.Bound
import Onebox.Credentials.OAuthFlow
import Onebox.Transition.Parties

/-!
# A state is used once, by its initiator

A state that was drawn is at one place at a time: in a command that Redis has yet to run, in Redis,
in a reply, or exchanged. What is found at its place is the binding of the start that drew it.
-/

namespace Onebox.Credentials.OAuth

open Python Transition

/-! ## A binding is read back -/

section

variable {unicode : UnicodeData} {folding : CaseFolding} {userId : Uuid} {email : String}
  {value : List Char}

theorem toText_ne_empty (userId : Uuid) : userId.toText ≠ "" := by
  intro h
  have hlength := length_text userId
  rw [show userId.text = [] from String.ofList_injective h] at hlength
  cases hlength

/-- **What a start stores is what a callback reads.** -/
theorem readBinding_of_createBinding (hcasefold : unicode.casefold = folding.casefold)
    (h : createBinding unicode userId.toText email = some value) :
    ∃ expectedEmail, normalizeEmail unicode email = some expectedEmail ∧
      readBinding unicode (some value) = some ⟨userId.toText, expectedEmail⟩ := by
  obtain ⟨expectedEmail, hemail, rfl⟩ := Option.map_eq_some_iff.mp h
  refine ⟨expectedEmail, hemail, ?_⟩
  have hloads : loads (dumpsStrings
      [("user_id", userId.toText), ("expected_email", expectedEmail)]) =
        some (.obj [("user_id", .str userId.toText), ("expected_email", .str expectedEmail)]) :=
    loads_dumpsStrings (by simp)
  have hagain := normalizeEmail_normalized hcasefold hemail
  have hne : dumpsStrings [("user_id", userId.toText), ("expected_email", expectedEmail)] ≠ [] :=
    nofun
  rw [readBinding]
  simp only [Option.bind_eq_bind, Option.bind_some]
  rw [if_neg hne, hloads]
  simp only [Option.bind_some, Json.get?, List.lookup_cons, Json.str?, beq_self_eq_true,
    show ("expected_email" == "user_id") = false from rfl, hagain]
  rw [if_neg (toText_ne_empty userId)]

theorem stateKey_injective {state state' : String} (h : stateKey state = stateKey state') :
    state = state' := by
  have hchars := congrArg String.toList h
  rw [stateKey, stateKey, String.toList_append, String.toList_append] at hchars
  exact String.toList_injective (List.append_cancel_left hchars)

end

/-! ## Where a state is -/

section

variable {unicode : UnicodeData}

/-- A command for the state is yet to be run. -/
def StartRequest.isSent (state : String) (request : StartRequest) : Bool :=
  request.state = state && request.command = .sent

/-- The callback has a binding of the state, and has not used it. -/
def Callback.holds (state : String) (callback : Callback unicode) : Bool :=
  callback.state = state && match callback.phase with
    | .replied rawBinding => rawBinding.isSome
    | _ => false

namespace World

variable (w : World unicode)

/-- At how many places a state is. -/
def places (state : String) : ℕ :=
  w.requests.countP (·.isSent state) + (w.store (stateKey state)).isSome.toNat +
    w.callbacks.countP (·.holds state) + w.exchanged.count state

/-- The value was stored by the start that drew the state. -/
def Drawn (state : String) (value : List Char) : Prop :=
  ∃ start ∈ w.starts, start.state = state ∧ start.value = value

/-- The state was drawn by a start of the user, for the email. -/
def Initiated (state : String) (userId : Uuid) (email : String) : Prop :=
  ∃ start ∈ w.starts, start.state = state ∧ start.principal.userId = userId ∧
    normalizeEmail unicode start.principal.email = some email

/-- What a callback has comes from the start that drew its state. -/
def Grounded (state : String) : Phase unicode → Prop
  | .replied rawBinding => ∀ value ∈ rawBinding, w.Drawn state value
  | .exchanging userId binding | .persisting userId binding _ =>
    w.Initiated state userId binding.expectedEmail
  | .ended => True

/-- Each state that was drawn is at one place at most. -/
structure Consistent : Prop where
  fresh : (w.starts.map (·.state)).Nodup
  places : ∀ state, w.places state ≤ (w.starts.map (·.state)).count state
  values : ∀ start ∈ w.starts,
    createBinding unicode start.principal.userId.toText start.principal.email = some start.value
  requests : ∀ request ∈ w.requests, w.Drawn request.state request.value
  stored : ∀ state value, w.store (stateKey state) = some value → w.Drawn state value
  callbacks : ∀ callback ∈ w.callbacks, w.Grounded callback.state callback.phase

variable {w} {w' : World unicode}

theorem grounded_iff (h : w'.starts = w.starts) (state : String) (phase : Phase unicode) :
    w'.Grounded state phase ↔ w.Grounded state phase := by
  cases phase with
  | replied rawBinding => simp only [Grounded, Drawn, h]
  | exchanging userId binding => simp only [Grounded, Initiated, h]
  | persisting userId binding exchange => simp only [Grounded, Initiated, h]
  | ended => exact Iff.rfl

/-- What a start drew stays drawn. -/
theorem Grounded.mono (hsub : w.starts ⊆ w'.starts) {state : String} {phase : Phase unicode}
    (h : w.Grounded state phase) : w'.Grounded state phase := by
  cases phase with
  | replied rawBinding =>
    intro value hvalue
    obtain ⟨start, hmem, hstart⟩ := h value hvalue
    exact ⟨start, hsub hmem, hstart⟩
  | exchanging userId binding =>
    obtain ⟨start, hmem, hstart⟩ := h
    exact ⟨start, hsub hmem, hstart⟩
  | persisting userId binding exchange =>
    obtain ⟨start, hmem, hstart⟩ := h
    exact ⟨start, hsub hmem, hstart⟩
  | ended => trivial

/-- A step that draws no state keeps consistency when it puts no state at a further place and when
what it leaves comes from the starts. -/
theorem Consistent.of_starts (h : w.Consistent) (hstarts : w'.starts = w.starts)
    (hplaces : ∀ state, w'.places state ≤ w.places state)
    (hrequests : ∀ request ∈ w'.requests, w.Drawn request.state request.value)
    (hstored : ∀ state value, w'.store (stateKey state) = some value → w.Drawn state value)
    (hcallbacks : ∀ callback ∈ w'.callbacks, w.Grounded callback.state callback.phase) :
    w'.Consistent := by
  constructor
  · rw [hstarts]
    exact h.fresh
  · intro state
    rw [hstarts]
    exact Nat.le_trans (hplaces state) (h.places state)
  · rw [hstarts]
    exact h.values
  · intro request hmem
    rw [Drawn, hstarts]
    exact hrequests request hmem
  · intro state value hvalue
    rw [Drawn, hstarts]
    exact hstored state value hvalue
  · intro callback hmem
    rw [grounded_iff hstarts]
    exact hcallbacks callback hmem

end World

/-! ## One step -/

/-- The state whose exchange is shown. -/
def Outcome.exchanged : Outcome → Option String
  | .exchanging state => some state
  | _ => none

/-- Nothing is exchanged and no connection is persisted. -/
def Outcome.silent : Outcome → Bool
  | .exchanging _ | .connected _ _ _ => false
  | _ => true

theorem Outcome.exchanged_of_silent {outcome : Outcome} (h : outcome.silent = true) :
    outcome.exchanged = none := by
  cases outcome with
  | exchanging | connected => cases h
  | _ => rfl

/-- What a start draws. -/
def Event.started (unicode : UnicodeData) : Event → Option Start
  | .start principal state _ =>
    (createBinding unicode principal.userId.toText principal.email).map fun value ↦
      ⟨principal, state, value⟩
  | _ => none

section

variable {w : World unicode} {n : ℕ} {callback : Callback unicode} {phase : Phase unicode}
  {aead : Aead} {json : JsonModule}

theorem Callback.holds_of_phase {state : String}
    (hphase : ∀ rawBinding, callback.phase ≠ .replied rawBinding) :
    callback.holds state = false := by
  rw [holds]
  cases hcase : callback.phase with
  | replied rawBinding => exact absurd hcase (hphase rawBinding)
  | exchanging | persisting | ended => exact Bool.and_false _

/-- A callback that goes on has no unused binding any more. -/
theorem countP_holds_moved (hn : w.callbacks[n]? = some callback)
    (hphase : ∀ rawBinding, phase ≠ .replied rawBinding) (state : String) :
    (w.moved n callback phase).callbacks.countP (·.holds state) + (callback.holds state).toNat =
      w.callbacks.countP (·.holds state) := by
  have hcount := countP_set_add (·.holds state) { callback with phase := phase } hn
  have hfree : ({ callback with phase := phase } : Callback unicode).holds state = false :=
    Callback.holds_of_phase hphase
  rwa [hfree, Bool.toNat_false, Nat.add_zero] at hcount

/-- A callback goes on with what it has. -/
theorem World.Consistent.moved (h : w.Consistent) (hn : w.callbacks[n]? = some callback)
    (hphase : ∀ rawBinding, phase ≠ .replied rawBinding)
    (hgrounded : w.Grounded callback.state phase) : (w.moved n callback phase).Consistent := by
  refine h.of_starts rfl ?_ h.requests h.stored ?_
  · intro state
    have hcount := countP_holds_moved hn hphase state
    simp only [World.places, World.moved] at hcount ⊢
    omega
  · exact forall_mem_set h.callbacks hgrounded

/-- Redis runs a command: the state goes from the command to Redis. -/
theorem World.Consistent.apply (h : w.Consistent) {request : StartRequest}
    (hn : w.requests[n]? = some request) (hsent : request.command = .sent) :
    World.Consistent { w with
      store := Function.update w.store (stateKey request.state) (some request.value)
      requests := w.requests.set n { request with command := .applied } } := by
  have hmem := List.mem_of_getElem? hn
  refine h.of_starts rfl ?_ (forall_mem_set h.requests (h.requests request hmem)) ?_ h.callbacks
  · intro state
    have hcount := countP_set_add (·.isSent state)
      ({ request with command := .applied } : StartRequest) hn
    have happlied : ({ request with command := .applied } : StartRequest).isSent state = false :=
      Bool.and_false _
    rw [happlied, Bool.toNat_false] at hcount
    simp only [World.places]
    by_cases heq : request.state = state
    · subst heq
      have hbefore : request.isSent request.state = true := by
        rw [StartRequest.isSent, decide_eq_true rfl, hsent]
        rfl
      rw [hbefore, Bool.toNat_true] at hcount
      rw [Function.update_self, Option.isSome_some, Bool.toNat_true]
      omega
    · rw [Function.update_of_ne fun hkey ↦ heq (stateKey_injective hkey).symm]
      omega
  · intro state value hvalue
    dsimp only at hvalue
    by_cases heq : request.state = state
    · subst heq
      rw [Function.update_self] at hvalue
      obtain rfl := Option.some.inj hvalue
      exact h.requests request hmem
    · rw [Function.update_of_ne fun hkey ↦ heq (stateKey_injective hkey).symm] at hvalue
      exact h.stored state value hvalue

theorem World.Consistent.answer (h : w.Consistent) {request : StartRequest}
    (hn : w.requests[n]? = some request) :
    World.Consistent { w with
      requests := w.requests.set n { request with answered := true } } := by
  have hmem := List.mem_of_getElem? hn
  refine h.of_starts rfl ?_ (forall_mem_set h.requests (h.requests request hmem)) h.stored
    h.callbacks
  intro state
  have hcount := countP_set_add (·.isSent state)
    ({ request with answered := true } : StartRequest) hn
  have hsame : ({ request with answered := true } : StartRequest).isSent state =
    request.isSent state := rfl
  rw [hsame] at hcount
  simp only [World.places]
  omega

/-- A key vanishes. -/
theorem World.Consistent.expire (h : w.Consistent) (key : String) :
    World.Consistent { w with store := Function.update w.store key none } := by
  refine h.of_starts rfl ?_ h.requests ?_ h.callbacks
  · intro state
    simp only [World.places]
    by_cases hkey : stateKey state = key
    · rw [hkey, Function.update_self, Option.isSome_none, Bool.toNat_false]
      omega
    · rw [Function.update_of_ne hkey]
  · intro state value hvalue
    dsimp only at hvalue
    by_cases hkey : stateKey state = key
    · rw [hkey, Function.update_self] at hvalue
      cases hvalue
    · rw [Function.update_of_ne hkey] at hvalue
      exact h.stored state value hvalue

/-- The script runs: the state goes from Redis to the reply. -/
theorem World.Consistent.consume (h : w.Consistent) (state : String) (code error : Option String) :
    World.Consistent { w with
      store := Function.update w.store (stateKey state) none
      callbacks :=
        w.callbacks ++ [⟨state, code, error, .replied (w.store (stateKey state))⟩] } := by
  refine h.of_starts rfl ?_ h.requests (h.expire (stateKey state)).stored ?_
  · intro state'
    simp only [World.places, List.countP_append, List.countP_singleton]
    by_cases heq : state = state'
    · subst heq
      have hholds : (⟨state, code, error, .replied (w.store (stateKey state))⟩ :
          Callback unicode).holds state = (w.store (stateKey state)).isSome := by
        rw [Callback.holds, decide_eq_true rfl, Bool.true_and]
      have hone : (if (w.store (stateKey state)).isSome = true then 1 else 0) =
          (w.store (stateKey state)).isSome.toNat := by
        cases (w.store (stateKey state)).isSome <;> rfl
      rw [hholds, Function.update_self, Option.isSome_none, Bool.toNat_false, hone]
      omega
    · have hholds : (⟨state, code, error, .replied (w.store (stateKey state))⟩ :
          Callback unicode).holds state' = false := by
        rw [Callback.holds, decide_eq_false heq, Bool.false_and]
      rw [hholds, Function.update_of_ne fun hkey ↦ heq (stateKey_injective hkey).symm]
      simp
  · intro callback hmem
    rcases List.mem_append.mp hmem with hmem | hmem
    · exact h.callbacks callback hmem
    · obtain rfl := List.mem_singleton.mp hmem
      exact fun value hvalue ↦ h.stored state value hvalue

/-- What a step does. -/
structure World.Moved (w : World unicode) (event : Event) (w' : World unicode) (outcome : Outcome) :
    Prop where
  consistent : w'.Consistent
  starts : w'.starts = w.starts ++ (event.started unicode).toList
  exchanged : w'.exchanged = w.exchanged ++ outcome.exchanged.toList
  connected : ∀ state userId email, outcome = .connected state userId email →
    w.Initiated state userId email ∧ ∃ row, row.googleEmailNormalized = some email ∧
      w'.rows = Function.update w.rows userId (some row)
  rows : w'.rows = w.rows ∨ (∃ userId row, event = .write userId row) ∨
    ∃ state userId email, outcome = .connected state userId email

/-- A step that shows nothing, draws nothing and leaves the rows. -/
theorem World.Moved.of_silent {event : Event} {w' : World unicode} {outcome : Outcome}
    (h : w'.Consistent) (hstarts : w'.starts = w.starts) (hexchanged : w'.exchanged = w.exchanged)
    (hrows : w'.rows = w.rows) (hevent : event.started unicode = none)
    (hsilent : outcome.silent = true) : w.Moved event w' outcome := by
  constructor
  · exact h
  · rw [hstarts, hevent]
    exact (List.append_nil _).symm
  · rw [hexchanged, Outcome.exchanged_of_silent hsilent]
    exact (List.append_nil _).symm
  · rintro state userId email rfl
    cases hsilent
  · exact Or.inl hrows

/-- A state that was not drawn before is at one place when it is sent, and at none else. -/
theorem World.Consistent.start (h : w.Consistent) {principal : AuthenticatedPrincipal}
    {state : String} {sent : Bool} {w' : World unicode} {outcome : Outcome}
    (hstep : stepStart unicode w principal state sent = some (w', outcome)) :
    w.Moved (.start principal state sent) w' outcome := by
  rw [stepStart] at hstep
  split at hstep
  · cases hstep
  · rename_i hfresh
    split at hstep
    · rename_i hvalue
      obtain ⟨rfl, rfl⟩ := Prod.mk.inj (Option.some.inj hstep)
      exact .of_silent h rfl rfl rfl (by rw [Event.started, hvalue]; rfl) rfl
    · rename_i value hvalue
      obtain ⟨rfl, rfl⟩ := Prod.mk.inj (Option.some.inj hstep)
      refine ⟨?_, by rw [Event.started, hvalue]; rfl, (List.append_nil _).symm, nofun, Or.inl rfl⟩
      have hsub : w.starts ⊆ w.starts ++ [⟨principal, state, value⟩] :=
        List.subset_append_left _ _
      have hdrawn : ∀ {state' value'}, w.Drawn state' value' → ∃ start ∈ w.starts ++
          [⟨principal, state, value⟩], start.state = state' ∧ start.value = value' := by
        rintro state' value' ⟨start, hmem, hstart⟩
        exact ⟨start, hsub hmem, hstart⟩
      constructor
      · rw [List.map_append, List.nodup_append]
        refine ⟨h.fresh, List.nodup_singleton _, ?_⟩
        intro state' hmem state'' hmem' heq
        obtain rfl : state'' = state := by simpa using hmem'
        exact hfresh (heq ▸ hmem)
      · intro state'
        have hplaces := h.places state'
        simp only [World.places, List.countP_append, List.map_append, List.count_append,
          List.map_singleton] at hplaces ⊢
        -- The new request is the only place of its fresh state, if it was sent at all.
        have hone : List.countP (fun request : StartRequest ↦ request.isSent state')
            [⟨state, value, if sent then .sent else .unsent, false⟩] ≤ [state].count state' := by
          by_cases heq : state = state'
          · subst heq
            rw [List.count_singleton_self]
            exact List.countP_le_length
          · rw [List.countP_singleton, if_neg]
            · exact Nat.zero_le _
            · rw [StartRequest.isSent, decide_eq_false heq]
              exact Bool.false_ne_true
        omega
      · intro start hmem
        rcases List.mem_append.mp hmem with hmem | hmem
        · exact h.values start hmem
        · obtain rfl := List.mem_singleton.mp hmem
          exact hvalue
      · intro request hmem
        rcases List.mem_append.mp hmem with hmem | hmem
        · exact hdrawn (h.requests request hmem)
        · obtain rfl := List.mem_singleton.mp hmem
          exact ⟨⟨principal, state, value⟩, by simp, rfl, rfl⟩
      · intro state' value' hstored
        exact hdrawn (h.stored state' value' hstored)
      · intro callback hmem
        exact (h.callbacks callback hmem).mono hsub

/-- Where a callback comes to with the binding of its state. -/
theorem World.Grounded.received {folding : CaseFolding}
    (hcasefold : unicode.casefold = folding.casefold) (h : w.Consistent)
    {rawBinding : Option (List Char)} (hraw : ∀ value ∈ rawBinding, w.Drawn callback.state value)
    {outcome : Outcome} (hreceived : callback.received rawBinding = (phase, outcome)) :
    (phase = .ended ∧ outcome.silent = true) ∨
      ∃ userId binding, phase = .exchanging userId binding ∧ outcome = .exchanging callback.state ∧
        rawBinding.isSome ∧ w.Initiated callback.state userId binding.expectedEmail := by
  rw [Callback.received] at hreceived
  split at hreceived
  · obtain ⟨rfl, rfl⟩ := Prod.mk.inj hreceived
    exact Or.inl ⟨rfl, rfl⟩
  · rename_i binding hread
    cases rawBinding with
    | none => cases hread
    | some value =>
      obtain ⟨start, hmem, hstate, rfl⟩ := hraw value rfl
      obtain ⟨expectedEmail, hemail, hread'⟩ :=
        readBinding_of_createBinding hcasefold (h.values start hmem)
      obtain rfl := Option.some.inj (hread.symm.trans hread')
      dsimp only [Uuid.toText] at hreceived
      rw [String.toList_ofList, Uuid.ofText_text] at hreceived
      dsimp only at hreceived
      split at hreceived
      · obtain ⟨rfl, rfl⟩ := Prod.mk.inj hreceived
        exact Or.inl ⟨rfl, rfl⟩
      · split at hreceived
        · obtain ⟨rfl, rfl⟩ := Prod.mk.inj hreceived
          exact Or.inl ⟨rfl, rfl⟩
        · obtain ⟨rfl, rfl⟩ := Prod.mk.inj hreceived
          exact Or.inr ⟨_, _, rfl, rfl, rfl, start, hmem, hstate, rfl, hemail⟩

/-- A reply arrives: the state goes from the reply to the exchange, or nowhere. -/
theorem World.Consistent.reply {folding : CaseFolding}
    (hcasefold : unicode.casefold = folding.casefold) (h : w.Consistent) {lost : Bool}
    {w' : World unicode} {outcome : Outcome}
    (hstep : stepReply unicode w n lost = some (w', outcome)) :
    w.Moved (.reply n lost) w' outcome := by
  rw [stepReply] at hstep
  split at hstep
  · cases hstep
  · rename_i callback hn
    split at hstep
    · rename_i rawBinding hphase
      have hraw : ∀ value ∈ rawBinding, w.Drawn callback.state value := by
        have hgrounded := h.callbacks callback (List.mem_of_getElem? hn)
        rwa [hphase] at hgrounded
      split at hstep
      · obtain ⟨rfl, rfl⟩ := Prod.mk.inj (Option.some.inj hstep)
        exact .of_silent (h.moved hn nofun trivial) rfl rfl rfl rfl rfl
      · rcases hreceived : callback.received rawBinding with ⟨phase, outcome'⟩
        rw [hreceived] at hstep
        rcases World.Grounded.received hcasefold h hraw hreceived with
          ⟨rfl, hsilent⟩ | ⟨userId, binding, rfl, rfl, hsome, hinitiated⟩
        · obtain ⟨rfl, rfl⟩ := Prod.mk.inj (Option.some.inj hstep)
          exact .of_silent (h.moved hn nofun trivial) rfl rfl rfl rfl hsilent
        · obtain ⟨rfl, rfl⟩ := Prod.mk.inj (Option.some.inj hstep)
          refine ⟨?_, (List.append_nil _).symm, rfl, nofun, Or.inl rfl⟩
          refine h.of_starts rfl ?_ h.requests h.stored
            (forall_mem_set h.callbacks hinitiated)
          intro state
          have hmoves : ∀ rawBinding,
              (Phase.exchanging userId binding : Phase unicode) ≠ .replied rawBinding := nofun
          have hcount := countP_holds_moved hn hmoves state
          simp only [World.places, World.moved, List.count_append, List.count_singleton] at hcount ⊢
          by_cases heq : callback.state = state
          · have hholds : callback.holds state = true := by
              rw [Callback.holds, decide_eq_true heq, hphase]
              exact hsome
            rw [hholds, Bool.toNat_true] at hcount
            rw [if_pos (beq_iff_eq.mpr heq)]
            omega
          · rw [if_neg fun hbeq ↦ heq (beq_iff_eq.mp hbeq)]
            omega
    · cases hstep

theorem World.Consistent.exchange (h : w.Consistent) {answer : Option ExchangeAnswer}
    {w' : World unicode} {outcome : Outcome}
    (hstep : step unicode aead json w (.exchange n answer) = some (w', outcome)) :
    w.Moved (.exchange n answer) w' outcome := by
  rw [step] at hstep
  split at hstep
  · cases hstep
  · rename_i callback hn
    split at hstep
    · rename_i userId binding hphase
      have hinitiated := h.callbacks callback (List.mem_of_getElem? hn)
      rw [hphase] at hinitiated
      rcases hafter : afterExchange userId binding
        (answer.bind (exchangeOauthCode unicode)) with ⟨phase, outcome'⟩
      rw [hafter] at hstep
      obtain ⟨rfl, rfl⟩ := Prod.mk.inj (Option.some.inj hstep)
      rw [afterExchange.eq_def] at hafter
      split at hafter
      · obtain ⟨rfl, rfl⟩ := Prod.mk.inj hafter
        exact .of_silent (h.moved hn nofun trivial) rfl rfl rfl rfl rfl
      · split at hafter
        · obtain ⟨rfl, rfl⟩ := Prod.mk.inj hafter
          exact .of_silent (h.moved hn nofun trivial) rfl rfl rfl rfl rfl
        · obtain ⟨rfl, rfl⟩ := Prod.mk.inj hafter
          exact .of_silent (h.moved hn nofun hinitiated) rfl rfl rfl rfl rfl
    · cases hstep

/-- A connection is persisted on the row of the user who started, for the email that was named. -/
theorem World.Consistent.persist {folding : CaseFolding}
    (hcasefold : unicode.casefold = folding.casefold) (h : w.Consistent)
    {keyring : Option Keyring} {nonce : Nonce} {w' : World unicode} {outcome : Outcome}
    (hstep : stepPersist unicode aead json w n keyring nonce = some (w', outcome)) :
    w.Moved (.persist n keyring nonce) w' outcome := by
  rw [stepPersist] at hstep
  split at hstep
  · cases hstep
  · rename_i callback hn
    split at hstep
    · rename_i userId binding exchange hphase
      have hinitiated := h.callbacks callback (List.mem_of_getElem? hn)
      rw [hphase] at hinitiated
      have hended : (w.moved n callback .ended).Consistent := h.moved hn nofun trivial
      split at hstep
      · rename_i row payload hpersist
        obtain ⟨rfl, rfl⟩ := Prod.mk.inj (Option.some.inj hstep)
        obtain ⟨hexpected, -, _, -, hholds, -, -⟩ :=
          persistOauthConnection_eq_ok hcasefold hpersist
        refine ⟨?_, (List.append_nil _).symm, (List.append_nil _).symm, ?_,
          Or.inr (Or.inr ⟨_, _, _, rfl⟩)⟩
        · exact hended.of_starts rfl (fun _ ↦ Nat.le_refl _) hended.requests hended.stored
            hended.callbacks
        · intro state userId' email houtcome
          obtain ⟨rfl, rfl, rfl⟩ := Outcome.connected.inj houtcome
          rw [hexpected]
          exact ⟨hinitiated, row, hexpected ▸ hholds.column, rfl⟩
      · obtain ⟨rfl, rfl⟩ := Prod.mk.inj (Option.some.inj hstep)
        exact .of_silent hended rfl rfl rfl rfl rfl
      · obtain ⟨rfl, rfl⟩ := Prod.mk.inj (Option.some.inj hstep)
        exact .of_silent hended rfl rfl rfl rfl rfl
    · cases hstep

theorem World.Consistent.answerStart (h : w.Consistent) {built : Bool} {w' : World unicode}
    {outcome : Outcome}
    (hstep : step unicode aead json w (.answerStart n built) = some (w', outcome)) :
    w.Moved (.answerStart n built) w' outcome := by
  rw [step] at hstep
  split at hstep
  · cases hstep
  · rename_i request hn
    split at hstep
    · cases hstep
    · dsimp only at hstep
      split at hstep
      · split at hstep
        · obtain ⟨rfl, rfl⟩ := Prod.mk.inj (Option.some.inj hstep)
          exact .of_silent (h.answer hn) rfl rfl rfl rfl rfl
        · cases hstep
      · obtain ⟨rfl, rfl⟩ := Prod.mk.inj (Option.some.inj hstep)
        exact .of_silent (h.answer hn) rfl rfl rfl rfl rfl

/-- **One step.** -/
theorem moved_of_step {folding : CaseFolding} (hcasefold : unicode.casefold = folding.casefold)
    (h : w.Consistent) {event : Event} {w' : World unicode} {outcome : Outcome}
    (hstep : step unicode aead json w event = some (w', outcome)) :
    w.Moved event w' outcome := by
  cases event with
  | start principal state sent => exact h.start hstep
  | apply n =>
    rw [step] at hstep
    split at hstep
    · cases hstep
    · rename_i request hn
      split at hstep
      · rename_i hsent
        obtain ⟨rfl, rfl⟩ := Prod.mk.inj (Option.some.inj hstep)
        exact .of_silent (h.apply hn hsent) rfl rfl rfl rfl rfl
      · cases hstep
  | answerStart n built => exact h.answerStart hstep
  | expire key =>
    obtain ⟨rfl, rfl⟩ := Prod.mk.inj (Option.some.inj hstep)
    exact .of_silent (h.expire key) rfl rfl rfl rfl rfl
  | callback code state error =>
    rw [step] at hstep
    split at hstep
    · obtain ⟨rfl, rfl⟩ := Prod.mk.inj (Option.some.inj hstep)
      exact .of_silent (h.consume state code error) rfl rfl rfl rfl rfl
    · obtain ⟨rfl, rfl⟩ := Prod.mk.inj (Option.some.inj hstep)
      exact .of_silent h rfl rfl rfl rfl rfl
  | callbackUnavailable =>
    obtain ⟨rfl, rfl⟩ := Prod.mk.inj (Option.some.inj hstep)
    exact .of_silent h rfl rfl rfl rfl rfl
  | reply n lost => exact h.reply hcasefold hstep
  | exchange n answer => exact h.exchange hstep
  | persist n keyring nonce => exact h.persist hcasefold hstep
  | abandon n =>
    rw [step] at hstep
    split at hstep
    · cases hstep
    · rename_i callback hn
      obtain ⟨rfl, rfl⟩ := Prod.mk.inj (Option.some.inj hstep)
      exact .of_silent (h.moved hn nofun trivial) rfl rfl rfl rfl rfl
  | write userId row =>
    obtain ⟨rfl, rfl⟩ := Prod.mk.inj (Option.some.inj hstep)
    exact ⟨h.of_starts rfl (fun _ ↦ Nat.le_refl _) h.requests h.stored h.callbacks,
      (List.append_nil _).symm, (List.append_nil _).symm, nofun, Or.inr (Or.inl ⟨_, _, rfl⟩)⟩

end

end

/-! ## Every run -/

section

variable {unicode : UnicodeData} {folding : CaseFolding} {aead : Aead} {json : JsonModule}
  {w w' : World unicode} {tr : List (Event × Outcome)}

theorem consistent_of_init (hinit : (flow unicode aead json).init w) : w.Consistent := by
  obtain ⟨hstore, hrequests, hcallbacks, hstarts, hexchanged⟩ := hinit
  constructor
  · rw [hstarts]
    exact List.nodup_nil
  · intro state
    rw [World.places, hrequests, hcallbacks, hexchanged, hstore state]
    exact Nat.zero_le _
  · rw [hstarts]
    exact fun _ hmem ↦ absurd hmem List.not_mem_nil
  · rw [hrequests]
    exact fun _ hmem ↦ absurd hmem List.not_mem_nil
  · intro state value hvalue
    rw [hstore state] at hvalue
    cases hvalue
  · rw [hcallbacks]
    exact fun _ hmem ↦ absurd hmem List.not_mem_nil

theorem consistent_of_run (hcasefold : unicode.casefold = folding.casefold)
    (hinit : (flow unicode aead json).init w)
    (hrun : System.Run (flow unicode aead json) System.anyStep w tr w') : w'.Consistent :=
  hrun.invariant (consistent_of_init hinit) fun _ _ _ _ hconsistent _ hstep ↦
    (moved_of_step hcasefold hconsistent hstep).consistent

theorem starts_of_run (hcasefold : unicode.casefold = folding.casefold)
    (hinit : (flow unicode aead json).init w)
    (hrun : System.Run (flow unicode aead json) System.anyStep w tr w') :
    w'.starts = tr.filterMap fun e ↦ e.1.started unicode := by
  have hlog : w'.starts = w.starts ++ tr.filterMap fun e ↦ e.1.started unicode :=
    hrun.log_eq _ _ (consistent_of_init hinit) fun _ _ _ _ hconsistent _ hstep ↦
      have hmoved := moved_of_step hcasefold hconsistent hstep
      ⟨hmoved.consistent, hmoved.starts⟩
  rw [hlog, hinit.2.2.2.1, List.nil_append]

theorem exchanged_of_run (hcasefold : unicode.casefold = folding.casefold)
    (hinit : (flow unicode aead json).init w)
    (hrun : System.Run (flow unicode aead json) System.anyStep w tr w') :
    w'.exchanged = tr.filterMap fun e ↦ e.2.exchanged := by
  have hlog : w'.exchanged = w.exchanged ++ tr.filterMap fun e ↦ e.2.exchanged :=
    hrun.log_eq _ _ (consistent_of_init hinit) fun _ _ _ _ hconsistent _ hstep ↦
      have hmoved := moved_of_step hcasefold hconsistent hstep
      ⟨hmoved.consistent, hmoved.exchanged⟩
  rw [hlog, hinit.2.2.2.2, List.nil_append]

/-- Who initiated a state is found in the trace. -/
theorem exists_start_of_initiated (hcasefold : unicode.casefold = folding.casefold)
    (hinit : (flow unicode aead json).init w)
    (hrun : System.Run (flow unicode aead json) System.anyStep w tr w') {state email : String}
    {userId : Uuid} (h : w'.Initiated state userId email) :
    ∃ principal sent outcome, (.start principal state sent, outcome) ∈ tr ∧
      principal.userId = userId ∧ normalizeEmail unicode principal.email = some email := by
  obtain ⟨start, hmem, rfl, huser, hemail⟩ := h
  rw [starts_of_run hcasefold hinit hrun] at hmem
  obtain ⟨⟨event, outcome⟩, hevent, hstart⟩ := List.mem_filterMap.mp hmem
  cases event with
  | start principal state sent =>
    obtain ⟨value, -, rfl⟩ := Option.map_eq_some_iff.mp hstart
    exact ⟨principal, sent, outcome, hevent, huser, hemail⟩
  | _ => cases hstart

variable (unicode aead json) in
/-- What holds after a run of the flow. -/
structure World.BindsOnce (tr : List (Event × Outcome)) (w : World unicode) : Prop where
  /-- A state leads to one execution of `exchange_oauth_code` at most. -/
  once : ∀ state, (tr.filterMap fun e ↦ e.2.exchanged).count state ≤ 1
  /-- A connection is persisted on the row of the user who drew the state, for the email that this
  user had then. -/
  connected : ∀ event w' state userId email,
    step unicode aead json w event = some (w', .connected state userId email) →
      (∃ row, row.googleEmailNormalized = some email ∧
        w'.rows = Function.update w.rows userId (some row)) ∧
      ∃ principal sent outcome, (.start principal state sent, outcome) ∈ tr ∧
        principal.userId = userId ∧ normalizeEmail unicode principal.email = some email
  /-- Nothing else in the flow changes a row. -/
  rows : ∀ event w' outcome, step unicode aead json w event = some (w', outcome) →
    w'.rows = w.rows ∨ (∃ userId row, event = .write userId row) ∨
      ∃ state userId email, outcome = .connected state userId email

/-- **A state binds a connection to its initiator, once.** -/
theorem oauthStateBindsOnce (hcasefold : unicode.casefold = folding.casefold)
    (hinit : (flow unicode aead json).init w)
    (hrun : System.Run (flow unicode aead json) System.anyStep w tr w') :
    w'.BindsOnce unicode aead json tr := by
  have hconsistent := consistent_of_run hcasefold hinit hrun
  constructor
  · intro state
    have hplaces := hconsistent.places state
    have hfresh := List.nodup_iff_count_le_one.mp hconsistent.fresh state
    rw [World.places] at hplaces
    rw [← exchanged_of_run hcasefold hinit hrun]
    omega
  · intro event w'' state userId email hstep
    obtain ⟨hinitiated, hrow⟩ :=
      (moved_of_step hcasefold hconsistent hstep).connected state userId email rfl
    exact ⟨hrow, exists_start_of_initiated hcasefold hinit hrun hinitiated⟩
  · intro event w'' outcome hstep
    exact (moved_of_step hcasefold hconsistent hstep).rows

end

/-! ### A connection from start to end -/

/-- Nothing has happened. -/
def emptyWorld : World asciiFolded where
  store _ := none
  requests := []
  callbacks := []
  rows _ := none
  starts := []
  exchanged := []

/-- The calls up to the exchange. -/
def connectingEvents : List Event := [.start ⟨7, "Ann@x.org"⟩ "tok" true, .apply 0,
  .callback (some "c") "tok" none, .reply 0 false,
  .exchange 0 (some ⟨⟨grantedToken, grantedExchange.distinctKeys⟩, some " Ann@x.org"⟩)]

/-- The callback that is about to persist. -/
def persistingCallback : Callback asciiFolded :=
  ⟨"tok", some "c", none, .persisting 7 ⟨(7 : Uuid).toText, "ann@x.org"⟩ grantedExchange⟩

theorem stepReply_of_received {unicode : UnicodeData} {w : World unicode} {n : ℕ}
    {callback : Callback unicode} {rawBinding : Option (List Char)} {userId : Uuid}
    {binding : OAuthStateBinding} {outcome : Outcome} (hn : w.callbacks[n]? = some callback)
    (hphase : callback.phase = .replied rawBinding)
    (hreceived : callback.received rawBinding = (.exchanging userId binding, outcome)) :
    stepReply unicode w n false = some ({ w.moved n callback (.exchanging userId binding) with
      exchanged := w.exchanged ++ [callback.state] }, outcome) := by
  rw [stepReply, hn]
  dsimp only
  rw [hphase]
  dsimp only
  rw [if_neg Bool.false_ne_true, hreceived]

theorem step_start : step asciiFolded envelope inverseReader emptyWorld
    (.start ⟨7, "Ann@x.org"⟩ "tok" true) =
      match createBinding asciiFolded (7 : Uuid).toText "Ann@x.org" with
      | none => some (emptyWorld, Outcome.serviceUnavailable)
      | some value => some ({ emptyWorld with
        requests := [⟨"tok", value, .sent, false⟩]
        starts := [⟨⟨7, "Ann@x.org"⟩, "tok", value⟩] }, .done) := rfl

theorem replay_connectingEvents : ∃ w', (flow asciiFolded envelope inverseReader).replay emptyWorld
    connectingEvents = some (w', [.done, .done, .done, .exchanging "tok", .done]) ∧
      w'.callbacks = [persistingCallback] ∧ w'.rows = emptyWorld.rows := by
  have hcasefold : asciiFolded.casefold = CaseFolding.ascii.casefold := rfl
  have hemail : normalizeEmail asciiFolded "Ann@x.org" = some "ann@x.org" := by decide
  obtain ⟨value, hvalue⟩ : ∃ value,
      createBinding asciiFolded (7 : Uuid).toText "Ann@x.org" = some value := by
    rw [createBinding, hemail]
    exact ⟨_, rfl⟩
  obtain ⟨expectedEmail, hemail', hread⟩ := readBinding_of_createBinding hcasefold hvalue
  obtain rfl := Option.some.inj (hemail.symm.trans hemail')
  have huser : Uuid.ofText (7 : Uuid).toText.toList = some 7 := by
    rw [Uuid.toText, String.toList_ofList, Uuid.ofText_text]
  let replied : Callback asciiFolded := ⟨"tok", some "c", none, .replied (some value)⟩
  have hreceived : replied.received (some value) =
      (.exchanging 7 ⟨(7 : Uuid).toText, "ann@x.org"⟩, .exchanging "tok") := by
    rw [Callback.received, hread]
    dsimp only
    rw [huser]
    rfl
  let sent : World asciiFolded := { emptyWorld with
    requests := [⟨"tok", value, .sent, false⟩]
    starts := [⟨⟨7, "Ann@x.org"⟩, "tok", value⟩] }
  let applied : World asciiFolded := { sent with
    store := Function.update sent.store (stateKey "tok") (some value)
    requests := [⟨"tok", value, .applied, false⟩] }
  let consumed : World asciiFolded := { applied with
    store := Function.update applied.store (stateKey "tok") none
    callbacks := [replied] }
  let exchanging : World asciiFolded := { consumed with
    callbacks := [{ replied with phase := .exchanging 7 ⟨(7 : Uuid).toText, "ann@x.org"⟩ }]
    exchanged := ["tok"] }
  let persisting : World asciiFolded := { exchanging with callbacks := [persistingCallback] }
  have hstart : step asciiFolded envelope inverseReader emptyWorld
      (.start ⟨7, "Ann@x.org"⟩ "tok" true) = some (sent, .done) := by
    rw [step_start, hvalue]
  have hconsume : step asciiFolded envelope inverseReader applied
      (.callback (some "c") "tok" none) = some (consumed, .done) := by
    have hstored : applied.store (stateKey "tok") = some value := by
      change Function.update sent.store (stateKey "tok") (some value) (stateKey "tok") = _
      rw [Function.update_self]
    rw [step, if_pos (by decide), hstored]
    rfl
  have hreply : step asciiFolded envelope inverseReader consumed (.reply 0 false) =
      some (exchanging, .exchanging "tok") := by
    have hn : consumed.callbacks[0]? = some replied := rfl
    exact stepReply_of_received hn rfl hreceived
  have hexchange : step asciiFolded envelope inverseReader exchanging (.exchange 0 (some
      ⟨⟨grantedToken, grantedExchange.distinctKeys⟩, some " Ann@x.org"⟩)) =
        some (persisting, .done) := rfl
  refine ⟨persisting, ?_, rfl, rfl⟩
  rw [connectingEvents]
  simp only [System.replay, flow, hstart, hconsume, hreply, hexchange,
    show step asciiFolded envelope inverseReader sent (.apply 0) = some (applied, .done) from rfl]

theorem oauthStateBindsOnce_sample : ∃ tr w' event w'',
    System.Run (flow asciiFolded envelope inverseReader) System.anyStep emptyWorld tr w' ∧
      w'.BindsOnce asciiFolded envelope inverseReader tr ∧
      step asciiFolded envelope inverseReader w' event =
        some (w'', .connected "tok" 7 "ann@x.org") := by
  have hcasefold : asciiFolded.casefold = CaseFolding.ascii.casefold := rfl
  obtain ⟨w', hreplay, hcallbacks, hrows⟩ := replay_connectingEvents
  obtain ⟨row, -, hpersist⟩ := persist_grantedExchange
  have hrun := System.run_of_replay hreplay
  refine ⟨_, w', .persist 0 (some (ringOf "k1" 1)) ⟨List.replicate 12 0, rfl⟩,
    { w'.moved 0 persistingCallback .ended with
      rows := Function.update w'.rows 7 (some row) }, hrun,
    oauthStateBindsOnce hcasefold ⟨fun _ ↦ rfl, rfl, rfl, rfl, rfl⟩ hrun, ?_⟩
  change stepPersist asciiFolded envelope inverseReader w' 0 _ _ = _
  rw [stepPersist, hcallbacks, hrows]
  dsimp only [List.getElem?_cons_zero, persistingCallback]
  rw [show persistOauthConnection _ _ _ _ _ ((7 : Uuid) : ℕ) _ _ (emptyWorld.rows 7) = _ from
    hpersist]
  rfl

end Onebox.Credentials.OAuth
