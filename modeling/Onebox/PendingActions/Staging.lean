import Onebox.PendingActions.ActionTable
import Onebox.Transition.Simulation

/-!
# Staging, once for each command key

Any number of `create_pending_action` calls at once. Each looks its command key up, inserts a row
when there is none, and looks again when the insertion violates a constraint; between these steps
anything may happen, and the unique constraint on owner and command key arbitrates. A row that is
found settles the call: it is returned when its type and its hash are those of the call, and is a
conflict otherwise.

Where the first lookup finds a row and where the second one does, the verdict is the same, since a
stored row keeps its owner, its key, its type and its hash for good.
-/

namespace Onebox.PendingActions

open Python Transition

/-! ## A call -/

/-- The arguments of `create_pending_action`. -/
structure CreateRequest where
  /-- What `UUID(str(user_id))` makes of the user; `none` is the `ValueError`. -/
  userId : Option UserId
  actionType : ActionType
  payload : Json
  commandKey : String

/-- `_validate_command_key`. -/
def validateCommandKey (commandKey : String) : Bool :=
  16 ≤ commandKey.length && commandKey.length ≤ 128 &&
    commandKey.toList.all fun c ↦ c.isAlphanum || c == '_' || c == '-'

/-- `action_type in SUPPORTED_ACTIONS`. -/
def ActionType.isSupported : ActionType → Bool
  | other _ => false
  | _ => true

/-- A validated command. -/
structure Command (env : PayloadEnv) where
  userId : UserId
  commandKey : String
  staged : StagedPayload env

namespace Command

variable {env : PayloadEnv}

/-- What the constraint goes by. -/
def id (command : Command env) : CommandId := (command.userId, command.commandKey)

/-- The row to insert. -/
def row (command : Command env) (id : ActionId) (clock : Clock) : PendingAction :=
  command.staged.row id command.userId command.commandKey clock

/-- The stored row is the one of this command. -/
def Matches (command : Command env) (existing : PendingAction) : Prop :=
  existing.actionType = command.staged.actionType ∧
    existing.payloadHash = command.staged.payloadHash

instance (command : Command env) (existing : PendingAction) :
    Decidable (command.Matches existing) := inferInstanceAs (Decidable (_ ∧ _))

end Command

/-- `create_pending_action` up to its first query; `none` is a `ValueError` or `TypeError`. -/
def prepare (env : PayloadEnv) (request : CreateRequest) : Option (Command env) :=
  if request.actionType.isSupported then
    match request.userId with
    | none => none
    | some userId =>
      if validateCommandKey request.commandKey then
        match h : canonicalizeActionPayload env request.actionType request.payload with
        | none => none
        | some canonical =>
          some ⟨userId, request.commandKey, ⟨request.actionType, request.payload, canonical, h⟩⟩
      else none
  else none

/-- Where a call is. -/
inductive CreatePhase
  /-- Before its first lookup. -/
  | lookingUp
  /-- Before its insertion. -/
  | inserting
  /-- Before its lookup after an `IntegrityError`. -/
  | lookingAgain
  /-- After its commit, before it reads its row back. -/
  | refreshing (id : ActionId)
  | returned (row : PendingAction)
  /-- `PendingActionCommandConflict`. -/
  | conflict
  /-- The `IntegrityError` is raised to the caller. -/
  | integrityError
  /-- Cancelled, or cut off from the database. -/
  | aborted

/-- The call has ended. -/
def CreatePhase.ended : CreatePhase → Bool
  | returned _ | conflict | integrityError | aborted => true
  | lookingUp | inserting | lookingAgain | refreshing _ => false

section

variable {env : PayloadEnv}

/-- What a call makes of the row it finds under its key. -/
def Command.settle (command : Command env) (existing : PendingAction) : CreatePhase :=
  if existing.actionType ≠ command.staged.actionType ∨
      existing.payloadHash ≠ command.staged.payloadHash then .conflict
  else .returned existing

/-- The next step of a call: one query or one commit. A commit draws an id and reads the clock. -/
def CreatePhase.step (command : Command env) (t : ActionTable) (id : ActionId) (clock : Clock) :
    CreatePhase → Option (ActionTable × CreatePhase)
  | .lookingUp =>
    match t.lookup command.id with
    | some existing => some (t, command.settle existing)
    | none => some (t, .inserting)
  | .inserting =>
    match t.insert? (command.row id clock) with
    | some t' => some (t', .refreshing id)
    | none => some (t, .lookingAgain)
  | .lookingAgain =>
    match t.lookup command.id with
    | some existing => some (t, command.settle existing)
    | none => some (t, .integrityError)
  | .refreshing id' =>
    match t.get? id' with
    | some row => some (t, .returned row)
    | none => some (t, .aborted)
  | .returned _ | .conflict | .integrityError | .aborted => none

end

/-! ## The system -/

/-- A call in progress. -/
structure CreateCall (env : PayloadEnv) where
  command : Command env
  phase : CreatePhase

/-- The table and the calls. -/
structure StagingWorld (env : PayloadEnv) where
  table : ActionTable
  calls : ℕ → Option (CreateCall env)

/-- The steps of the system. -/
inductive StagingStep
  | create (n : ℕ) (request : CreateRequest)
  | advance (n : ℕ) (id : ActionId) (clock : Clock)
  | abort (n : ℕ)
  /-- Another transaction of the service on a stored row. -/
  | transact (id : ActionId) (tx : RowTransaction)

namespace StagingWorld

variable {env : PayloadEnv}

def setCall (w : StagingWorld env) (n : ℕ) (call : CreateCall env) : StagingWorld env :=
  { w with calls := Function.update w.calls n (some call) }

/-- One step. A request that is refused leaves nothing behind. -/
def step (w : StagingWorld env) : StagingStep → Option (StagingWorld env × Unit)
  | .create n request =>
    match w.calls n, prepare env request with
    | some _, _ => none
    | none, none => some (w, ())
    | none, some command => some (w.setCall n ⟨command, .lookingUp⟩, ())
  | .advance n id clock =>
    match w.calls n with
    | none => none
    | some call =>
      match call.phase.step call.command w.table id clock with
      | none => none
      | some (t, phase) => some ({ w with table := t }.setCall n ⟨call.command, phase⟩, ())
  | .abort n =>
    match w.calls n with
    | none => none
    | some call =>
      if call.phase.ended then none else some (w.setCall n ⟨call.command, .aborted⟩, ())
  | .transact id tx => some ({ w with table := w.table.transact (payloadRules env) id tx }, ())

end StagingWorld

/-- The staging of actions, on a table of staged rows. -/
def staging (env : PayloadEnv) : System (StagingWorld env) StagingStep Unit where
  init w := (∀ row ∈ w.table.rows, ∃ staged : StagedPayload env, staged.Untouched row) ∧
    ∀ n, w.calls n = none
  step := StagingWorld.step

/-- A drawn id is not in use. -/
def FreshIds {env : PayloadEnv} (w : StagingWorld env) : StagingStep → Prop
  | .advance _ id _ => id ∉ w.table.rows.map PendingAction.id
  | _ => True

/-! ## What a step does -/

/-- **The steps of a call that leave the table alone**, one of which has drawn an id. -/
inductive PhaseMove {env : PayloadEnv} (command : Command env) (t : ActionTable)
    (drawn : ActionId) : CreatePhase → CreatePhase → Prop
  | settled {phase : CreatePhase} {existing : PendingAction}
      (looking : phase = .lookingUp ∨ phase = .lookingAgain)
      (found : t.lookup command.id = some existing) :
      PhaseMove command t drawn phase (command.settle existing)
  | absent (none : t.lookup command.id = none) : PhaseMove command t drawn .lookingUp .inserting
  | violated (clock : Clock) (failed : t.insert? (command.row drawn clock) = none) :
      PhaseMove command t drawn .inserting .lookingAgain
  | unexplained (none : t.lookup command.id = none) :
      PhaseMove command t drawn .lookingAgain .integrityError
  | refreshed {id : ActionId} {row : PendingAction} (found : t.get? id = some row) :
      PhaseMove command t drawn (.refreshing id) (.returned row)
  | lost {id : ActionId} : PhaseMove command t drawn (.refreshing id) .aborted
  | aborted {phase : CreatePhase} (active : phase.ended = false) :
      PhaseMove command t drawn phase .aborted

/-- **The effect of a step.** -/
inductive StagingEffect {env : PayloadEnv} (w : StagingWorld env) :
    StagingStep → StagingWorld env → Prop
  | refused (n : ℕ) (request : CreateRequest) : StagingEffect w (.create n request) w
  | begun (n : ℕ) (request : CreateRequest) {command : Command env} (free : w.calls n = none) :
      StagingEffect w (.create n request) (w.setCall n ⟨command, .lookingUp⟩)
  | moved {a : StagingStep} {n : ℕ} {drawn : ActionId} {command : Command env}
      {phase phase' : CreatePhase}
      (own : (∃ clock, a = .advance n drawn clock) ∨ a = .abort n ∧ phase' = .aborted)
      (current : w.calls n = some ⟨command, phase⟩)
      (move : PhaseMove command w.table drawn phase phase') :
      StagingEffect w a (w.setCall n ⟨command, phase'⟩)
  | inserted (n : ℕ) (id : ActionId) (clock : Clock) {command : Command env} {t : ActionTable}
      (current : w.calls n = some ⟨command, .inserting⟩)
      (insert : w.table.insert? (command.row id clock) = some t) :
      StagingEffect w (.advance n id clock)
        ({ w with table := t }.setCall n ⟨command, .refreshing id⟩)
  | transacted (id : ActionId) (tx : RowTransaction) :
      StagingEffect w (.transact id tx)
        { w with table := w.table.transact (payloadRules env) id tx }

section

variable {env : PayloadEnv} {w w' : StagingWorld env} {a : StagingStep} {o : Unit}
  {command : Command env} {t t' : ActionTable} {phase phase' : CreatePhase} {id : ActionId}
  {clock : Clock} {existing : PendingAction}

theorem phaseMove_of_step (hs : phase.step command t id clock = some (t', phase')) :
    t' = t ∧ PhaseMove command t id phase phase' ∨
      phase = .inserting ∧ phase' = .refreshing id ∧
        t.insert? (command.row id clock) = some t' := by
  cases phase with
  | lookingUp =>
    simp only [CreatePhase.step] at hs
    split at hs
    · rename_i existing hfound
      obtain ⟨rfl, rfl⟩ := by simpa using hs
      exact Or.inl ⟨rfl, .settled (Or.inl rfl) hfound⟩
    · rename_i hnone
      obtain ⟨rfl, rfl⟩ := by simpa using hs
      exact Or.inl ⟨rfl, .absent hnone⟩
  | inserting =>
    simp only [CreatePhase.step] at hs
    split at hs
    · rename_i t'' hinsert
      obtain ⟨rfl, rfl⟩ := by simpa using hs
      exact Or.inr ⟨rfl, rfl, hinsert⟩
    · rename_i hfailed
      obtain ⟨rfl, rfl⟩ := by simpa using hs
      exact Or.inl ⟨rfl, .violated clock hfailed⟩
  | lookingAgain =>
    simp only [CreatePhase.step] at hs
    split at hs
    · rename_i existing hfound
      obtain ⟨rfl, rfl⟩ := by simpa using hs
      exact Or.inl ⟨rfl, .settled (Or.inr rfl) hfound⟩
    · rename_i hnone
      obtain ⟨rfl, rfl⟩ := by simpa using hs
      exact Or.inl ⟨rfl, .unexplained hnone⟩
  | refreshing id' =>
    simp only [CreatePhase.step] at hs
    split at hs
    · rename_i row hfound
      obtain ⟨rfl, rfl⟩ := by simpa using hs
      exact Or.inl ⟨rfl, .refreshed hfound⟩
    · obtain ⟨rfl, rfl⟩ := by simpa using hs
      exact Or.inl ⟨rfl, .lost⟩
  | _ => cases hs

theorem stagingEffect_of_step (hs : w.step a = some (w', o)) : StagingEffect w a w' := by
  cases a with
  | create n request =>
    simp only [StagingWorld.step] at hs
    split at hs
    · cases hs
    · obtain ⟨rfl, -⟩ := by simpa using hs
      exact .refused n request
    · rename_i command hfree hprepared
      obtain ⟨rfl, -⟩ := by simpa using hs
      exact .begun n request hfree
  | advance n id clock =>
    simp only [StagingWorld.step] at hs
    split at hs
    · cases hs
    · rename_i call hcurrent
      obtain ⟨command, phase⟩ := call
      split at hs
      · cases hs
      · rename_i t phase' hstep
        obtain ⟨rfl, -⟩ := by simpa using hs
        rcases phaseMove_of_step hstep with ⟨rfl, hmove⟩ | ⟨rfl, rfl, hinsert⟩
        · exact .moved (Or.inl ⟨clock, rfl⟩) hcurrent hmove
        · exact .inserted n id clock hcurrent hinsert
  | abort n =>
    simp only [StagingWorld.step] at hs
    split at hs
    · cases hs
    · rename_i call hcurrent
      obtain ⟨command, phase⟩ := call
      split at hs
      · cases hs
      · rename_i hactive
        obtain ⟨rfl, -⟩ := by simpa using hs
        have hmove : PhaseMove command w.table 0 phase .aborted :=
          .aborted (Bool.eq_false_of_not_eq_true hactive)
        exact .moved (Or.inr ⟨rfl, rfl⟩) hcurrent hmove
  | transact id tx =>
    obtain ⟨rfl, -⟩ := by simpa [StagingWorld.step] using hs
    exact .transacted id tx

/-! ### The calls -/

namespace StagingWorld

theorem setCall_self (w : StagingWorld env) (n : ℕ) (call : CreateCall env) :
    (w.setCall n call).calls n = some call := Function.update_self _ _ _

theorem setCall_of_ne (w : StagingWorld env) {n m : ℕ} (h : m ≠ n) (call : CreateCall env) :
    (w.setCall n call).calls m = w.calls m := Function.update_of_ne h _ _

theorem setCall_cases {n m : ℕ} {call other : CreateCall env}
    (h : (w.setCall n call).calls m = some other) :
    m = n ∧ other = call ∨ m ≠ n ∧ w.calls m = some other := by
  by_cases hmn : m = n
  · subst hmn
    rw [setCall_self] at h
    exact Or.inl ⟨rfl, (Option.some.inj h).symm⟩
  · rw [setCall_of_ne w hmn] at h
    exact Or.inr ⟨hmn, h⟩

end StagingWorld

/-- The table only grows. -/
theorem StagingEffect.extends (h : StagingEffect w a w') : w.table.Extends w'.table := by
  cases h with
  | inserted n id clock current insert => exact ActionTable.extends_insert? insert
  | transacted id tx => exact ActionTable.extends_transact
  | _ => exact .refl _

theorem settle_of_matches (h : command.Matches existing) :
    command.settle existing = .returned existing := by
  rw [Command.settle, if_neg]
  rintro (hne | hne)
  · exact hne h.1
  · exact hne h.2

theorem settle_of_not_matches (h : ¬command.Matches existing) :
    command.settle existing = .conflict := if_pos (not_and_or.mp h)

/-! ## What a phase says about the table -/

/-- What is behind the phase of a call. -/
def CreatePhase.Sound (command : Command env) (t : ActionTable) : CreatePhase → Prop
  | .refreshing id => ∃ stored ∈ t.rows, stored.id = id ∧ stored.commandId = command.id ∧
      command.Matches stored
  | .returned row => row.commandId = command.id ∧ command.Matches row ∧
      ∃ stored ∈ t.rows, SameContent row stored
  | .conflict => ∃ stored ∈ t.rows, stored.commandId = command.id ∧ ¬command.Matches stored
  | _ => True

theorem SameContent.matches_iff {row row' : PendingAction} (h : SameContent row row') :
    command.Matches row' ↔ command.Matches row := by
  rw [Command.Matches, Command.Matches, h.actionType, h.payloadHash]

theorem CreatePhase.Sound.extends (h : phase.Sound command t) (hextends : t.Extends t') :
    phase.Sound command t' := by
  cases phase with
  | refreshing id =>
    obtain ⟨stored, hmem, hid, hkey, hmatches⟩ := h
    obtain ⟨stored', hmem', hsame⟩ := hextends stored hmem
    exact ⟨stored', hmem', hsame.id.trans hid, hsame.commandId.trans hkey,
      hsame.matches_iff.mpr hmatches⟩
  | returned row =>
    obtain ⟨hkey, hmatches, stored, hmem, hcontent⟩ := h
    obtain ⟨stored', hmem', hsame⟩ := hextends stored hmem
    exact ⟨hkey, hmatches, stored', hmem', hcontent.trans hsame⟩
  | conflict =>
    obtain ⟨stored, hmem, hkey, hdiffers⟩ := h
    obtain ⟨stored', hmem', hsame⟩ := hextends stored hmem
    exact ⟨stored', hmem', hsame.commandId.trans hkey, fun hmatches ↦
      hdiffers (hsame.matches_iff.mp hmatches)⟩
  | _ => trivial

theorem PhaseMove.sound (h : PhaseMove command t id phase phase') (hsound : phase.Sound command t) :
    phase'.Sound command t := by
  cases h with
  | @settled _ existing looking found =>
    obtain ⟨hmem, hkey⟩ := ActionTable.lookup_eq_some_iff.mp found
    by_cases hmatches : command.Matches existing
    · rw [settle_of_matches hmatches]
      exact ⟨hkey, hmatches, existing, hmem, .refl existing⟩
    · rw [settle_of_not_matches hmatches]
      exact ⟨existing, hmem, hkey, hmatches⟩
  | @refreshed id row found =>
    obtain ⟨stored, hmem, hid, hkey, hmatches⟩ := hsound
    obtain ⟨hrow, hrowId⟩ := ActionTable.get?_eq_some_iff.mp found
    obtain rfl := ActionTable.eq_of_id hmem hrow (hid.trans hrowId.symm)
    exact ⟨hkey, hmatches, stored, hmem, .refl stored⟩
  | _ => trivial

/-- What holds along every run. -/
structure StagingInvariant (w : StagingWorld env) : Prop where
  stored : ∀ row ∈ w.table.rows, ∃ staged : StagedPayload env, staged.Untouched row
  calls : ∀ n call, w.calls n = some call → call.phase.Sound call.command w.table

theorem stagingInvariant_init (h : (staging env).init w) : StagingInvariant w where
  stored := h.1
  calls n call hn := by
    rw [h.2 n] at hn
    cases hn

theorem untouched_of_sameContent {staged : StagedPayload env} {row row' : PendingAction}
    (h : staged.Untouched row) (hsame : SameContent row row') : staged.Untouched row' where
  actionType := hsame.actionType.trans h.actionType
  payload := hsame.payload.trans h.payload
  payloadHash := hsame.payloadHash.trans h.payloadHash

theorem StagingInvariant.step (hI : StagingInvariant w) (h : StagingEffect w a w') :
    StagingInvariant w' := by
  have hextends := h.extends
  cases h with
  | refused => exact hI
  | begun n request free =>
    refine ⟨hI.stored, fun m call hm ↦ ?_⟩
    rcases StagingWorld.setCall_cases hm with ⟨rfl, rfl⟩ | ⟨-, hm⟩
    · trivial
    · exact hI.calls m call hm
  | moved own current move =>
    refine ⟨hI.stored, fun m call hm ↦ ?_⟩
    rcases StagingWorld.setCall_cases hm with ⟨rfl, rfl⟩ | ⟨-, hm⟩
    · exact move.sound (hI.calls m _ current)
    · exact hI.calls m call hm
  | @inserted n id clock command t current insert =>
    obtain ⟨-, -, hrows⟩ := ActionTable.insert?_eq_some insert
    have hnew : command.row id clock ∈ t.rows := by
      rw [hrows]
      exact List.mem_append_right _ (List.mem_singleton_self _)
    refine ⟨fun row hrow ↦ ?_, fun m call hm ↦ ?_⟩
    · change row ∈ t.rows at hrow
      rw [hrows] at hrow
      rcases List.mem_append.mp hrow with hold | hrow
      · exact hI.stored row hold
      · rw [List.mem_singleton.mp hrow]
        exact ⟨command.staged, command.staged.untouched_row _ _ _ _⟩
    · rcases StagingWorld.setCall_cases hm with ⟨rfl, rfl⟩ | ⟨-, hm⟩
      · exact ⟨_, hnew, rfl, rfl, rfl, rfl⟩
      · exact (hI.calls m call hm).extends hextends
  | transacted id tx =>
    refine ⟨fun row hrow ↦ ?_, fun m call hm ↦ (hI.calls m call hm).extends hextends⟩
    obtain ⟨old, hold, rfl⟩ := List.mem_map.mp hrow
    obtain ⟨staged, huntouched⟩ := hI.stored old hold
    exact ⟨staged, untouched_of_sameContent huntouched
      (ActionTable.sameContent_transactRow (payloadRules env) id tx old)⟩

end

end Onebox.PendingActions
