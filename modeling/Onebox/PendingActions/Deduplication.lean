import Onebox.PendingActions.Staging

/-!
# Staging is deduplicated for each command key

What the calls of the previous module end with. The table never holds two rows for a command key,
the row that is there first stays, and every call for the key is settled by it, on either path.
Calls for other keys cannot be told from no calls at all: what a run does for one key is a run by
itself.
-/

namespace Onebox.PendingActions

open Python Transition

section

variable {env : PayloadEnv} {w w' u v : StagingWorld env} {a : StagingStep} {o : Unit}
  {command : Command env} {t t' : ActionTable} {phase phase' : CreatePhase} {id : ActionId}
  {clock : Clock} {n m : ℕ} {call call' : CreateCall env} {k : CommandId}
  {tr : List (StagingStep × Unit)}

/-! ## Whole runs -/

/-- Any run. -/
abbrev StagingRun (env : PayloadEnv) := System.Run (staging env) System.anyStep

theorem StagingInvariant.run (hI : StagingInvariant w) (h : StagingRun env w tr w') :
    StagingInvariant w' ∧ w.table.Extends w'.table :=
  h.relates (R := fun w w' ↦ w.table.Extends w'.table) (fun w ↦ .refl w.table)
    (fun _ _ _ h h' ↦ h.trans h') hI fun _ _ _ _ hI _ hs ↦
      ⟨hI.step (stagingEffect_of_step hs), (stagingEffect_of_step hs).extends⟩

/-- A call keeps its command, and its phase once it has ended. -/
theorem StagingEffect.keeps (h : StagingEffect w a w') (hn : w.calls n = some call) :
    ∃ call', w'.calls n = some call' ∧ call'.command = call.command ∧
      (call.phase.ended = true → call' = call) := by
  have hother : ∀ {m : ℕ} {next : CreateCall env}, n ≠ m →
      ∃ call', (w.setCall m next).calls n = some call' ∧ call'.command = call.command ∧
        (call.phase.ended = true → call' = call) := fun hne ↦
    ⟨call, (w.setCall_of_ne hne _).trans hn, rfl, fun _ ↦ rfl⟩
  cases h with
  | refused => exact ⟨call, hn, rfl, fun _ ↦ rfl⟩
  | begun m request free =>
    by_cases hmn : n = m
    · subst hmn
      rw [hn] at free
      cases free
    · exact hother hmn
  | @moved _ m drawn command phase phase' own current move =>
    by_cases hmn : n = m
    · subst hmn
      obtain rfl := Option.some.inj (hn.symm.trans current)
      refine ⟨_, w.setCall_self n _, rfl, fun hended ↦ ?_⟩
      cases move with
      | settled looking => rcases looking with rfl | rfl <;> cases hended
      | aborted active =>
        rw [active] at hended
        cases hended
      | _ => cases hended
    · exact hother hmn
  | @inserted m id clock command t current insert =>
    by_cases hmn : n = m
    · subst hmn
      obtain rfl := Option.some.inj (hn.symm.trans current)
      exact ⟨_, StagingWorld.setCall_self _ n _, rfl, nofun⟩
    · exact ⟨call, (StagingWorld.setCall_of_ne _ hmn _).trans hn, rfl, fun _ ↦ rfl⟩
  | transacted => exact ⟨call, hn, rfl, fun _ ↦ rfl⟩

/-! ## The insertion that a constraint refuses -/

/-- With fresh ids, only the command key refuses an insertion. -/
def CreatePhase.Arbitrated (command : Command env) (t : ActionTable) : CreatePhase → Prop
  | .lookingAgain => ∃ stored ∈ t.rows, stored.commandId = command.id
  | .integrityError => False
  | _ => True

theorem CreatePhase.Arbitrated.extends (h : phase.Arbitrated command t) (hextends : t.Extends t') :
    phase.Arbitrated command t' := by
  cases phase with
  | lookingAgain =>
    obtain ⟨stored, hmem, hkey⟩ := h
    obtain ⟨stored', hmem', hsame⟩ := hextends stored hmem
    exact ⟨stored', hmem', hsame.commandId.trans hkey⟩
  | integrityError => exact h
  | _ => trivial

theorem PhaseMove.arbitrated (h : PhaseMove command t id phase phase')
    (hfresh : phase' = .lookingAgain → id ∉ t.rows.map PendingAction.id)
    (harbitrated : phase.Arbitrated command t) : phase'.Arbitrated command t := by
  cases h with
  | @settled _ existing =>
    rw [Command.settle]
    split
    · trivial
    · trivial
  | violated clock failed =>
    obtain ⟨stored, hmem, hkey⟩ :=
      List.mem_map.mp ((ActionTable.insert?_eq_none_iff (hfresh rfl)).mp failed)
    exact ⟨stored, hmem, hkey⟩
  | unexplained none =>
    obtain ⟨stored, hmem, hkey⟩ := harbitrated
    rw [ActionTable.lookup_eq_some_iff.mpr ⟨hmem, hkey⟩] at none
    cases none
  | _ => trivial

/-- What holds along a run with fresh ids. -/
def ArbitratedInvariant (w : StagingWorld env) : Prop :=
  ∀ n call, w.calls n = some call → call.phase.Arbitrated call.command w.table

theorem ArbitratedInvariant.step (hI : ArbitratedInvariant w) (hfresh : FreshIds w a)
    (h : StagingEffect w a w') : ArbitratedInvariant w' := by
  have hextends := h.extends
  intro m call hm
  cases h with
  | refused => exact hI m call hm
  | begun n request free =>
    rcases StagingWorld.setCall_cases hm with ⟨rfl, rfl⟩ | ⟨-, hm⟩
    · trivial
    · exact hI m call hm
  | moved own current move =>
    rcases StagingWorld.setCall_cases hm with ⟨rfl, rfl⟩ | ⟨-, hm⟩
    · refine move.arbitrated (fun hagain ↦ ?_) (hI m _ current)
      rcases own with ⟨clock, rfl⟩ | ⟨rfl, rfl⟩
      · exact hfresh
      · cases hagain
    · exact hI m call hm
  | inserted n id clock current insert =>
    rcases StagingWorld.setCall_cases hm with ⟨rfl, rfl⟩ | ⟨-, hm⟩
    · trivial
    · exact (hI m call hm).extends hextends
  | transacted id tx => exact (hI m call hm).extends hextends

/-! ## One command key at a time -/

namespace StagingWorld

/-- The world as far as one command key is concerned. -/
def only (w : StagingWorld env) (k : CommandId) : StagingWorld env where
  table := w.table.only k
  calls n := (w.calls n).filter fun call ↦ call.command.id = k

theorem ext_only {w w' : StagingWorld env} (htable : w.table = w'.table)
    (hcalls : ∀ n, w.calls n = w'.calls n) : w = w' := by
  cases w
  cases w'
  cases htable
  cases funext hcalls
  rfl

theorem only_calls_self (hn : w.calls n = some call) (hk : call.command.id = k) :
    (w.only k).calls n = some call := by
  change (w.calls n).filter _ = _
  rw [hn]
  exact Option.filter_eq_some_iff.mpr ⟨rfl, decide_eq_true hk⟩

theorem only_calls_of_none (hn : w.calls n = none) : (w.only k).calls n = none := by
  change (w.calls n).filter _ = _
  rw [hn]
  rfl

theorem only_calls_of_ne (hn : w.calls n = some call) (hk : call.command.id ≠ k) :
    (w.only k).calls n = none := by
  change (w.calls n).filter _ = _
  rw [hn]
  exact Option.filter_eq_none_iff.mpr fun c hc ↦ by
    obtain rfl := Option.some.inj hc
    simpa using hk

/-- A call under the key. -/
theorem only_setCall (hk : call.command.id = k) :
    (w.setCall n call).only k = (w.only k).setCall n call := by
  refine ext_only rfl fun m ↦ ?_
  by_cases hmn : m = n
  · subst hmn
    rw [only_calls_self (w.setCall_self m call) hk, setCall_self]
  · rw [setCall_of_ne _ hmn]
    change ((w.setCall n call).calls m).filter _ = (w.calls m).filter _
    rw [setCall_of_ne _ hmn]

/-- A call under another key. -/
theorem only_setCall_of_ne (hk : call.command.id ≠ k) (hold : (w.only k).calls n = none) :
    (w.setCall n call).only k = w.only k := by
  refine ext_only rfl fun m ↦ ?_
  by_cases hmn : m = n
  · subst hmn
    rw [only_calls_of_ne (w.setCall_self m call) hk, hold]
  · change ((w.setCall n call).calls m).filter _ = (w.calls m).filter _
    rw [setCall_of_ne _ hmn]

end StagingWorld

/-- **The rows of its own key decide on the step of a call.** -/
theorem CreatePhase.step_only (hfresh : id ∉ t.rows.map PendingAction.id)
    (hsound : phase.Sound command t) :
    phase.step command (t.only command.id) id clock =
      (phase.step command t id clock).map fun next ↦ (next.1.only command.id, next.2) := by
  cases phase with
  | lookingUp =>
    simp only [CreatePhase.step, ActionTable.lookup_only]
    cases t.lookup command.id with
    | none => rfl
    | some existing => rfl
  | inserting =>
    have hinsert : (t.only command.id).insert? (command.row id clock) =
        (t.insert? (command.row id clock)).map (·.only command.id) :=
      ActionTable.insert?_only hfresh
    simp only [CreatePhase.step, hinsert]
    cases t.insert? (command.row id clock) with
    | none => rfl
    | some t' => rfl
  | lookingAgain =>
    simp only [CreatePhase.step, ActionTable.lookup_only]
    cases t.lookup command.id with
    | none => rfl
    | some existing => rfl
  | refreshing id' =>
    obtain ⟨stored, hmem, hid, hkey, -⟩ := hsound
    have hfull : t.get? id' = some stored := ActionTable.get?_eq_some_iff.mpr ⟨hmem, hid⟩
    have honly : (t.only command.id).get? id' = some stored :=
      ActionTable.get?_eq_some_iff.mpr ⟨ActionTable.mem_only.mpr ⟨hmem, hkey⟩, hid⟩
    simp only [CreatePhase.step, hfull, honly]
    rfl
  | _ => rfl

/-- The step of a call leaves the rows of other keys alone. -/
theorem only_of_step_of_ne (hs : phase.step command t id clock = some (t', phase'))
    (hk : command.id ≠ k) : t'.only k = t.only k := by
  rcases phaseMove_of_step hs with ⟨rfl, -⟩ | ⟨-, -, hinsert⟩
  · rfl
  · exact ActionTable.only_of_insert?_of_ne hinsert hk

/-- **A step is a step for one key, or none.** -/
theorem StagingWorld.step_only (hI : StagingInvariant w) (hfresh : FreshIds w a)
    (hs : w.step a = some (w', o)) :
    (w.only k).step a = some (w'.only k, o) ∨ w'.only k = w.only k := by
  cases a with
  | create n request =>
    simp only [StagingWorld.step] at hs
    split at hs
    · cases hs
    · obtain ⟨rfl, -⟩ := by simpa using hs
      exact Or.inr rfl
    · rename_i command hfree hprepared
      obtain ⟨rfl, -⟩ := by simpa using hs
      have hnone := only_calls_of_none hfree (k := k)
      -- Restricted to one key, it is the same step if it is about that key, and none otherwise.
      by_cases hk : command.id = k
      · refine Or.inl ?_
        simp only [StagingWorld.step, hnone, hprepared]
        rw [only_setCall hk]
      · exact Or.inr (only_setCall_of_ne hk hnone)
  | advance n id clock =>
    simp only [StagingWorld.step] at hs
    split at hs
    · cases hs
    · rename_i call hcurrent
      split at hs
      · cases hs
      · rename_i t phase hstep
        obtain ⟨rfl, -⟩ := by simpa using hs
        by_cases hk : call.command.id = k
        · subst hk
          refine Or.inl ?_
          have honly : call.phase.step call.command (w.table.only call.command.id) id clock =
              some (t.only call.command.id, phase) := by
            rw [CreatePhase.step_only hfresh (hI.calls n call hcurrent), hstep]
            rfl
          have htable : (w.only call.command.id).table = w.table.only call.command.id := rfl
          simp only [StagingWorld.step, only_calls_self hcurrent rfl, htable, honly]
          rw [only_setCall (w := { w with table := t }) rfl]
          rfl
        · refine Or.inr ?_
          have hother : ({ w with table := t } : StagingWorld env).only k = w.only k :=
            ext_only (only_of_step_of_ne hstep hk) fun _ ↦ rfl
          have hcall : (⟨call.command, phase⟩ : CreateCall env).command.id ≠ k := hk
          have hnone : (({ w with table := t } : StagingWorld env).only k).calls n = none :=
            only_calls_of_ne hcurrent hk
          rw [only_setCall_of_ne hcall hnone, hother]
  | abort n =>
    simp only [StagingWorld.step] at hs
    split at hs
    · cases hs
    · rename_i call hcurrent
      split at hs
      · cases hs
      · rename_i hactive
        obtain ⟨rfl, -⟩ := by simpa using hs
        by_cases hk : call.command.id = k
        · refine Or.inl ?_
          have hcall : (⟨call.command, .aborted⟩ : CreateCall env).command.id = k := hk
          simp only [StagingWorld.step, only_calls_self hcurrent hk]
          rw [if_neg hactive, only_setCall hcall]
        · exact Or.inr (only_setCall_of_ne hk (only_calls_of_ne hcurrent hk))
  | transact id tx =>
    obtain ⟨rfl, -⟩ := by simpa [StagingWorld.step] using hs
    refine Or.inl ?_
    simp only [StagingWorld.step, StagingWorld.only, ActionTable.only_transact]

theorem FreshIds.only (h : FreshIds w a) : FreshIds (w.only k) a := by
  cases a with
  | advance n id clock => exact fun hmem ↦ h ((List.filter_sublist.map _).subset hmem)
  | _ => trivial

/-- **What happens for one key happens by itself.** -/
theorem simulation_only (env : PayloadEnv) (k : CommandId) :
    System.Simulation (staging env) (staging env) FreshIds FreshIds
      fun w x ↦ StagingInvariant w ∧ x = w.only k where
  init w h := by
    refine ⟨w.only k, ⟨fun row hrow ↦ h.1 row (ActionTable.mem_only.mp hrow).1, fun n ↦ ?_⟩,
      stagingInvariant_init h, rfl⟩
    exact StagingWorld.only_calls_of_none (h.2 n)
  step := by
    rintro w x a w' o ⟨hI, rfl⟩ hfresh hs
    have hI' := hI.step (stagingEffect_of_step hs)
    rcases StagingWorld.step_only hI hfresh hs with hstep | hsame
    · exact Or.inr ⟨a, w'.only k, o, hfresh.only, hstep, hI', rfl⟩
    · exact Or.inl ⟨hI', hsame.symm⟩

/-! ## Verdicts -/

/-- The hash of a stored row is that of its payload. -/
theorem StagingInvariant.matches_of_content (hI : StagingInvariant w) {row : PendingAction}
    (hrow : row ∈ w.table.rows) (htype : row.actionType = command.staged.actionType)
    (hpayload : row.payload = command.staged.canonical) : command.Matches row := by
  obtain ⟨staged, huntouched⟩ := hI.stored row hrow
  refine ⟨htype, ?_⟩
  rw [huntouched.payloadHash, StagedPayload.payloadHash, StagedPayload.payloadHash,
    ← huntouched.payload, hpayload]

/-- Rows that match have the content of the command, unless the hashes collide. -/
theorem StagingInvariant.content_of_matches (hI : StagingInvariant w) {row : PendingAction}
    (hrow : row ∈ w.table.rows) (hmatches : command.Matches row)
    (hcollision : CollisionFree env (canonicalPayload env row.payload)
      (canonicalPayload env command.staged.canonical)) :
    row.payload = command.staged.canonical := by
  obtain ⟨staged, huntouched⟩ := hI.stored row hrow
  have htext := hcollision (by
    rw [huntouched.payload]
    exact huntouched.payloadHash.symm.trans hmatches.2)
  rw [huntouched.payload] at htext ⊢
  exact (canonical_eq_of_text command.staged.accepted staged.accepted htext).2

/-- **The stored row settles every call for its key.** -/
theorem verdict_of_ended (hI : StagingInvariant w) (hA : ArbitratedInvariant w)
    (hn : w.calls n = some ⟨command, phase⟩) (hended : phase.ended = true) {row : PendingAction}
    (hrow : row ∈ w.table.rows) (hkey : row.commandId = command.id) :
    (∃ row', phase = .returned row' ∧ row'.id = row.id ∧ command.Matches row) ∨
      phase = .conflict ∧ ¬command.Matches row ∨ phase = .aborted := by
  have hsound := hI.calls n _ hn
  cases phase with
  | returned row' =>
    obtain ⟨hkey', hmatches, stored, hstored, hsame⟩ := hsound
    obtain rfl := w.table.eq_of_commandId hstored hrow
      (hsame.commandId.trans (hkey'.trans hkey.symm))
    exact Or.inl ⟨row', rfl, hsame.id.symm, hsame.matches_iff.mpr hmatches⟩
  | conflict =>
    obtain ⟨stored, hstored, hkey', hdiffers⟩ := hsound
    obtain rfl := w.table.eq_of_commandId hstored hrow (hkey'.trans hkey.symm)
    exact Or.inr (Or.inl ⟨rfl, hdiffers⟩)
  | integrityError => exact (hA n _ hn).elim
  | aborted => exact Or.inr (Or.inr rfl)
  | _ => cases hended

theorem ArbitratedInvariant.run (hI : ArbitratedInvariant w)
    (h : System.Run (staging env) FreshIds w tr w') : ArbitratedInvariant w' :=
  h.invariant hI fun _ _ _ _ hI hfresh hs ↦ hI.step hfresh (stagingEffect_of_step hs)

theorem arbitratedInvariant_init (h : (staging env).init w) : ArbitratedInvariant w := by
  intro n call hn
  rw [h.2 n] at hn
  cases hn

/-- The call has inserted a row, or has been cut off since. -/
def CreatePhase.hasInserted : CreatePhase → Bool
  | refreshing _ | returned _ | aborted => true
  | lookingUp | inserting | lookingAgain | conflict | integrityError => false

theorem PhaseMove.hasInserted (h : PhaseMove command t id phase phase')
    (hphase : phase.hasInserted = true) : phase'.hasInserted = true := by
  cases h with
  | settled looking => rcases looking with rfl | rfl <;> cases hphase
  | refreshed => rfl
  | lost => rfl
  | aborted => rfl
  | _ => cases hphase

theorem StagingEffect.hasInserted (h : StagingEffect w a w')
    (hw : ∃ call, w.calls n = some call ∧ call.phase.hasInserted = true) :
    ∃ call, w'.calls n = some call ∧ call.phase.hasInserted = true := by
  obtain ⟨call, hn, hphase⟩ := hw
  cases h with
  | refused => exact ⟨call, hn, hphase⟩
  | begun m request free =>
    by_cases hmn : n = m
    · subst hmn
      rw [hn] at free
      cases free
    · exact ⟨call, (w.setCall_of_ne hmn _).trans hn, hphase⟩
  | @moved _ m drawn command phase phase' own current move =>
    by_cases hmn : n = m
    · subst hmn
      obtain rfl := Option.some.inj (hn.symm.trans current)
      exact ⟨_, w.setCall_self n _, move.hasInserted hphase⟩
    · exact ⟨call, (w.setCall_of_ne hmn _).trans hn, hphase⟩
  | @inserted m id clock command t current insert =>
    by_cases hmn : n = m
    · subst hmn
      exact ⟨_, StagingWorld.setCall_self _ n _, rfl⟩
    · exact ⟨call, (StagingWorld.setCall_of_ne _ hmn _).trans hn, hphase⟩
  | transacted => exact ⟨call, hn, hphase⟩

/-- The call that a step belongs to. -/
def StagingStep.call? : StagingStep → Option ℕ
  | create n _ | advance n _ _ | abort n => some n
  | transact _ _ => none

/-- The only step of a call that changes the table inserts its row. -/
theorem StagingEffect.table_eq_or (h : StagingEffect w a w') (ha : a.call? = some n) :
    w'.table = w.table ∨ ∃ call, w'.calls n = some call ∧ call.phase.hasInserted = true := by
  cases h with
  | inserted m id clock current insert =>
    obtain rfl := Option.some.inj ha
    exact Or.inr ⟨_, StagingWorld.setCall_self _ m _, rfl⟩
  | transacted => cases ha
  | _ => exact Or.inl rfl

/-- A call that has not ended is never in the way of itself. -/
theorem exists_step_of_active (w : StagingWorld env) (hn : w.calls n = some ⟨command, phase⟩)
    (hactive : phase.ended = false) (id : ActionId) (clock : Clock) :
    ∃ w', w.step (.advance n id clock) = some (w', ()) := by
  have hphase : ∃ next, phase.step command w.table id clock = some next := by
    cases phase with
    | lookingUp =>
      simp only [CreatePhase.step]
      split
      · exact ⟨_, rfl⟩
      · exact ⟨_, rfl⟩
    | inserting =>
      simp only [CreatePhase.step]
      split
      · exact ⟨_, rfl⟩
      · exact ⟨_, rfl⟩
    | lookingAgain =>
      simp only [CreatePhase.step]
      split
      · exact ⟨_, rfl⟩
      · exact ⟨_, rfl⟩
    | refreshing id' =>
      simp only [CreatePhase.step]
      split
      · exact ⟨_, rfl⟩
      · exact ⟨_, rfl⟩
    | _ => cases hactive
  obtain ⟨⟨t, phase'⟩, hstep⟩ := hphase
  simp only [StagingWorld.step, hn, hstep]
  exact ⟨_, rfl⟩

end

/-! ## Deduplication -/

/-- Runs in which every drawn id is a new one. -/
abbrev FreshRun (env : PayloadEnv) := System.Run (staging env) FreshIds

/-- **Staging is deduplicated for each command key.** -/
structure DedupedPerCommandKey (env : PayloadEnv) : Prop where
  /-- There is never more than one row for a user and a key. -/
  oneRow : ∀ w tr w', (staging env).init w → StagingRun env w tr w' →
    ∀ row ∈ w'.table.rows, ∀ row' ∈ w'.table.rows, row.commandId = row'.commandId → row = row'
  /-- And never another one later. -/
  sameRow : ∀ w tr w' tr' w'', (staging env).init w → StagingRun env w tr w' →
    StagingRun env w' tr' w'' → ∀ row ∈ w'.table.rows, ∀ row' ∈ w''.table.rows,
      row.commandId = row'.commandId → SameContent row row'
  /-- Calls for the same user and key return the same action. -/
  sameAction : ∀ w tr w', (staging env).init w → StagingRun env w tr w' →
    ∀ n m command command' row row', w'.calls n = some ⟨command, .returned row⟩ →
      w'.calls m = some ⟨command', .returned row'⟩ → command.id = command'.id → row.id = row'.id
  /-- A call of the stored type and canonical payload ends by returning the stored action. -/
  matching : ∀ w tr w', (staging env).init w → FreshRun env w tr w' → ∀ n command phase,
    w'.calls n = some ⟨command, phase⟩ → phase.ended = true → ∀ row ∈ w'.table.rows,
      row.commandId = command.id → row.actionType = command.staged.actionType →
        row.payload = command.staged.canonical →
          (∃ row', phase = .returned row' ∧ row'.id = row.id) ∨ phase = .aborted
  /-- A call of another type or canonical payload ends in a conflict. -/
  differing : ∀ w tr w', (staging env).init w → FreshRun env w tr w' → ∀ n command phase,
    w'.calls n = some ⟨command, phase⟩ → phase.ended = true → ∀ row ∈ w'.table.rows,
      row.commandId = command.id →
        (row.actionType ≠ command.staged.actionType ∨ row.payload ≠ command.staged.canonical) →
          CollisionFree env (canonicalPayload env row.payload)
              (canonicalPayload env command.staged.canonical) →
            phase = .conflict ∨ phase = .aborted
  /-- No step of a call that ends in a conflict changes the table. -/
  changesNothing : ∀ w tr u a v o tr' w', (staging env).init w → StagingRun env w tr u →
    (staging env).step u a = some (v, o) → StagingRun env v tr' w' → ∀ n command,
      a.call? = some n → w'.calls n = some ⟨command, .conflict⟩ → v.table = u.table
  /-- What a run does for one user and key is a run by itself. -/
  apart : ∀ k w tr w', (staging env).init w → FreshRun env w tr w' →
    (staging env).init (w.only k) ∧ ∃ tr', FreshRun env (w.only k) tr' (w'.only k)
  /-- A call that has not ended can take its next step, whatever the others do. -/
  neverBlocked : ∀ w n command phase, w.calls n = some ⟨command, phase⟩ → phase.ended = false →
    ∀ id clock, ∃ w', (staging env).step w (.advance n id clock) = some (w', ())

theorem dedupedPerCommandKey (env : PayloadEnv) : DedupedPerCommandKey env where
  oneRow w tr w' _ _ row hrow row' hrow' hkey := w'.table.eq_of_commandId hrow hrow' hkey
  sameRow w tr w' tr' w'' hinit hrun hrun' row hrow row' hrow' hkey := by
    obtain ⟨hI, -⟩ := (stagingInvariant_init hinit).run hrun
    obtain ⟨later, hlater, hsame⟩ := (hI.run hrun').2 row hrow
    obtain rfl := w''.table.eq_of_commandId hlater hrow' (hsame.commandId.trans hkey)
    exact hsame
  sameAction w tr w' hinit hrun n m command command' row row' hn hm hkey := by
    obtain ⟨hI, -⟩ := (stagingInvariant_init hinit).run hrun
    obtain ⟨hid, -, stored, hstored, hsame⟩ := hI.calls n _ hn
    obtain ⟨hid', -, stored', hstored', hsame'⟩ := hI.calls m _ hm
    have hcommandId : stored.commandId = stored'.commandId := by
      rw [hsame.commandId, hsame'.commandId, hid, hid', hkey]
    obtain rfl := w'.table.eq_of_commandId hstored hstored' hcommandId
    exact hsame.id.symm.trans hsame'.id
  matching w tr w' hinit hrun n command phase hn hended row hrow hkey htype hpayload := by
    obtain ⟨hI, -⟩ := (stagingInvariant_init hinit).run (hrun.weaken fun _ _ _ ↦ trivial)
    have hA := (arbitratedInvariant_init hinit).run hrun
    -- A call that has ended has returned the row, refused it as different, or been aborted.
    rcases verdict_of_ended hI hA hn hended hrow hkey with ⟨row', rfl, hid, -⟩ |
      ⟨rfl, hdiffers⟩ | rfl
    · exact Or.inl ⟨row', rfl, hid⟩
    · exact absurd (hI.matches_of_content hrow htype hpayload) hdiffers
    · exact Or.inr rfl
  differing w tr w' hinit hrun n command phase hn hended row hrow hkey hdiffers hcollision := by
    obtain ⟨hI, -⟩ := (stagingInvariant_init hinit).run (hrun.weaken fun _ _ _ ↦ trivial)
    have hA := (arbitratedInvariant_init hinit).run hrun
    rcases verdict_of_ended hI hA hn hended hrow hkey with ⟨row', rfl, -, hmatches⟩ |
      ⟨rfl, -⟩ | rfl
    · rcases hdiffers with htype | hpayload
      · exact absurd hmatches.1 htype
      · exact absurd (hI.content_of_matches hrow hmatches hcollision) hpayload
    · exact Or.inl rfl
    · exact Or.inr rfl
  changesNothing w tr u a v o tr' w' hinit _ hs hrun' n command ha hn := by
    rcases (stagingEffect_of_step hs).table_eq_or ha with htable | hinserted
    · exact htable
    -- A call that has inserted a row does not end in a conflict.
    · obtain ⟨call, hcall, hphase⟩ := hrun'.invariant hinserted
        fun _ _ _ _ h _ hs ↦ (stagingEffect_of_step hs).hasInserted h
      obtain rfl := Option.some.inj (hcall.symm.trans hn)
      cases hphase
  apart k w tr w' hinit hrun := by
    obtain ⟨x, hx, hI, rfl⟩ := (simulation_only env k).init w hinit
    obtain ⟨y, tr', hfollow, -, rfl⟩ := (simulation_only env k).follow hrun ⟨hI, rfl⟩
    exact ⟨hx, tr', hfollow⟩
  neverBlocked w n command phase hn hactive id clock := exists_step_of_active w hn hactive id clock

end Onebox.PendingActions
