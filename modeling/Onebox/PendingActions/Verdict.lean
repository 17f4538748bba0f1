import Onebox.PendingActions.Fence

/-!
# What `failed` means

An action becomes `failed` in three ways: its approval fails before it dispatches, the provider
rejects the write, or a reconciliation finds nothing. The first two are conclusive. The third
reports the moment of the lookup: a write that is still to be issued, a thread that a caller has
given up on, or a write from before the migration, which carries no marker, can all be missing
from it.
-/

namespace Onebox.PendingActions

open Python Transition

/-! ## Conclusive states -/

/-- Nothing has been accepted, and nothing can be any more. -/
structure Conclusive (w : World) : Prop where
  notPending : w.row.status ≠ .pending
  accepted : w.accepted = false
  legacyAccepted : w.legacyAccepted = false
  writes : ∀ n approval, w.approvals n = some approval → approval.canWrite = false

/-- The thread has ended with an answer that makes the action `failed`. -/
def CallResult.fails (actionType : ActionType) : CallResult → Bool
  | .confirmedFailure _ => true
  | .raised e => refuses actionType e
  | .returned _ | .ambiguous _ => false

theorem fails_of_writeOutcome {actionType : ActionType} {payload : Json} {result : CallResult}
    (htype : ∀ name, actionType ≠ .other name)
    (h : (executeClaimedAction (writeOutcome actionType payload result)).status = .failed) :
    result.fails actionType = true := by
  have hconfirm : ∀ code resource build,
      (executeClaimedAction (confirmResource code resource build)).status ≠ .failed := by
    intro code resource build
    rw [confirmResource]
    split
    · split
      · split
        · exact fun h ↦ by cases h
        · split <;> exact fun h ↦ by cases h
      · exact fun h ↦ by cases h
    · exact fun h ↦ by cases h
  cases result with
  | confirmedFailure => rfl
  | ambiguous => cases h
  | raised e =>
    cases e with
    | other => cases h
    | rejected statusCode =>
      by_cases hconflict : actionType = .createEvent ∧ statusCode = some 409
      · simp only [writeOutcome, if_pos hconflict] at h
        cases h
      · change refuses actionType (.rejected statusCode) = true
        simpa [refuses, imp_iff_not_or] using hconflict
  | returned value =>
    cases actionType with
    | other name => exact absurd rfl (htype name)
    | createTask => cases h
    | _ => exact absurd h (hconfirm _ _ _)

/-- The invariant of an approval, next to whether the write has been accepted. -/
structure AttemptInvariant (accepted : Bool) (approval : Approval) : Prop where
  /-- A thread belongs to a submitted operation. -/
  submitted : approval.phase.beforeSubmit = true → approval.thread = .notStarted
  supported : approval.thread ≠ .notStarted → ∀ name, approval.action.actionType ≠ .other name
  /-- Only a write that was issued is accepted. -/
  issued : approval.beforeWrite = true → accepted = false
  /-- A thread that fails the action has not had its write accepted. -/
  failing : ∀ result, approval.thread = .exited result →
    result.fails approval.action.actionType = true → accepted = false
  /-- A failing finalization is conclusive. -/
  finalizing : ∀ args, approval.phase = .finalizing args → args.status = .failed →
    approval.canWrite = false ∧ accepted = false

section

variable {rules : PayloadRules} {accepted : Bool} {approval approval' : Approval}

theorem supported_of_beforeOperation {action : PendingAction}
    (h : beforeOperation rules action = none) (name : String) :
    action.actionType ≠ .other name := by
  intro htype
  rw [beforeOperation] at h
  split at h
  · cases h
  · rw [htype] at h
    cases h

theorem startThread_ne_exited (actionType : ActionType) (result : CallResult) :
    startThread actionType ≠ .exited result := by
  unfold startThread
  split <;> exact fun h ↦ by cases h

theorem callResult_fails {actionType : ActionType} {taskListId : Json}
    {answer : Except GoogleError Json}
    (h : (callResult actionType taskListId answer).fails actionType = true) :
    ∃ e, answer = .error e ∧ refuses actionType e = true := by
  cases answer with
  | error e => exact ⟨e, rfl, h⟩
  | ok resource =>
    exfalso
    cases actionType with
    | createTask =>
      simp only [callResult, taskInserted] at h
      split at h
      · split at h
        · split at h
          · cases h
          · split at h <;> cases h
        · cases h
      · cases h
    | _ => cases h

/-- A started thread belongs to a submitted operation. -/
theorem AttemptInvariant.notBeforeSubmit (hI : AttemptInvariant accepted approval)
    (h : approval.thread ≠ .notStarted) : approval.phase.beforeSubmit = false := by
  by_contra hno
  exact h (hI.submitted (Bool.not_eq_false _ ▸ hno))

theorem beforeWrite_of_phase (h : approval.phase.beforeSubmit = true) :
    approval.beforeWrite = true := by
  rw [Approval.beforeWrite, h, Bool.true_or]

theorem beforeWrite_of_thread (h : approval.thread.beforeWrite = true) :
    approval.beforeWrite = true := by
  rw [Approval.beforeWrite, h, Bool.or_true]

/-- An approval past its submission writes no more once its thread is idle. -/
theorem canWrite_eq_false (hphase : approval.phase.beforeSubmit = false)
    (hthread : approval.thread.beforeWrite = false ∧ approval.thread.isWriting = false) :
    approval.canWrite = false := by
  rw [Approval.canWrite, Approval.beforeWrite, hphase, hthread.1, hthread.2]
  rfl

/-- The step lemma for one approval. -/
theorem AttemptInvariant.attempt (hI : AttemptInvariant accepted approval)
    (h : AttemptEffect rules accepted approval approval') :
    AttemptInvariant accepted approval' := by
  have hissued : approval'.beforeWrite = true → accepted = false := by
    intro hbefore
    refine hI.issued ?_
    by_contra hno
    rw [h.beforeWrite (Bool.eq_false_iff.mpr hno)] at hbefore
    cases hbefore
  cases h with
  | servicesReady phase =>
    have hthread := hI.submitted (by rw [phase]; rfl)
    exact ⟨fun _ ↦ hthread, hI.supported, hissued, hI.failing, (by rintro _ ⟨⟩)⟩
  | servicesFail code phase =>
    have hphase : approval.phase.beforeSubmit = true := by rw [phase]; rfl
    have hthread := hI.submitted hphase
    refine ⟨(by rintro ⟨⟩), hI.supported, hissued, hI.failing, fun args _ _ ↦ ⟨?_, ?_⟩⟩
    · exact canWrite_eq_false rfl (by rw [hthread]; exact ⟨rfl, rfl⟩)
    · exact hI.issued (beforeWrite_of_phase hphase)
  | executeEnds outcome phase =>
    have hphase : approval.phase.beforeSubmit = true := by rw [phase]; rfl
    have hthread := hI.submitted hphase
    refine ⟨(by rintro ⟨⟩), hI.supported, hissued, hI.failing, fun args _ _ ↦ ⟨?_, ?_⟩⟩
    · exact canWrite_eq_false rfl (by rw [hthread]; exact ⟨rfl, rfl⟩)
    · exact hI.issued (beforeWrite_of_phase hphase)
  | submit phase operation =>
    refine ⟨(by rintro ⟨⟩), fun _ ↦ supported_of_beforeOperation operation, hissued, ?_,
      (by rintro _ ⟨⟩)⟩
    exact fun result hexited ↦ absurd hexited (startThread_ne_exited _ result)
  | listingEnds result thread =>
    have hstarted : approval.thread ≠ .notStarted := by rw [thread]; rintro ⟨⟩
    have hbefore : approval.beforeWrite = true := beforeWrite_of_thread (by rw [thread]; rfl)
    refine ⟨fun hphase ↦ ?_, fun _ ↦ hI.supported hstarted, hissued,
      fun _ _ _ ↦ hI.issued hbefore, fun args hargs hfailed ↦ ?_⟩
    · rw [hI.notBeforeSubmit hstarted] at hphase
      cases hphase
    · have hno := (hI.finalizing args hargs hfailed).1
      rw [Approval.canWrite, hbefore] at hno
      cases hno
  | listed taskListId thread =>
    have hstarted : approval.thread ≠ .notStarted := by rw [thread]; rintro ⟨⟩
    have hbefore : approval.beforeWrite = true := beforeWrite_of_thread (by rw [thread]; rfl)
    refine ⟨fun hphase ↦ ?_, fun _ ↦ hI.supported hstarted, hissued, (by rintro _ ⟨⟩),
      fun args hargs hfailed ↦ ?_⟩
    · rw [hI.notBeforeSubmit hstarted] at hphase
      cases hphase
    · have hno := (hI.finalizing args hargs hfailed).1
      rw [Approval.canWrite, hbefore] at hno
      cases hno
  | threadExits taskListId answer thread honest =>
    have hstarted : approval.thread ≠ .notStarted := by rw [thread]; rintro ⟨⟩
    refine ⟨fun hphase ↦ ?_, fun _ ↦ hI.supported hstarted, hissued,
      fun result hexited hfails ↦ ?_, fun args hargs hfailed ↦ ?_⟩
    · rw [hI.notBeforeSubmit hstarted] at hphase
      cases hphase
    · cases hexited
      obtain ⟨e, he, hrefuses⟩ := callResult_fails hfails
      by_contra haccepted
      rw [honest e he (Bool.not_eq_false _ ▸ haccepted)] at hrefuses
      cases hrefuses
    · have hno := (hI.finalizing args hargs hfailed).1
      rw [Approval.canWrite, thread, ProviderThread.isWriting, Bool.or_true] at hno
      cases hno
  | callReturns payload result phase thread =>
    have hstarted : approval.thread ≠ .notStarted := by rw [thread]; rintro ⟨⟩
    refine ⟨(by rintro ⟨⟩), hI.supported, hissued, hI.failing, fun args hargs hfailed ↦ ⟨?_, ?_⟩⟩
    · exact canWrite_eq_false rfl (by rw [thread]; exact ⟨rfl, rfl⟩)
    · cases hargs
      exact hI.failing result thread (fails_of_writeOutcome (hI.supported hstarted) hfailed)
  | callTimesOut phase =>
    refine ⟨(by rintro ⟨⟩), hI.supported, hissued, hI.failing, fun args hargs hfailed ↦ ?_⟩
    cases hargs
    cases hfailed
  | abandon => exact ⟨(by rintro ⟨⟩), hI.supported, hissued, hI.failing, (by rintro _ ⟨⟩)⟩

end

/-! ## The steps into `failed` -/

theorem finalizeClaimedAction_failed {clock : Clock} {token : String} {args : FinalizeArgs}
    {row : PendingAction}
    (h : (finalizeClaimedAction clock token args row).row.status = .failed) :
    row.status = .failed ∨ args.status = .failed := by
  rw [finalizeClaimedAction] at h
  split at h
  · split at h
    · cases h
    · split at h
      · cases h
      · cases h
      · rename_i hargs
        exact Or.inr hargs
  · exact Or.inl h

theorem reconcileFinish_failed {clock : Clock} {userId : UserId} {outcome : ReconciliationResult}
    {row : PendingAction} (h : (reconcileFinish clock userId outcome row).row.status = .failed) :
    row.status = .failed ∨ outcome.status = .failed := by
  rw [reconcileFinish] at h
  split at h
  · rename_i hstatus
    dsimp only at h
    split at h
    · cases h
    · rename_i houtcome
      exact Or.inr houtcome
    · rw [hstatus] at h
      cases h
  · exact Or.inl h

section

variable {env : HandlerEnv} {w w' : World} {e : Event}

/-- An action is made `failed` by a failing finalization or by a failing verdict. -/
theorem StepEffect.failed (h : StepEffect env w e w') (hfailed : w'.row.status = .failed) :
    w.row.status = .failed ∨
      (∃ n approval args, w.approvals n = some approval ∧ approval.phase = .finalizing args ∧
        args.status = .failed) ∨
      ∃ m outcome, w.reconcilers m = some (.finishing outcome) ∧ outcome.status = .failed := by
  cases h with
  | claimRefused n userId token clock effect =>
    cases effect with
    | kept => exact Or.inl hfailed
    | lost _ _ status' => exact absurd (status'.symm.trans hfailed) (by decide)
    | expired _ _ status' => exact absurd (status'.symm.trans hfailed) (by decide)
    | mismatch _ _ status' => exact absurd (status'.symm.trans hfailed) (by decide)
  | claimGranted => cases hfailed
  | finalize n clock current phase =>
    rcases finalizeClaimedAction_failed hfailed with hrow | hargs
    · exact Or.inl hrow
    · exact Or.inr (Or.inl ⟨n, _, _, current, phase, hargs⟩)
  | resolved e status status' =>
    rcases status' with hstatus | hstatus
    · exact absurd (hstatus.symm.trans hfailed) (by decide)
    · exact absurd (hstatus.symm.trans hfailed) (by decide)
  | promoted m operatorUserId clock status lease status' =>
    exact absurd (status'.symm.trans hfailed) (by decide)
  | reconcileFinish m operatorUserId clock current =>
    rcases reconcileFinish_failed hfailed with hrow | houtcome
    · exact Or.inl hrow
    · exact Or.inr (Or.inr ⟨m, _, current, houtcome⟩)
  | _ => exact Or.inl hfailed

/-- **A conclusive state stays conclusive.** -/
theorem Conclusive.step (hI : Conclusive w) (h : StepEffect env w e w') : Conclusive w' := by
  have hpending := h.rowStep.ne_pending hI.notPending
  cases h with
  | claimGranted n userId token clock free status => exact absurd status hI.notPending
  | attempt n attemptStep current effect =>
    refine ⟨hpending, hI.accepted, hI.legacyAccepted, fun m approval hm ↦ ?_⟩
    rcases World.setApproval_cases hm with ⟨-, rfl⟩ | ⟨-, hm⟩
    · exact effect.canWrite (hI.writes n _ current)
    · exact hI.writes m approval hm
  | @issueWrite n now issuing taskListId current thread =>
    have hno := hI.writes n issuing current
    rw [Approval.canWrite, beforeWrite_of_ready thread] at hno
    cases hno
  | @accept n writing taskListId current thread =>
    have hno := hI.writes n writing current
    rw [Approval.canWrite, thread, ProviderThread.isWriting, Bool.or_true] at hno
    cases hno
  | @finalize n clock approval args token current phase =>
    refine ⟨hpending, hI.accepted, hI.legacyAccepted, fun m other hm ↦ ?_⟩
    rcases World.setApproval_cases hm with ⟨-, rfl⟩ | ⟨-, hm⟩
    · have hold : approval.canWrite = false := hI.writes n approval current
      exact @AttemptEffect.canWrite env.rules w.accepted approval _ .abandon hold
    · exact hI.writes m other hm
  | _ => exact ⟨hpending, hI.accepted, hI.legacyAccepted, hI.writes⟩

/-! ## The invariant of a run -/

/-- A lookup that finds nothing comes when no write can be accepted any more, and no write from
before the migration has been. -/
def LookupsConclude (w : World) (e : Event) : Prop :=
  ∀ m answers action, e = .lookup m answers → w.reconcilers m = some (.lookingUp action) →
    answers.denies action.actionType = true →
    w.legacyAccepted = false ∧
      ∀ n approval, w.approvals n = some approval → approval.canWrite = false

structure VerdictInvariant (w : World) : Prop where
  owned : Owned w
  attempts : ∀ n approval, w.approvals n = some approval →
    AttemptInvariant w.accepted approval ∧ w.legacyAccepted = false
  pending : w.row.status = .pending → w.accepted = false ∧ w.legacyAccepted = false
  reconciling : ∀ m reconciler, w.reconcilers m = some reconciler → w.row.status ≠ .pending
  /-- A failing verdict is conclusive, also before it is written. -/
  verdict : ∀ m outcome, w.reconcilers m = some (.finishing outcome) → outcome.status = .failed →
    Conclusive w
  failed : w.row.status = .failed → Conclusive w

theorem verdictInvariant_of_init (h : (dispatcher env).init w) : VerdictInvariant w := by
  have howned := owned_of_init h
  obtain ⟨hrow, haccepted, happrovals, hreconcilers⟩ := h
  refine ⟨howned, fun n approval hn ↦ ?_, fun hpending ↦ ⟨haccepted, ?_⟩, fun m reconciler hm ↦ ?_,
    fun m outcome hm ↦ ?_, fun hfailed ↦ ?_⟩
  · rw [happrovals n] at hn
    cases hn
  · rcases hrow with hrow | hrow
    · exact hrow.legacyAccepted
    · exact absurd (hrow.status.symm.trans hpending) (by decide)
  · rw [hreconcilers m] at hm
    cases hm
  · rw [hreconcilers m] at hm
    cases hm
  · rcases hrow with hrow | hrow
    · exact absurd (hrow.status.symm.trans hfailed) (by decide)
    · exact absurd (hrow.status.symm.trans hfailed) (by decide)

/-- A failing finalization is conclusive. -/
theorem VerdictInvariant.conclusive (hI : VerdictInvariant w) {n : ℕ} {approval : Approval}
    {args : FinalizeArgs} (hn : w.approvals n = some approval)
    (hphase : approval.phase = .finalizing args) (hfailed : args.status = .failed) :
    Conclusive w := by
  obtain ⟨hattempt, hlegacy⟩ := hI.attempts n approval hn
  obtain ⟨hwrite, haccepted⟩ := hattempt.finalizing args hphase hfailed
  refine ⟨hI.owned.notPending n approval hn, haccepted, hlegacy, fun m other hm ↦ ?_⟩
  obtain rfl := hI.owned.unique m n other approval hm hn
  rw [hn] at hm
  cases hm
  exact hwrite

/-- The part of the step lemma about the approvals. -/
theorem VerdictInvariant.step_attempts (hI : VerdictInvariant w) (h : StepEffect env w e w')
    {n : ℕ} {approval' : Approval} (hn : w'.approvals n = some approval') :
    AttemptInvariant w'.accepted approval' ∧ w'.legacyAccepted = false := by
  cases h with
  | claimGranted k userId token clock free status =>
    obtain ⟨haccepted, hlegacy⟩ := hI.pending status
    rcases World.setApproval_cases hn with ⟨-, rfl⟩ | ⟨-, hn⟩
    · exact ⟨⟨fun _ ↦ rfl, fun hne ↦ absurd rfl hne, fun _ ↦ haccepted, (by rintro _ ⟨⟩),
        (by rintro _ ⟨⟩)⟩, hlegacy⟩
    · exact hI.attempts n approval' hn
  | attempt k attemptStep current effect =>
    rcases World.setApproval_cases hn with ⟨-, rfl⟩ | ⟨-, hn⟩
    · obtain ⟨hattempt, hlegacy⟩ := hI.attempts k _ current
      exact ⟨hattempt.attempt effect, hlegacy⟩
    · exact hI.attempts n approval' hn
  | @issueWrite k now issuing taskListId current thread =>
    rcases World.setApproval_cases hn with ⟨-, rfl⟩ | ⟨-, hn⟩
    · obtain ⟨hattempt, hlegacy⟩ := hI.attempts k issuing current
      have hstarted : issuing.thread ≠ .notStarted := by rw [thread]; rintro ⟨⟩
      have hbefore := beforeWrite_of_ready thread
      refine ⟨⟨fun hphase ↦ ?_, fun _ ↦ hattempt.supported hstarted,
        fun _ ↦ hattempt.issued hbefore, (by rintro _ ⟨⟩), fun args hargs hfailed ↦ ?_⟩, hlegacy⟩
      · rw [hattempt.notBeforeSubmit hstarted] at hphase
        cases hphase
      · have hno := (hattempt.finalizing args hargs hfailed).1
        rw [Approval.canWrite, hbefore] at hno
        cases hno
    · exact hI.attempts n approval' hn
  | @accept k writing taskListId current thread =>
    -- There is one attempt at most, and it is the one whose write is accepted.
    obtain rfl := hI.owned.unique n k approval' writing hn current
    obtain rfl : writing = approval' := by rw [current] at hn; exact Option.some.inj hn
    obtain ⟨hattempt, hlegacy⟩ := hI.attempts n writing current
    have hstarted : writing.thread ≠ .notStarted := by rw [thread]; rintro ⟨⟩
    refine ⟨⟨hattempt.submitted, hattempt.supported, fun hbefore ↦ ?_, fun result hexited ↦ ?_,
      fun args hargs hfailed ↦ ?_⟩, hlegacy⟩
    · rw [Approval.beforeWrite, hattempt.notBeforeSubmit hstarted, thread] at hbefore
      cases hbefore
    · rw [thread] at hexited
      cases hexited
    · have hno := (hattempt.finalizing args hargs hfailed).1
      rw [Approval.canWrite, thread, ProviderThread.isWriting, Bool.or_true] at hno
      cases hno
  | @finalize k clock approval args token current phase =>
    rcases World.setApproval_cases hn with ⟨-, rfl⟩ | ⟨-, hn⟩
    · obtain ⟨hattempt, hlegacy⟩ := hI.attempts k approval current
      exact ⟨hattempt.attempt (@AttemptEffect.abandon env.rules _ _), hlegacy⟩
    · exact hI.attempts n approval' hn
  | _ => exact hI.attempts n approval' hn

/-- **The step lemma.** -/
theorem VerdictInvariant.step (hI : VerdictInvariant w) (hC : LookupsConclude w e)
    (h : StepEffect env w e w') : VerdictInvariant w' := by
  have hpending : w'.row.status = .pending → w.row.status = .pending := by
    intro hpending
    by_contra hne
    exact h.rowStep.ne_pending hne hpending
  -- A row that has left `pending` does not come back, so what holds of pending rows is kept.
  refine ⟨hI.owned.step h, fun n approval hn ↦ hI.step_attempts h hn, fun hp ↦ ?_,
    fun m reconciler hm ↦ ?_, fun m outcome hm houtcome ↦ ?_, fun hfailed ↦ ?_⟩
  · have hstay := hI.pending (hpending hp)
    cases h with
    | accept n current thread => exact absurd (hpending hp) (hI.owned.notPending n _ current)
    | _ => exact hstay
  · have hold : ∀ m reconciler, w.reconcilers m = some reconciler → w'.row.status ≠ .pending :=
      fun m reconciler hm hp ↦ hI.reconciling m reconciler hm (hpending hp)
    cases h with
    | promoted k operatorUserId clock status lease status' =>
      rw [World.setReconciler_row, World.setRow_row, status']
      decide
    | reconcileKept k operatorUserId clock status =>
      rw [World.setReconciler_row, status]
      decide
    | lookup k answers current => exact hold k _ current
    | reconcileFinish k operatorUserId clock current => exact hold k _ current
    | _ => exact hold m reconciler hm
  · refine Conclusive.step ?_ h
    cases h with
    | promoted k operatorUserId clock status =>
      rcases World.setReconciler_cases hm with ⟨-, hlooking⟩ | ⟨-, hm⟩
      · cases hlooking
      · exact hI.verdict m outcome hm houtcome
    | reconcileKept k operatorUserId clock status =>
      rcases World.setReconciler_cases hm with ⟨-, hlooking⟩ | ⟨-, hm⟩
      · cases hlooking
      · exact hI.verdict m outcome hm houtcome
    | @lookup k answers action current sees =>
      rcases World.setReconciler_cases hm with ⟨-, hfinishing⟩ | ⟨-, hm⟩
      · cases hfinishing
        have hdenies := denies_of_reconcileAction houtcome
        obtain ⟨hlegacy, hwrites⟩ := hC k answers action rfl current hdenies
        refine ⟨hI.reconciling k _ current, ?_, hlegacy, hwrites⟩
        -- The provider does not deny a write that it has accepted.
        by_contra haccepted
        rw [World.sees, if_pos (Bool.not_eq_false _ ▸ haccepted), hdenies] at sees
        cases sees
      · exact hI.verdict m outcome hm houtcome
    | reconcileFinish k operatorUserId clock current =>
      rcases World.setReconciler_cases hm with ⟨-, hdone⟩ | ⟨-, hm⟩
      · cases hdone
      · exact hI.verdict m outcome hm houtcome
    | _ => exact hI.verdict m outcome hm houtcome
  · refine Conclusive.step ?_ h
    rcases h.failed hfailed with
      hrow | ⟨n, approval, args, hn, hphase, hargs⟩ | ⟨m, outcome, hm, ho⟩
    · exact hI.failed hrow
    · exact hI.conclusive hn hphase hargs
    · exact hI.verdict m outcome hm ho

end

/-! ## `failed` means never accepted -/

/-- In every run whose steps meet `C`, a write of a `failed` action has not been accepted, and is
not accepted later in the run. -/
def FailedNeverAccepted (env : HandlerEnv) (C : World → Event → Prop) : Prop :=
  ∀ s t u tr tr', (dispatcher env).init s → System.Run (dispatcher env) C s tr t →
    t.row.status = .failed → System.Run (dispatcher env) C t tr' u →
    u.accepted = false ∧ u.legacyAccepted = false

/-- **Where lookups conclude, `failed` is final at the provider too.** -/
theorem failedNeverAccepted_of_lookupsConclude (env : HandlerEnv) :
    FailedNeverAccepted env LookupsConclude := by
  intro s t u tr tr' hinit hrun hfailed hrun'
  have hI : VerdictInvariant t :=
    hrun.invariant (verdictInvariant_of_init hinit)
      fun w e w' o hI hC hs ↦ hI.step hC (stepEffect_of_step hs)
  have hconclusive : Conclusive u :=
    hrun'.invariant (hI.failed hfailed)
      fun w e w' o hI _ hs ↦ hI.step (stepEffect_of_step hs)
  exact ⟨hconclusive.accepted, hconclusive.legacyAccepted⟩

/-! ### A thread that outlives its caller -/

/-- A search without a match. -/
def emptySearch : LookupAnswers where
  service := true
  search := [.ok ⟨[], none⟩]
  message := .error .other
  event := .error .other
  tasklists := .error .other

/-- The caller of the write times out, and an operator looks while the thread is still running. -/
def detachedSchedule : List Event :=
  [.approve 0 7 "attempt" fun _ ↦ 0, .attempt 0 .servicesReady, .attempt 0 .submit,
    .issueWrite 0 0, .attempt 0 .callTimesOut, .finalize 0 fun _ ↦ 1,
    .reconcileBegin 0 9 fun _ ↦ 2, .lookup 0 emptySearch, .reconcileFinish 0 9 fun _ ↦ 3]

/-- **A lookup is no proof**: the write can be accepted after it. -/
theorem not_failedNeverAccepted : ¬FailedNeverAccepted emailEnv System.anyStep := by
  intro h
  have hreplay : (dispatcher emailEnv).replay stagedEmail detachedSchedule = some (_, _) := rfl
  have hrun := System.run_of_replay hreplay
  have hlater := h _ _ _ _ _ stagedEmail_init hrun rfl
    (System.Run.single (a := .accept 0) trivial rfl)
  exact absurd hlater.1 (by decide)

end Onebox.PendingActions
