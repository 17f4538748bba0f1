import Onebox.PendingActions.Handlers
import Onebox.PendingActions.Lifecycle

/-!
# Approving, dispatching, reconciling

One action, with everything that works on it: the approval requests (each a claim, the wait for
credentials and a service, and one provider operation on a thread that outlives a caller's
timeout), the operators' reconciliations (a promotion, a lookup, a verdict), rejections and sweeps,
and the provider, which may accept a write at any moment while its thread is in `execute()`.

The steps are those between two awaits, in any order; nothing is assumed about the clock.
-/

namespace Onebox.PendingActions

open Python Transition

/-! ## One approval request -/

/-- The thread of a provider operation. -/
inductive ProviderThread
  | notStarted
  /-- `_create_task_sync` is reading the task lists. -/
  | listing
  /-- The write comes next; a task goes to the given list. -/
  | ready (taskListId : Json)
  /-- The write is in `execute()`. -/
  | writing (taskListId : Json)
  | exited (result : CallResult)

/-- The request itself, after a granted claim. -/
inductive ApprovalPhase
  /-- In `_action_provider_services`. -/
  | resolvingServices
  /-- In `execute_action`, before the provider operation is submitted. -/
  | executing
  /-- Waiting for the provider operation. -/
  | awaiting
  /-- About to run `_finalize_claimed_action`. -/
  | finalizing (args : FinalizeArgs)
  | done

/-- An approval that was granted, with the action as its claim returned it. -/
structure Approval where
  action : PendingAction
  phase : ApprovalPhase
  thread : ProviderThread

/-- The steps of an approval that touch nothing else. -/
inductive AttemptStep
  | servicesReady
  /-- `_action_provider_services` raises an `HTTPException`. -/
  | servicesFail (statusCode : ℕ)
  | executeEnds (early : EarlyEnd)
  | submit
  | tasklistsListed (answer : Except GoogleError (List Json × Json))
  | threadExits (answer : Except GoogleError Json)
  | callReturns
  /-- The deadline of the call passes; the thread goes on by itself. -/
  | callTimesOut
  /-- The request is cancelled or its process dies. -/
  | abandon

/-- The thread of a submitted operation. -/
def startThread (actionType : ActionType) : ProviderThread :=
  match actionType with
  | .createTask => .listing
  | _ => .ready .null

/-- What `execute()` of the approved write answers once the task list is known. -/
def callResult (actionType : ActionType) (taskListId : Json) : Except GoogleError Json → CallResult
  | .error e => .raised e
  | .ok resource =>
    match actionType with
    | .createTask => taskInserted taskListId resource
    | _ => .returned resource

/-- A provider that rejects a write has not accepted it, a conflict on an event id apart. -/
def refuses (actionType : ActionType) : GoogleError → Bool
  | .rejected statusCode => !(actionType = .createEvent && statusCode = some 409)
  | .other => false

/-- One step of an approval. `accepted` says whether the provider has accepted the write by now,
which decides the answers it can give. -/
def Approval.step (rules : PayloadRules) (accepted : Bool) (approval : Approval) :
    AttemptStep → Option Approval
  | .servicesReady =>
    match approval.phase with
    | .resolvingServices => some { approval with phase := .executing }
    | _ => none
  | .servicesFail statusCode =>
    match approval.phase with
    | .resolvingServices =>
      let code :=
        if statusCode = 409 then "google_reconnect_required"
        else "credentials_unavailable_before_dispatch"
      some { approval with phase := .finalizing (preDispatchFailure code) }
    | _ => none
  | .executeEnds early =>
    match approval.phase with
    | .executing =>
      let outcome := (beforeOperation rules approval.action).getD early.outcome
      some { approval with phase := .finalizing (executeClaimedAction outcome) }
    | _ => none
  | .submit =>
    match approval.phase, beforeOperation rules approval.action with
    | .executing, none =>
      some { approval with phase := .awaiting, thread := startThread approval.action.actionType }
    | _, _ => none
  | .tasklistsListed answer =>
    match approval.thread, answer with
    | .listing, .error e => some { approval with thread := .exited (.raised e) }
    | .listing, .ok (tasklists, insertedList) =>
      match selectTaskList tasklists insertedList with
      | .error result => some { approval with thread := .exited result }
      | .ok taskListId => some { approval with thread := .ready taskListId }
    | _, _ => none
  | .threadExits answer =>
    match approval.thread with
    | .writing taskListId =>
      match answer with
      | .ok _ =>
        some { approval with
          thread := .exited (callResult approval.action.actionType taskListId answer) }
      | .error e =>
        if accepted && refuses approval.action.actionType e then none
        else some { approval with
          thread := .exited (callResult approval.action.actionType taskListId answer) }
    | _ => none
  | .callReturns =>
    match approval.phase, approval.thread with
    | .awaiting, .exited result =>
      let outcome := writeOutcome approval.action.actionType
        ((rules.canonicalizeActionPayload approval.action.actionType approval.action.payload).getD
          .null) result
      some { approval with phase := .finalizing (executeClaimedAction outcome) }
    | _, _ => none
  | .callTimesOut =>
    match approval.phase with
    | .awaiting =>
      some { approval with
        phase := .finalizing (executeClaimedAction (.ambiguous "provider_outcome_unknown")) }
    | _ => none
  | .abandon => some { approval with phase := .done }

/-- The provider operation is yet to be submitted. -/
def ApprovalPhase.beforeSubmit : ApprovalPhase → Bool
  | resolvingServices | executing => true
  | awaiting | finalizing _ | done => false

/-- The thread has started, and its write has not. -/
def ProviderThread.beforeWrite : ProviderThread → Bool
  | listing | ready _ => true
  | notStarted | writing _ | exited _ => false

/-- The write is in `execute()`. -/
def ProviderThread.isWriting : ProviderThread → Bool
  | writing _ => true
  | notStarted | listing | ready _ | exited _ => false

/-- The write can still be issued. -/
def Approval.beforeWrite (approval : Approval) : Bool :=
  approval.phase.beforeSubmit || approval.thread.beforeWrite

/-- The write can still be accepted. -/
def Approval.canWrite (approval : Approval) : Bool :=
  approval.beforeWrite || approval.thread.isWriting

/-! ## The system -/

/-- A reconciliation request, with the action as its first transaction returned it. -/
inductive Reconciler
  | lookingUp (action : PendingAction)
  | finishing (outcome : ReconciliationResult)
  | done

/-- One action and all that works on it. -/
structure World where
  row : PendingAction
  approvals : ℕ → Option Approval
  reconcilers : ℕ → Option Reconciler
  /-- The provider has accepted the write that an approval issued. -/
  accepted : Bool
  /-- The provider has accepted a write from before the migration, without the current markers. -/
  legacyAccepted : Bool

/-- The steps of the system. -/
inductive Event
  | approve (n : ℕ) (userId : UserId) (token : String) (clock : Clock)
  | attempt (n : ℕ) (step : AttemptStep)
  | issueWrite (n : ℕ) (now : Time)
  | accept (n : ℕ)
  | finalize (n : ℕ) (clock : Clock)
  | reject (userId : UserId) (clock : Clock)
  | sweep (current : Time)
  | reconcileBegin (m : ℕ) (operatorUserId : UserId) (clock : Clock)
  | lookup (m : ℕ) (answers : LookupAnswers)
  | reconcileFinish (m : ℕ) (operatorUserId : UserId) (clock : Clock)

namespace World

def setRow (w : World) (row : PendingAction) : World := { w with row := row }

def setApproval (w : World) (n : ℕ) (approval : Approval) : World :=
  { w with approvals := Function.update w.approvals n (some approval) }

def setReconciler (w : World) (m : ℕ) (reconciler : Reconciler) : World :=
  { w with reconcilers := Function.update w.reconcilers m (some reconciler) }

@[simp] theorem setRow_row (w : World) (row : PendingAction) : (w.setRow row).row = row := rfl

@[simp] theorem setReconciler_row (w : World) (m : ℕ) (reconciler : Reconciler) :
    (w.setReconciler m reconciler).row = w.row := rfl

theorem setApproval_self (w : World) (n : ℕ) (approval : Approval) :
    (w.setApproval n approval).approvals n = some approval := Function.update_self _ _ _

theorem setApproval_of_ne (w : World) {n m : ℕ} (h : m ≠ n) (approval : Approval) :
    (w.setApproval n approval).approvals m = w.approvals m := Function.update_of_ne h _ _

theorem setApproval_cases {w : World} {n m : ℕ} {approval other : Approval}
    (h : (w.setApproval n approval).approvals m = some other) :
    m = n ∧ other = approval ∨ m ≠ n ∧ w.approvals m = some other := by
  by_cases hmn : m = n
  · subst hmn
    rw [setApproval_self] at h
    exact Or.inl ⟨rfl, (Option.some.inj h).symm⟩
  · rw [setApproval_of_ne w hmn] at h
    exact Or.inr ⟨hmn, h⟩

theorem setReconciler_self (w : World) (n : ℕ) (reconciler : Reconciler) :
    (w.setReconciler n reconciler).reconcilers n = some reconciler := Function.update_self _ _ _

theorem setReconciler_of_ne (w : World) {n m : ℕ} (h : m ≠ n) (reconciler : Reconciler) :
    (w.setReconciler n reconciler).reconcilers m = w.reconcilers m := Function.update_of_ne h _ _

theorem setReconciler_cases {w : World} {n m : ℕ} {reconciler other : Reconciler}
    (h : (w.setReconciler n reconciler).reconcilers m = some other) :
    m = n ∧ other = reconciler ∨ m ≠ n ∧ w.reconcilers m = some other := by
  by_cases hmn : m = n
  · subst hmn
    rw [setReconciler_self] at h
    exact Or.inl ⟨rfl, (Option.some.inj h).symm⟩
  · rw [setReconciler_of_ne w hmn] at h
    exact Or.inr ⟨hmn, h⟩

/-- A lookup sees exactly the writes accepted so far: it does not deny one, and it shows none that
was not accepted. -/
def sees (w : World) (action : PendingAction) (answers : LookupAnswers) : Bool :=
  if w.accepted then !answers.denies action.actionType else !answers.shows action

/-- One step. -/
def step (env : HandlerEnv) (w : World) : Event → Option (World × Unit)
  | .approve n userId token clock =>
    match w.approvals n, lockedForOwner (some w.row) userId with
    | some _, _ => none
    | none, .error _ => some (w, ())
    | none, .ok row =>
      let result := claimPendingAction env.rules clock token userId row
      let w' := w.setRow result.1.row
      some (if result.2 then w'.setApproval n ⟨result.1.row, .resolvingServices, .notStarted⟩
        else w', ())
  | .attempt n attemptStep =>
    match w.approvals n with
    | none => none
    | some approval =>
      match approval.step env.rules w.accepted attemptStep with
      | none => none
      | some approval' => some (w.setApproval n approval', ())
  | .issueWrite n _ =>
    match w.approvals n with
    | none => none
    | some approval =>
      match approval.thread with
      | .ready taskListId =>
        some (w.setApproval n { approval with thread := .writing taskListId }, ())
      | _ => none
  | .accept n =>
    match w.approvals n with
    | none => none
    | some approval =>
      match approval.thread with
      | .writing _ => some ({ w with accepted := true }, ())
      | _ => none
  | .finalize n clock =>
    match w.approvals n with
    | none => none
    | some approval =>
      match approval.phase, approval.action.attemptToken with
      | .finalizing args, some token =>
        some ((w.setRow (finalizeClaimedAction clock token args w.row).row).setApproval n
          { approval with phase := .done }, ())
      | _, _ => none
  | .reject userId clock =>
    match lockedForOwner (some w.row) userId with
    | .error _ => some (w, ())
    | .ok row =>
      match rejectPendingAction clock userId row with
      | .error _ => some (w, ())
      | .ok change => some (w.setRow change.row, ())
  | .sweep current =>
    match expireStaleAction current w.row with
    | none => some (w, ())
    | some change => some (w.setRow change.row, ())
  | .reconcileBegin m operatorUserId clock =>
    match w.reconcilers m, reconcilePromote clock operatorUserId w.row with
    | some _, _ => none
    | none, .error _ => some (w, ())
    | none, .ok change =>
      some ((w.setRow change.row).setReconciler m (.lookingUp change.row), ())
  | .lookup m answers =>
    match w.reconcilers m with
    | some (.lookingUp action) =>
      if w.sees action answers then
        some (w.setReconciler m (.finishing (reconcileAction env action answers)), ())
      else none
    | _ => none
  | .reconcileFinish m operatorUserId clock =>
    match w.reconcilers m with
    | some (.finishing outcome) =>
      some ((w.setRow (reconcileFinish clock operatorUserId outcome w.row).row).setReconciler m
        .done, ())
    | _ => none

end World

/-- A row as `create_pending_action` stages it. -/
structure Staged (w : World) : Prop where
  status : w.row.status = .pending
  legacyAccepted : w.legacyAccepted = false

/-- A row that the migration moved from `processing`, with its legacy command key. The provider may
have accepted what was dispatched before. -/
structure Migrated (w : World) : Prop where
  status : w.row.status = .reconciliationRequired
  commandKey : ∃ id, w.row.commandKey = "legacy:" ++ id

/-- Approvals and reconciliations of one action. -/
def dispatcher (env : HandlerEnv) : System World Event Unit where
  init w := (Staged w ∨ Migrated w) ∧ w.accepted = false ∧ (∀ n, w.approvals n = none) ∧
    ∀ m, w.reconcilers m = none
  step := World.step env

/-! ## What a step does -/

/-- **The effect of a step of one approval.** -/
inductive AttemptEffect (rules : PayloadRules) (accepted : Bool) (approval : Approval) :
    Approval → Prop
  | servicesReady (phase : approval.phase = .resolvingServices) :
      AttemptEffect rules accepted approval { approval with phase := .executing }
  | servicesFail (code : String) (phase : approval.phase = .resolvingServices) :
      AttemptEffect rules accepted approval
        { approval with phase := .finalizing (preDispatchFailure code) }
  | executeEnds (outcome : Outcome) (phase : approval.phase = .executing) :
      AttemptEffect rules accepted approval
        { approval with phase := .finalizing (executeClaimedAction outcome) }
  | submit (phase : approval.phase = .executing)
      (operation : beforeOperation rules approval.action = none) :
      AttemptEffect rules accepted approval
        { approval with phase := .awaiting, thread := startThread approval.action.actionType }
  | listingEnds (result : CallResult) (thread : approval.thread = .listing) :
      AttemptEffect rules accepted approval { approval with thread := .exited result }
  | listed (taskListId : Json) (thread : approval.thread = .listing) :
      AttemptEffect rules accepted approval { approval with thread := .ready taskListId }
  | threadExits (taskListId : Json) (answer : Except GoogleError Json)
      (thread : approval.thread = .writing taskListId)
      (honest : ∀ e, answer = .error e → accepted = true →
        refuses approval.action.actionType e = false) :
      AttemptEffect rules accepted approval
        { approval with
          thread := .exited (callResult approval.action.actionType taskListId answer) }
  | callReturns (payload : Json) (result : CallResult) (phase : approval.phase = .awaiting)
      (thread : approval.thread = .exited result) :
      AttemptEffect rules accepted approval
        { approval with
          phase := .finalizing
            (executeClaimedAction (writeOutcome approval.action.actionType payload result)) }
  | callTimesOut (phase : approval.phase = .awaiting) :
      AttemptEffect rules accepted approval
        { approval with
          phase := .finalizing (executeClaimedAction (.ambiguous "provider_outcome_unknown")) }
  | abandon : AttemptEffect rules accepted approval { approval with phase := .done }

section

variable {rules : PayloadRules} {accepted : Bool} {approval approval' : Approval}
  {attemptStep : AttemptStep}

theorem attemptEffect_of_step (h : approval.step rules accepted attemptStep = some approval') :
    AttemptEffect rules accepted approval approval' := by
  cases attemptStep with
  | servicesReady =>
    simp only [Approval.step] at h
    split at h
    · rename_i hphase
      obtain rfl := by simpa using h
      exact .servicesReady hphase
    · cases h
  | servicesFail statusCode =>
    simp only [Approval.step] at h
    split at h
    · rename_i hphase
      obtain rfl := by simpa using h
      exact .servicesFail _ hphase
    · cases h
  | executeEnds early =>
    simp only [Approval.step] at h
    split at h
    · rename_i hphase
      obtain rfl := by simpa using h
      exact .executeEnds _ hphase
    · cases h
  | submit =>
    simp only [Approval.step] at h
    split at h
    · rename_i hphase hoperation
      obtain rfl := by simpa using h
      exact .submit hphase hoperation
    · cases h
  | tasklistsListed answer =>
    simp only [Approval.step] at h
    split at h
    · rename_i hthread
      obtain rfl := by simpa using h
      exact .listingEnds _ hthread
    · rename_i hthread
      split at h
      · obtain rfl := by simpa using h
        exact .listingEnds _ hthread
      · obtain rfl := by simpa using h
        exact .listed _ hthread
    · cases h
  | threadExits answer =>
    simp only [Approval.step] at h
    split at h
    · rename_i taskListId hthread
      split at h
      · obtain rfl := by simpa using h
        exact .threadExits _ _ hthread fun e he ↦ by cases he
      · rename_i e
        split at h
        · cases h
        · rename_i hrefuses
          obtain rfl := by simpa using h
          refine .threadExits _ _ hthread fun e' he haccepted ↦ ?_
          obtain rfl : e = e' := by cases he; rfl
          rw [haccepted, Bool.true_and] at hrefuses
          exact Bool.not_eq_true _ ▸ hrefuses
    · cases h
  | callReturns =>
    simp only [Approval.step] at h
    split at h
    · rename_i result hphase hthread
      obtain rfl := by simpa using h
      exact .callReturns _ _ hphase hthread
    · cases h
  | callTimesOut =>
    simp only [Approval.step] at h
    split at h
    · rename_i hphase
      obtain rfl := by simpa using h
      exact .callTimesOut hphase
    · cases h
  | abandon =>
    obtain rfl := by simpa [Approval.step] using h
    exact .abandon

theorem AttemptEffect.action (h : AttemptEffect rules accepted approval approval') :
    approval'.action = approval.action := by
  cases h <;> rfl

/-- A write that is past being issued stays so. -/
theorem AttemptEffect.beforeWrite (h : AttemptEffect rules accepted approval approval')
    (hbefore : approval.beforeWrite = false) : approval'.beforeWrite = false := by
  rw [Approval.beforeWrite, Bool.or_eq_false_iff] at hbefore ⊢
  obtain ⟨hphase, hthread⟩ := hbefore
  cases h <;> simp_all [ApprovalPhase.beforeSubmit, ProviderThread.beforeWrite]

/-- A write that can no longer be accepted never will. -/
theorem AttemptEffect.canWrite (h : AttemptEffect rules accepted approval approval')
    (hwrite : approval.canWrite = false) : approval'.canWrite = false := by
  rw [Approval.canWrite, Bool.or_eq_false_iff] at hwrite ⊢
  obtain ⟨hbefore, hwriting⟩ := hwrite
  refine ⟨h.beforeWrite hbefore, ?_⟩
  cases h with
  | submit phase => simp [Approval.beforeWrite, phase, ApprovalPhase.beforeSubmit] at hbefore
  | _ => simp_all [ProviderThread.isWriting]

end

/-- **The effect of a step of the system.** -/
inductive StepEffect (env : HandlerEnv) (w : World) : Event → World → Prop
  /-- The call fails, or finds nothing to do. -/
  | idle (e : Event) : StepEffect env w e w
  | claimGranted (n : ℕ) (userId : UserId) (token : String) (clock : Clock)
      (free : w.approvals n = none) (status : w.row.status = .pending) :
      StepEffect env w (.approve n userId token clock)
        ((w.setRow (w.row.granted (clock 0) token)).setApproval n
          ⟨w.row.granted (clock 0) token, .resolvingServices, .notStarted⟩)
  | claimRefused (n : ℕ) (userId : UserId) (token : String) (clock : Clock) {row : PendingAction}
      (effect : ClaimEffect env.rules clock token w.row row false) :
      StepEffect env w (.approve n userId token clock) (w.setRow row)
  | attempt (n : ℕ) (attemptStep : AttemptStep) {approval approval' : Approval}
      (current : w.approvals n = some approval)
      (effect : AttemptEffect env.rules w.accepted approval approval') :
      StepEffect env w (.attempt n attemptStep) (w.setApproval n approval')
  | issueWrite (n : ℕ) (now : Time) {approval : Approval} {taskListId : Json}
      (current : w.approvals n = some approval) (thread : approval.thread = .ready taskListId) :
      StepEffect env w (.issueWrite n now)
        (w.setApproval n { approval with thread := .writing taskListId })
  | accept (n : ℕ) {approval : Approval} {taskListId : Json}
      (current : w.approvals n = some approval) (thread : approval.thread = .writing taskListId) :
      StepEffect env w (.accept n) { w with accepted := true }
  | finalize (n : ℕ) (clock : Clock) {approval : Approval} {args : FinalizeArgs} {token : String}
      (current : w.approvals n = some approval) (phase : approval.phase = .finalizing args) :
      StepEffect env w (.finalize n clock)
        ((w.setRow (finalizeClaimedAction clock token args w.row).row).setApproval n
          { approval with phase := .done })
  /-- A rejection or an expiry. -/
  | resolved (e : Event) {row : PendingAction} (status : w.row.status = .pending)
      (status' : row.status = .rejected ∨ row.status = .expired) (same : SameAttempt w.row row) :
      StepEffect env w e (w.setRow row)
  | promoted (m : ℕ) (operatorUserId : UserId) (clock : Clock) {row : PendingAction}
      (status : w.row.status = .processing) (lease : leaseExpired w.row (clock 0) = true)
      (status' : row.status = .reconciliationRequired) (same : SameAttempt w.row row) :
      StepEffect env w (.reconcileBegin m operatorUserId clock)
        ((w.setRow row).setReconciler m (.lookingUp row))
  | reconcileKept (m : ℕ) (operatorUserId : UserId) (clock : Clock)
      (status : w.row.status = .reconciliationRequired) :
      StepEffect env w (.reconcileBegin m operatorUserId clock)
        (w.setReconciler m (.lookingUp w.row))
  | lookup (m : ℕ) (answers : LookupAnswers) {action : PendingAction}
      (current : w.reconcilers m = some (.lookingUp action))
      (sees : w.sees action answers = true) :
      StepEffect env w (.lookup m answers)
        (w.setReconciler m (.finishing (reconcileAction env action answers)))
  | reconcileFinish (m : ℕ) (operatorUserId : UserId) (clock : Clock)
      {outcome : ReconciliationResult} (current : w.reconcilers m = some (.finishing outcome)) :
      StepEffect env w (.reconcileFinish m operatorUserId clock)
        ((w.setRow (reconcileFinish clock operatorUserId outcome w.row).row).setReconciler m .done)

section

variable {env : HandlerEnv} {w w' : World} {e : Event} {o : Unit}

theorem stepEffect_of_step (hs : w.step env e = some (w', o)) : StepEffect env w e w' := by
  cases e with
  | approve n userId token clock =>
    simp only [World.step] at hs
    split at hs
    · cases hs
    · obtain ⟨rfl, -⟩ := by simpa using hs
      exact .idle _
    · rename_i row hfree hlocked
      obtain rfl : w.row = row := Option.some.inj (lockedForOwner_eq_ok hlocked)
      have heffect := claimEffect_claimPendingAction env.rules clock token userId w.row
      generalize hresult :
        claimPendingAction env.rules clock token userId w.row = result at hs heffect
      obtain ⟨⟨row, events⟩, claimed⟩ := result
      cases claimed with
      | true =>
        obtain ⟨rfl, -⟩ := by simpa using hs
        obtain ⟨rfl, hstatus⟩ := heffect.row_of_granted rfl
        exact .claimGranted n userId token clock hfree hstatus
      | false =>
        obtain ⟨rfl, -⟩ := by simpa using hs
        exact .claimRefused n userId token clock heffect
  | attempt n attemptStep =>
    simp only [World.step] at hs
    split at hs
    · cases hs
    · rename_i approval hcurrent
      split at hs
      · cases hs
      · rename_i approval' hstep
        obtain ⟨rfl, -⟩ := by simpa using hs
        exact .attempt n attemptStep hcurrent (attemptEffect_of_step hstep)
  | issueWrite n now =>
    simp only [World.step] at hs
    split at hs
    · cases hs
    · rename_i approval hcurrent
      split at hs
      · rename_i taskListId hthread
        obtain ⟨rfl, -⟩ := by simpa using hs
        exact .issueWrite n now hcurrent hthread
      · cases hs
  | accept n =>
    simp only [World.step] at hs
    split at hs
    · cases hs
    · rename_i approval hcurrent
      split at hs
      · rename_i taskListId hthread
        obtain ⟨rfl, -⟩ := by simpa using hs
        exact .accept n hcurrent hthread
      · cases hs
  | finalize n clock =>
    simp only [World.step] at hs
    split at hs
    · cases hs
    · rename_i approval hcurrent
      split at hs
      · rename_i args token hphase htoken
        obtain ⟨rfl, -⟩ := by simpa using hs
        exact .finalize n clock hcurrent hphase
      · cases hs
  | reject userId clock =>
    simp only [World.step] at hs
    split at hs
    · obtain ⟨rfl, -⟩ := by simpa using hs
      exact .idle _
    · rename_i row hlocked
      obtain rfl : w.row = row := Option.some.inj (lockedForOwner_eq_ok hlocked)
      split at hs
      · obtain ⟨rfl, -⟩ := by simpa using hs
        exact .idle _
      · rename_i change hchange
        obtain ⟨rfl, -⟩ := by simpa using hs
        rcases rejectPendingAction_cases hchange with hsame | ⟨hstatus, hstatus', hrow⟩
        · rw [hsame]
          exact .idle _
        · exact .resolved _ hstatus (Or.inl hstatus') hrow
  | sweep current =>
    simp only [World.step] at hs
    split at hs
    · obtain ⟨rfl, -⟩ := by simpa using hs
      exact .idle _
    · rename_i change hchange
      obtain ⟨rfl, -⟩ := by simpa using hs
      obtain ⟨hstatus, hstatus', hrow⟩ := expireStaleAction_cases hchange
      exact .resolved _ hstatus (Or.inr hstatus') hrow
  | reconcileBegin m operatorUserId clock =>
    simp only [World.step] at hs
    split at hs
    · cases hs
    · obtain ⟨rfl, -⟩ := by simpa using hs
      exact .idle _
    · rename_i change hfree hchange
      obtain ⟨rfl, -⟩ := by simpa using hs
      rcases reconcilePromote_cases hchange with
        ⟨hsame, hstatus⟩ | ⟨hstatus, hlease, hstatus', hrow⟩
      · rw [hsame]
        exact .reconcileKept m operatorUserId clock hstatus
      · exact .promoted m operatorUserId clock hstatus hlease hstatus' hrow
  | lookup m answers =>
    simp only [World.step] at hs
    split at hs
    · rename_i action hcurrent
      split at hs
      · rename_i hsees
        obtain ⟨rfl, -⟩ := by simpa using hs
        exact .lookup m answers hcurrent hsees
      · cases hs
    · cases hs
  | reconcileFinish m operatorUserId clock =>
    simp only [World.step] at hs
    split at hs
    · rename_i outcome hcurrent
      obtain ⟨rfl, -⟩ := by simpa using hs
      exact .reconcileFinish m operatorUserId clock hcurrent
    · cases hs

end

end Onebox.PendingActions
