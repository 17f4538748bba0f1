import Onebox.PendingActions.Dispatch

/-!
# The lease around a dispatch

A claim leases the action to one attempt, and finalization is fenced on that lease. The write
itself is not: between the claim and the moment the write is issued nothing reads the row again.
So a write is issued under a live lease exactly as long as the attempt is quick enough, which is
what `InTime` says about a step.
-/

namespace Onebox.PendingActions

open Python Transition

/-! ## Single ownership -/

/-- At most one approval is ever granted, and none while the action is pending. -/
structure Owned (w : World) : Prop where
  notPending : ∀ n approval, w.approvals n = some approval → w.row.status ≠ .pending
  unique : ∀ n m approval approval', w.approvals n = some approval →
    w.approvals m = some approval' → n = m

/-- A row that is not pending stays so. -/
theorem RowStep.ne_pending {row row' : PendingAction} (h : RowStep row row')
    (hne : row.status ≠ .pending) : row'.status ≠ .pending := by
  intro hpending
  rcases h.status_eq_or_next with hsame | hnext
  · exact hne (hsame.symm.trans hpending)
  · exact hnext.ne_pending hpending

section

variable {env : HandlerEnv} {w w' : World} {e : Event}

/-- What a step does to the row is one transaction of the state service. -/
theorem StepEffect.rowStep (h : StepEffect env w e w') : RowStep w.row w'.row := by
  cases h with
  | claimGranted n userId token clock free status => exact .granted status rfl rfl rfl rfl rfl
  | claimRefused n userId token clock effect => exact effect.rowStep
  | finalize n clock => exact (finalizeClaimedAction_spec _ _ _ _).1
  | resolved e status status' same =>
    refine .moved ?_ ?_ same
    · rw [status]
      rcases status' with h | h
      · rw [World.setRow, h]; exact .reject
      · rw [World.setRow, h]; exact .expire
    · rcases status' with h | h
      · rw [World.setRow, h]; decide
      · rw [World.setRow, h]; decide
  | promoted m operatorUserId clock status lease status' same =>
    refine .moved ?_ ?_ same
    · rw [status, World.setReconciler, World.setRow, status']; exact .lose
    · rw [World.setReconciler, World.setRow, status']; decide
  | reconcileFinish m operatorUserId clock => exact (reconcileFinish_spec _ _ _ _).1
  | _ => exact .idle _

/-- Where an approval of the next state comes from: it was there, with the same action, or it is
the one that the step grants. -/
theorem StepEffect.approval (h : StepEffect env w e w') {n : ℕ} {approval' : Approval}
    (hn : w'.approvals n = some approval') :
    (∃ approval, w.approvals n = some approval ∧ approval'.action = approval.action) ∨
      w.row.status = .pending ∧ w'.row.status = .processing ∧
        ∀ m approval, w'.approvals m = some approval → m ≠ n → w.approvals m = some approval := by
  cases h with
  | claimGranted k userId token clock free status =>
    rcases World.setApproval_cases hn with ⟨rfl, rfl⟩ | ⟨hne, hn⟩
    · refine Or.inr ⟨status, rfl, fun m approval hm hmn ↦ ?_⟩
      rcases World.setApproval_cases hm with ⟨rfl, -⟩ | ⟨-, hm⟩
      · exact absurd rfl hmn
      · exact hm
    · exact Or.inl ⟨approval', hn, rfl⟩
  | attempt k attemptStep current effect =>
    rcases World.setApproval_cases hn with ⟨rfl, rfl⟩ | ⟨hne, hn⟩
    · exact Or.inl ⟨_, current, effect.action⟩
    · exact Or.inl ⟨approval', hn, rfl⟩
  | issueWrite k now current thread =>
    rcases World.setApproval_cases hn with ⟨rfl, rfl⟩ | ⟨hne, hn⟩
    · exact Or.inl ⟨_, current, rfl⟩
    · exact Or.inl ⟨approval', hn, rfl⟩
  | finalize k clock current phase =>
    rcases World.setApproval_cases hn with ⟨rfl, rfl⟩ | ⟨hne, hn⟩
    · exact Or.inl ⟨_, current, rfl⟩
    · exact Or.inl ⟨approval', hn, rfl⟩
  | _ => exact Or.inl ⟨approval', hn, rfl⟩

/-- The step lemma of `Owned`. -/
theorem Owned.step (hI : Owned w) (h : StepEffect env w e w') : Owned w' := by
  refine ⟨fun n approval hn ↦ ?_, fun n m approval approval' hn hm ↦ ?_⟩
  · rcases h.approval hn with ⟨old, hold, -⟩ | ⟨-, hstatus, -⟩
    · exact h.rowStep.ne_pending (hI.notPending n old hold)
    · rw [hstatus]
      decide
  · rcases h.approval hn with ⟨old, hold, -⟩ | ⟨hpending, -, hothers⟩
    · rcases h.approval hm with ⟨old', hold', -⟩ | ⟨hpending, -, -⟩
      · exact hI.unique n m old old' hold hold'
      · exact absurd hpending (hI.notPending n old hold)
    · by_contra hnm
      exact hI.notPending m approval' (hothers m approval' hm (Ne.symm hnm)) hpending

theorem owned_of_init (h : (dispatcher env).init w) : Owned w := by
  obtain ⟨-, -, hnone, -⟩ := h
  refine ⟨fun n approval hn ↦ ?_, fun n m approval approval' hn hm ↦ ?_⟩
  · rw [hnone n] at hn
    cases hn
  · rw [hnone n] at hn
    cases hn

end

/-! ## The lease until the write -/

/-- The action as its approval claimed it is still leased to that approval. -/
structure LeasedTo (row action : PendingAction) : Prop where
  status : row.status = .processing
  attemptToken : row.attemptToken = action.attemptToken
  leaseExpiresAt : row.leaseExpiresAt = action.leaseExpiresAt
  lease : action.leaseExpiresAt.isSome = true

/-- Every approval whose write can still be issued holds the lease. -/
def Leased (w : World) : Prop :=
  ∀ n approval, w.approvals n = some approval → approval.beforeWrite = true →
    LeasedTo w.row approval.action

/-- The reading of the clock that a step compares with a lease, or would have to. -/
def Event.reading : Event → Option Time
  | .approve _ _ _ clock => some (clock 0)
  | .finalize _ clock => some (clock 0)
  | .reconcileBegin _ _ clock => some (clock 0)
  | .issueWrite _ now => some now
  | .attempt _ _ | .accept _ | .reject _ _ | .sweep _ | .lookup _ _ | .reconcileFinish _ _ _ => none

/-- The attempt is in time: until its write is issued, no clock reads past the lease that its claim
wrote, and its caller does not give up on it. -/
structure InTime (w : World) (e : Event) : Prop where
  lease : ∀ now, e.reading = some now → ∀ n approval expiresAt, w.approvals n = some approval →
    approval.beforeWrite = true → approval.action.leaseExpiresAt = some expiresAt → now < expiresAt
  finalize : ∀ n clock, e = .finalize n clock → ∀ approval, w.approvals n = some approval →
    approval.beforeWrite = false

section

variable {env : HandlerEnv} {w w' : World} {e : Event}

theorem beforeWrite_of_ready {approval : Approval} {taskListId : Json}
    (h : approval.thread = .ready taskListId) : approval.beforeWrite = true := by
  rw [Approval.beforeWrite, h, ProviderThread.beforeWrite, Bool.or_true]

theorem ready_of_issueWrite {n : ℕ} {now : Time} {o : Unit} {approval : Approval}
    (hs : w.step env (.issueWrite n now) = some (w', o)) (hn : w.approvals n = some approval) :
    ∃ taskListId, approval.thread = .ready taskListId := by
  simp only [World.step, hn] at hs
  split at hs
  · rename_i taskListId hthread
    exact ⟨taskListId, hthread⟩
  · cases hs

/-- A lease that is in time has not expired. -/
theorem LeasedTo.not_expired {row action : PendingAction} (h : LeasedTo row action) {now : Time}
    (hnow : ∀ expiresAt, action.leaseExpiresAt = some expiresAt → now < expiresAt) :
    leaseExpired row now = false := by
  obtain ⟨expiresAt, hlease⟩ := Option.isSome_iff_exists.mp h.lease
  have hlt := hnow expiresAt hlease
  rw [leaseExpired, h.leaseExpiresAt, hlease]
  exact decide_eq_false (Nat.not_le.mpr hlt)

/-- Changing the row harms no lease if it keeps those that a write still needs. -/
theorem leased_of_row (hI : Leased w) (happrovals : w'.approvals = w.approvals)
    (h : ∀ n approval, w.approvals n = some approval → approval.beforeWrite = true →
      LeasedTo w.row approval.action → LeasedTo w'.row approval.action) : Leased w' := by
  intro n approval hn hbefore
  rw [happrovals] at hn
  exact h n approval hn hbefore (hI n approval hn hbefore)

/-- **The step lemma**: steps that are in time keep every lease until its write. -/
theorem Leased.step (hO : Owned w) (hI : Leased w) (hC : InTime w e)
    (h : StepEffect env w e w') : Leased w' := by
  -- A lease that is still needed keeps its row from being promoted.
  have hlive : ∀ now, e.reading = some now → ∀ n approval, w.approvals n = some approval →
      approval.beforeWrite = true → leaseExpired w.row now = false :=
    fun now hnow n approval hn hbefore ↦
      (hI n approval hn hbefore).not_expired fun expiresAt hlease ↦
        hC.lease now hnow n approval expiresAt hn hbefore hlease
  cases h with
  | idle => exact hI
  | claimGranted n userId token clock free status =>
    intro m approval hm hbefore
    rcases World.setApproval_cases hm with ⟨-, rfl⟩ | ⟨-, hm⟩
    · exact ⟨rfl, rfl, rfl, rfl⟩
    · exact absurd status (hO.notPending m approval hm)
  | claimRefused n userId token clock effect =>
    refine leased_of_row hI rfl fun m approval hm hbefore hleased ↦ ?_
    -- A refused claim moves a leased row only once the lease has run out.
    cases effect with
    | lost status lease =>
      rw [hlive (clock 0) rfl m approval hm hbefore] at lease
      cases lease
    | expired status => exact absurd status (hO.notPending m approval hm)
    | kept => exact hleased
    | mismatch status => exact absurd status (hO.notPending m approval hm)
  | attempt n attemptStep current effect =>
    intro m approval hm hbefore
    rcases World.setApproval_cases hm with ⟨-, rfl⟩ | ⟨-, hm⟩
    · rw [effect.action]
      refine hI n _ current ?_
      by_contra hno
      rw [effect.beforeWrite (Bool.eq_false_iff.mpr hno)] at hbefore
      cases hbefore
    · exact hI m approval hm hbefore
  | @issueWrite n now issuing taskListId current thread =>
    intro m approval hm hbefore
    rcases World.setApproval_cases hm with ⟨-, rfl⟩ | ⟨-, hm⟩
    · have hleased : LeasedTo w.row issuing.action :=
        hI n issuing current (beforeWrite_of_ready thread)
      exact hleased
    · exact hI m approval hm hbefore
  | accept n current thread => exact hI
  | finalize n clock current phase =>
    intro m approval hm hbefore
    rcases World.setApproval_cases hm with ⟨-, rfl⟩ | ⟨hne, hm⟩
    -- The attempt is given up with its write issued, or with no thread to issue it.
    · have hold := hC.finalize n clock rfl _ current
      rw [Approval.beforeWrite, Bool.or_eq_false_iff] at hold
      rw [Approval.beforeWrite, hold.2] at hbefore
      cases hbefore
    · exact absurd (hO.unique m n approval _ hm current) hne
  | resolved e status =>
    exact leased_of_row hI rfl fun m approval hm _ _ ↦ absurd status (hO.notPending m approval hm)
  | promoted m operatorUserId clock status lease =>
    refine leased_of_row hI rfl fun n approval hn hbefore hleased ↦ ?_
    rw [hlive (clock 0) rfl n approval hn hbefore] at lease
    cases lease
  | reconcileKept => exact hI
  | lookup => exact hI
  | reconcileFinish m operatorUserId clock current =>
    refine leased_of_row hI rfl fun n approval hn hbefore hleased ↦ ?_
    rw [reconcileFinish, if_neg]
    · exact hleased
    · rw [hleased.status]
      decide

end

/-! ## Dispatch under a live lease -/

/-- At `now`, the row is leased to the attempt of `action`. -/
structure LiveLease (row action : PendingAction) (now : Time) : Prop where
  status : row.status = .processing
  attemptToken : row.attemptToken = action.attemptToken
  lease : ∃ expiresAt, row.leaseExpiresAt = some expiresAt ∧ now < expiresAt

/-- In every run whose steps meet `C`, a write is issued under a live lease. -/
def DispatchedUnderLease (env : HandlerEnv) (C : World → Event → Prop) : Prop :=
  ∀ s t u tr n now o approval, (dispatcher env).init s →
    System.Run (dispatcher env) C s tr t → C t (.issueWrite n now) →
    (dispatcher env).step t (.issueWrite n now) = some (u, o) →
    t.approvals n = some approval → LiveLease t.row approval.action now

/-- An email as its owner approves it, in canonical form. -/
def emailPayload : Json :=
  .obj [("schema_version", .num 1), ("action_type", .str "send_email"),
    ("sender_email", .str "owner@example.com"), ("recipient_email", .str "peer@example.com"),
    ("subject", .str "Hello"), ("email_body", .str "Hi")]

def emailHash : String := "d3ba984a9e54dfd604ab937a62bc5387717a2708175bff6ece1595680c4adc36"

def emailCommandKey : String := "AAAAAAAAAAAAAAAAAAAAAAAAAAAAAAAA"

/-- The handlers, as they behave on that email. -/
def emailEnv : HandlerEnv where
  rules :=
    { canonicalizeActionPayload := fun _ payload ↦ some payload
      makePayloadHash := fun _ ↦ emailHash }
  unicode := .ascii
  sha256Hexdigest := fun _ ↦ "22a48051594c1949deed7040850c1f0f8764537f5191be56732d16a54c1d8153"
  getaddresses := fun header ↦ [header]

def stagedEmail : World where
  row := newPendingAction 1 7 .sendEmail emailPayload emailHash emailCommandKey fun _ ↦ 0
  approvals _ := none
  reconcilers _ := none
  accepted := false
  legacyAccepted := false

theorem stagedEmail_init : (dispatcher emailEnv).init stagedEmail :=
  ⟨Or.inl ⟨rfl, rfl⟩, rfl, fun _ ↦ rfl, fun _ ↦ rfl⟩

/-- The credentials take longer than the lease; an operator looks at the action meanwhile. -/
def lateSchedule : List Event :=
  [.approve 0 7 "attempt" fun _ ↦ 0, .reconcileBegin 0 9 fun _ ↦ processingLease,
    .attempt 0 .servicesReady, .attempt 0 .submit]

end Onebox.PendingActions
