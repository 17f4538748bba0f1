import Onebox.PendingActions.Model
import Onebox.Transition.System

/-!
# The lifecycle of pending actions

The table of actions as a reactive system: its calls are the transactions of the state service, by
any number of callers, in any order, each atomic under its row lock, and each with clock readings
of its own. `create_pending_action` adds rows; `expire_stale_actions` may skip rows that others
hold locked, so it works on an arbitrary selection of the due ones.

What a transaction can do to a row is said once, in `RowStep`. Everything else about the lifecycle
follows from that relation: the status graph, the single grant, and the fence around finalization.
-/

namespace Onebox.PendingActions

open Python Transition

/-! ## The lifecycle graph -/

namespace ActionStatus

/-- The edges of the lifecycle. -/
inductive Next : ActionStatus → ActionStatus → Prop
  | claim : Next pending processing
  | reject : Next pending rejected
  | expire : Next pending expired
  | mismatch : Next pending reconciliationRequired
  | succeed : Next processing succeeded
  | fail : Next processing failed
  | lose : Next processing reconciliationRequired
  | confirm : Next reconciliationRequired succeeded
  | refute : Next reconciliationRequired failed

/-- The statuses that are never left. -/
inductive Resolved : ActionStatus → Prop
  | succeeded : Resolved succeeded
  | failed : Resolved failed
  | rejected : Resolved rejected
  | expired : Resolved expired

theorem Resolved.not_next {status status' : ActionStatus} (h : Resolved status) :
    ¬Next status status' := by
  rintro ⟨⟩ <;> cases h

theorem Next.ne_pending {status status' : ActionStatus} (h : Next status status') :
    status' ≠ pending := by
  rintro rfl
  cases h

end ActionStatus

open ActionStatus (Next Resolved)

/-! ## What a transaction does to a row -/

/-- The fields of an attempt. -/
structure SameAttempt (row row' : PendingAction) : Prop where
  attemptToken : row'.attemptToken = row.attemptToken
  attemptCount : row'.attemptCount = row.attemptCount
  leaseExpiresAt : row'.leaseExpiresAt = row.leaseExpiresAt
  commandKey : row'.commandKey = row.commandKey

/-- **The effect of one transaction on one row.** -/
inductive RowStep : PendingAction → PendingAction → Prop
  /-- Nothing is written. -/
  | idle (row : PendingAction) : RowStep row row
  /-- The status moves along an edge, other than into `processing`. -/
  | moved {row row' : PendingAction} (edge : Next row.status row'.status)
      (other : row'.status ≠ .processing) (same : SameAttempt row row') : RowStep row row'
  /-- An inconclusive reconciliation refreshes its evidence. -/
  | refreshed {row row' : PendingAction} (status : row.status = .reconciliationRequired)
      (status' : row'.status = .reconciliationRequired) (same : SameAttempt row row') :
      RowStep row row'
  /-- A claim is granted. -/
  | granted {row row' : PendingAction} (status : row.status = .pending)
      (status' : row'.status = .processing) (token : row'.attemptToken.isSome = true)
      (lease : row'.leaseExpiresAt.isSome = true)
      (count : row'.attemptCount = row.attemptCount + 1)
      (commandKey : row'.commandKey = row.commandKey) : RowStep row row'

theorem RowStep.status_eq_or_next {row row' : PendingAction} (h : RowStep row row') :
    row'.status = row.status ∨ Next row.status row'.status := by
  cases h with
  | idle => exact Or.inl rfl
  | moved edge => exact Or.inr edge
  | refreshed status status' => exact Or.inl (status'.trans status.symm)
  | granted status status' => rw [status, status']; exact Or.inr .claim

/-! ### The building blocks -/

section

variable {rules : PayloadRules} {clock : Clock} {token : String} {userId : UserId}
  {row : PendingAction}

@[simp] theorem markReconciliationRequired_status (requiredAt processedAt : Time)
    (reason : String) (evidence : Evidence) (actor : Option UserId) (event : EventType) :
    (markReconciliationRequired requiredAt processedAt row reason evidence actor event).row.status
      = .reconciliationRequired := rfl

theorem sameAttempt_markReconciliationRequired (requiredAt processedAt : Time) (reason : String)
    (evidence : Evidence) (actor : Option UserId) (event : EventType) :
    SameAttempt row
      (markReconciliationRequired requiredAt processedAt row reason evidence actor event).row :=
  ⟨rfl, rfl, rfl, rfl⟩

/-- Marking a row that is pending or processing follows an edge of the graph. -/
theorem rowStep_markReconciliationRequired (requiredAt processedAt : Time) (reason : String)
    (evidence : Evidence) (actor : Option UserId) (event : EventType)
    (h : row.status = .pending ∨ row.status = .processing) :
    RowStep row
      (markReconciliationRequired requiredAt processedAt row reason evidence actor event).row := by
  refine .moved ?_ ?_ (sameAttempt_markReconciliationRequired _ _ _ _ _ _)
  · rw [markReconciliationRequired_status]
    rcases h with h | h
    · rw [h]; exact .mismatch
    · rw [h]; exact .lose
  · rw [markReconciliationRequired_status]
    decide

/-! ### One lemma for each transaction -/

/-- **The effect of a claim**: the row it commits, and whether it was granted. -/
inductive ClaimEffect (rules : PayloadRules) (clock : Clock) (token : String)
    (row : PendingAction) : PendingAction → Bool → Prop
  /-- A previous attempt has lost its lease. -/
  | lost {row' : PendingAction} (status : row.status = .processing)
      (lease : leaseExpired row (clock 0) = true) (status' : row'.status = .reconciliationRequired)
      (same : SameAttempt row row') : ClaimEffect rules clock token row row' false
  /-- Nobody approved the action in time. -/
  | expired {row' : PendingAction} (status : row.status = .pending)
      (due : row.expiresAt ≤ clock 0) (status' : row'.status = .expired)
      (same : SameAttempt row row') : ClaimEffect rules clock token row row' false
  /-- The action is not for claiming. -/
  | kept (status : row.status ≠ .pending)
      (lease : ¬(row.status = .processing ∧ leaseExpired row (clock 0) = true)) :
      ClaimEffect rules clock token row row false
  /-- The stored payload is not what was staged. -/
  | mismatch {row' : PendingAction} (status : row.status = .pending)
      (payload : requireCanonicalPayload rules row = none)
      (status' : row'.status = .reconciliationRequired) (same : SameAttempt row row') :
      ClaimEffect rules clock token row row' false
  /-- The attempt starts. -/
  | granted (status : row.status = .pending) (due : clock 0 < row.expiresAt)
      (payload : (requireCanonicalPayload rules row).isSome = true) :
      ClaimEffect rules clock token row (row.granted (clock 0) token) true

variable (rules clock token userId row) in
theorem claimEffect_claimPendingAction :
    ClaimEffect rules clock token row (claimPendingAction rules clock token userId row).1.row
      (claimPendingAction rules clock token userId row).2 := by
  rw [claimPendingAction]
  dsimp only
  split
  · rename_i hlost
    exact .lost hlost.1 hlost.2 rfl (sameAttempt_markReconciliationRequired _ _ _ _ _ _)
  · rename_i hlost
    split
    · rename_i hdue
      exact .expired hdue.1 hdue.2 rfl ⟨rfl, rfl, rfl, rfl⟩
    · rename_i hdue
      split
      · rename_i hne
        exact .kept hne hlost
      · rename_i hne
        have hstatus : row.status = .pending := not_not.mp hne
        have hlt : clock 0 < row.expiresAt := by
          by_contra hle
          exact hdue ⟨hstatus, Nat.not_lt.mp hle⟩
        split
        · rename_i hpayload
          exact .mismatch hstatus hpayload rfl (sameAttempt_markReconciliationRequired _ _ _ _ _ _)
        · rename_i payload hpayload
          exact .granted hstatus hlt (by rw [hpayload]; rfl)

theorem ClaimEffect.rowStep {row' : PendingAction} {claimed : Bool}
    (h : ClaimEffect rules clock token row row' claimed) : RowStep row row' := by
  cases h with
  | lost status lease status' same =>
    refine .moved ?_ ?_ same
    · rw [status, status']; exact .lose
    · rw [status']; decide
  | expired status due status' same =>
    refine .moved ?_ ?_ same
    · rw [status, status']; exact .expire
    · rw [status']; decide
  | kept => exact .idle row
  | mismatch status payload status' same =>
    refine .moved ?_ ?_ same
    · rw [status, status']; exact .mismatch
    · rw [status']; decide
  | granted status => exact .granted status rfl rfl rfl rfl rfl

/-- Granted claims are the ones that count. -/
theorem ClaimEffect.attemptCount {row' : PendingAction} {claimed : Bool}
    (h : ClaimEffect rules clock token row row' claimed) :
    row'.attemptCount = row.attemptCount + if claimed then 1 else 0 := by
  cases h with
  | lost status lease status' same => exact same.attemptCount
  | expired status due status' same => exact same.attemptCount
  | kept => rfl
  | mismatch status payload status' same => exact same.attemptCount
  | granted => rfl

/-- A granted claim found a pending action that had not expired. -/
theorem ClaimEffect.granted_of {row' : PendingAction} {claimed : Bool}
    (h : ClaimEffect rules clock token row row' claimed) (hclaimed : claimed = true) :
    row.status = .pending ∧ clock 0 < row.expiresAt := by
  cases h with
  | granted status due => exact ⟨status, due⟩
  | _ => cases hclaimed

theorem ClaimEffect.row_of_granted {row' : PendingAction} {claimed : Bool}
    (h : ClaimEffect rules clock token row row' claimed) (hclaimed : claimed = true) :
    row' = row.granted (clock 0) token ∧ row.status = .pending := by
  cases h with
  | granted status => exact ⟨rfl, status⟩
  | _ => cases hclaimed

/-- A rejection either finds the action settled or resolves a pending one. -/
theorem rejectPendingAction_cases {change : Change}
    (h : rejectPendingAction clock userId row = .ok change) :
    change.row = row ∨
      row.status = .pending ∧ change.row.status = .rejected ∧ SameAttempt row change.row := by
  rw [rejectPendingAction] at h
  split at h
  · rename_i hstatus
    obtain rfl := by simpa using h
    exact Or.inr ⟨hstatus, rfl, rfl, rfl, rfl, rfl⟩
  · split at h
    · cases h
    · obtain rfl := by simpa using h
      exact Or.inl rfl

theorem rejectPendingAction_spec {change : Change}
    (h : rejectPendingAction clock userId row = .ok change) :
    RowStep row change.row ∧ change.row.attemptCount = row.attemptCount := by
  rcases rejectPendingAction_cases h with hsame | ⟨hstatus, hstatus', same⟩
  · rw [hsame]
    exact ⟨.idle row, rfl⟩
  · refine ⟨.moved ?_ ?_ same, same.attemptCount⟩
    · rw [hstatus, hstatus']; exact .reject
    · rw [hstatus']; decide

theorem expireStaleAction_cases {current : Time} {change : Change}
    (h : expireStaleAction current row = some change) :
    row.status = .pending ∧ change.row.status = .expired ∧ SameAttempt row change.row := by
  rw [expireStaleAction] at h
  split at h
  · rename_i hdue
    obtain rfl := by simpa using h
    exact ⟨hdue.1, rfl, rfl, rfl, rfl, rfl⟩
  · cases h

theorem expireStaleAction_spec {current : Time} {change : Change}
    (h : expireStaleAction current row = some change) :
    RowStep row change.row ∧ change.row.attemptCount = row.attemptCount := by
  obtain ⟨hstatus, hstatus', same⟩ := expireStaleAction_cases h
  refine ⟨.moved ?_ ?_ same, same.attemptCount⟩
  · rw [hstatus, hstatus']; exact .expire
  · rw [hstatus']; decide

variable (clock token row) in
theorem finalizeClaimedAction_spec (args : FinalizeArgs) :
    RowStep row (finalizeClaimedAction clock token args row).row ∧
      (finalizeClaimedAction clock token args row).row.attemptCount = row.attemptCount := by
  rw [finalizeClaimedAction]
  split
  · rename_i h
    split
    · exact ⟨rowStep_markReconciliationRequired _ _ _ _ _ _ (Or.inr h.1), rfl⟩
    · split
      · exact ⟨rowStep_markReconciliationRequired _ _ _ _ _ _ (Or.inr h.1), rfl⟩
      · refine ⟨.moved ?_ ?_ ⟨rfl, rfl, rfl, rfl⟩, rfl⟩
        · rw [h.1]; exact .succeed
        · exact fun hne ↦ by cases hne
      · refine ⟨.moved ?_ ?_ ⟨rfl, rfl, rfl, rfl⟩, rfl⟩
        · rw [h.1]; exact .fail
        · exact fun hne ↦ by cases hne
  · exact ⟨.idle row, rfl⟩

/-- **The fence.** A finalizer that does not hold the row's attempt changes nothing. -/
theorem finalizeClaimedAction_of_stale (args : FinalizeArgs)
    (h : row.attemptToken ≠ some token ∨ row.status ≠ .processing) :
    finalizeClaimedAction clock token args row = .unchanged row := by
  rw [finalizeClaimedAction, if_neg]
  rintro ⟨hstatus, htoken⟩
  rcases h with h | h
  · exact h htoken
  · exact h hstatus

/-- The first transaction of a reconciliation: the action awaits one already, or its lease has run
out. -/
theorem reconcilePromote_cases {change : Change}
    (h : reconcilePromote clock userId row = .ok change) :
    change.row = row ∧ row.status = .reconciliationRequired ∨
      row.status = .processing ∧ leaseExpired row (clock 0) = true ∧
        change.row.status = .reconciliationRequired ∧ SameAttempt row change.row := by
  rw [reconcilePromote] at h
  split at h
  · rename_i hexpired
    obtain rfl := by simpa using h
    exact Or.inr ⟨hexpired.1, hexpired.2, rfl, sameAttempt_markReconciliationRequired _ _ _ _ _ _⟩
  · split at h
    · cases h
    · rename_i hstatus
      obtain rfl := by simpa using h
      exact Or.inl ⟨rfl, not_not.mp hstatus⟩

theorem reconcilePromote_spec {change : Change}
    (h : reconcilePromote clock userId row = .ok change) :
    RowStep row change.row ∧ change.row.attemptCount = row.attemptCount := by
  rcases reconcilePromote_cases h with ⟨hsame, -⟩ | ⟨hstatus, -, hstatus', same⟩
  · rw [hsame]
    exact ⟨.idle row, rfl⟩
  · refine ⟨.moved ?_ ?_ same, same.attemptCount⟩
    · rw [hstatus, hstatus']; exact .lose
    · rw [hstatus']; decide

variable (clock userId row) in
theorem reconcileFinish_spec (outcome : ReconciliationResult) :
    RowStep row (reconcileFinish clock userId outcome row).row ∧
      (reconcileFinish clock userId outcome row).row.attemptCount = row.attemptCount := by
  rw [reconcileFinish]
  split
  · rename_i hstatus
    dsimp only
    split
    · refine ⟨.moved ?_ ?_ ⟨rfl, rfl, rfl, rfl⟩, rfl⟩
      · rw [hstatus]; exact .confirm
      · exact fun hne ↦ by cases hne
    · refine ⟨.moved ?_ ?_ ⟨rfl, rfl, rfl, rfl⟩, rfl⟩
      · rw [hstatus]; exact .refute
      · exact fun hne ↦ by cases hne
    · exact ⟨.refreshed hstatus hstatus ⟨rfl, rfl, rfl, rfl⟩, rfl⟩
  · exact ⟨.idle row, rfl⟩

end

/-! ## The table -/

/-- The table of actions and its audit log, in commit order. -/
structure ActionStore where
  rows : ActionId → Option PendingAction
  audit : List PendingActionAuditEvent

/-- The calls of the state service, down to one transaction each. -/
inductive StoreCall
  | create (id : ActionId) (userId : UserId) (actionType : ActionType) (payload : Json)
      (commandKey : String) (clock : Clock)
  | claim (id : ActionId) (userId : UserId) (token : String) (clock : Clock)
  | reject (id : ActionId) (userId : UserId) (clock : Clock)
  | expireStale (current : Time) (ids : List ActionId)
  | finalize (id : ActionId) (token : String) (args : FinalizeArgs) (clock : Clock)
  | reconcilePromote (id : ActionId) (operatorUserId : UserId) (clock : Clock)
  | reconcileFinish (id : ActionId) (operatorUserId : UserId) (outcome : ReconciliationResult)
      (clock : Clock)

/-- What a call answers. -/
inductive Reply
  | action (row : PendingAction)
  | claim (row : PendingAction) (claimed : Bool)
  | swept (ids : List ActionId)
  | invalidPayload
  | raised (error : ActionError)

namespace ActionStore

/-- Commit a change to one row. -/
def put (s : ActionStore) (id : ActionId) (change : Change) : ActionStore where
  rows := Function.update s.rows id (some change.row)
  audit := s.audit ++ change.events

/-- What a sweep does to one row of its selection. -/
def sweepRow (current : Time) (row : PendingAction) : Change :=
  (expireStaleAction current row).getD (.unchanged row)

/-- `expire_stale_actions` on the rows it manages to lock. -/
def sweep (s : ActionStore) (current : Time) (ids : List ActionId) : ActionStore where
  rows id := if id ∈ ids then (s.rows id).map fun row ↦ (sweepRow current row).row else s.rows id
  audit := s.audit ++ ids.flatMap fun id ↦
    match s.rows id with
    | none => []
    | some row => (sweepRow current row).events

/-- One call. -/
def step (rules : PayloadRules) (s : ActionStore) : StoreCall → Option (ActionStore × Reply)
  | .create id userId actionType payload commandKey clock =>
    match s.rows id with
    | some _ => none
    | none =>
      match rules.canonicalizeActionPayload actionType payload with
      | none => some (s, .invalidPayload)
      | some canonical =>
        let row := newPendingAction id userId actionType canonical
          (rules.makePayloadHash canonical) commandKey clock
        some (s.put id (.unchanged row), .action row)
  | .claim id userId token clock =>
    match lockedForOwner (s.rows id) userId with
    | .error e => some (s, .raised e)
    | .ok row =>
      let result := claimPendingAction rules clock token userId row
      some (s.put id result.1, .claim result.1.row result.2)
  | .reject id userId clock =>
    match lockedForOwner (s.rows id) userId with
    | .error e => some (s, .raised e)
    | .ok row =>
      match rejectPendingAction clock userId row with
      | .error e => some (s, .raised e)
      | .ok change => some (s.put id change, .action change.row)
  | .expireStale current ids =>
    if ids.Nodup then some (s.sweep current ids, .swept ids) else none
  | .finalize id token args clock =>
    match s.rows id with
    | none => some (s, .raised .notFound)
    | some row =>
      let change := finalizeClaimedAction clock token args row
      some (s.put id change, .action change.row)
  | .reconcilePromote id operatorUserId clock =>
    match s.rows id with
    | none => some (s, .raised .notFound)
    | some row =>
      match PendingActions.reconcilePromote clock operatorUserId row with
      | .error e => some (s, .raised e)
      | .ok change => some (s.put id change, .action change.row)
  | .reconcileFinish id operatorUserId outcome clock =>
    match s.rows id with
    | none => some (s, .raised .notFound)
    | some row =>
      let change := PendingActions.reconcileFinish clock operatorUserId outcome row
      some (s.put id change, .action change.row)

end ActionStore

/-- A row that no attempt has touched: freshly staged, or carried over by the migration, which
turned every historic `processing` row into one that awaits reconciliation. -/
structure Unattempted (row : PendingAction) : Prop where
  attemptCount : row.attemptCount = 0
  status : row.status ≠ .processing

/-- The state service, from any table of unattempted actions on. -/
def actionService (rules : PayloadRules) : System ActionStore StoreCall Reply where
  init s := ∀ id row, s.rows id = some row → Unattempted row
  step := ActionStore.step rules

/-- One for a claim of the given action that returned `True`. -/
def grant (id : ActionId) : StoreCall × Reply → ℕ
  | (.claim id' _ _ _, .claim _ true) => if id' = id then 1 else 0
  | _ => 0

/-- How often `claim_pending_action` returned `True` for the action along a trace. -/
def grants (id : ActionId) (tr : List (StoreCall × Reply)) : ℕ := (tr.map (grant id)).sum

/-! ### One row of the table -/

theorem ActionStore.put_rows_self (s : ActionStore) (id : ActionId) (change : Change) :
    (s.put id change).rows id = some change.row := Function.update_self _ _ _

theorem ActionStore.put_rows_of_ne (s : ActionStore) {id id' : ActionId} (h : id' ≠ id)
    (change : Change) : (s.put id change).rows id' = s.rows id' := Function.update_of_ne h _ _

theorem lockedForOwner_eq_ok {action : Option PendingAction} {userId : UserId}
    {row : PendingAction} (h : lockedForOwner action userId = .ok row) : action = some row := by
  unfold lockedForOwner at h
  split at h
  · cases h
  · split at h
    · obtain rfl := by simpa using h
      rfl
    · cases h

/-- What a call may do to an existing row, with the claims it grants. -/
structure CallEffect (id : ActionId) (event : StoreCall × Reply) (row row' : PendingAction) :
    Prop where
  rowStep : RowStep row row'
  attemptCount : row'.attemptCount = row.attemptCount + grant id event

/-- Committing a change to one row affects that row as described, and no other. -/
theorem ActionStore.put_effect {s : ActionStore} {id id' : ActionId} {change : Change}
    {row locked : PendingAction} {event : StoreCall × Reply} (hrow : s.rows id' = some row)
    (hlocked : s.rows id = some locked) (hother : id' ≠ id → grant id' event = 0)
    (heffect : CallEffect id event locked change.row) :
    ∃ row', (s.put id change).rows id' = some row' ∧ CallEffect id' event row row' := by
  by_cases hid : id' = id
  · subst hid
    obtain rfl : row = locked := by rw [hrow] at hlocked; exact Option.some.inj hlocked
    exact ⟨change.row, s.put_rows_self id' change, heffect⟩
  · refine ⟨row, ?_, .idle row, ?_⟩
    · rw [s.put_rows_of_ne hid, hrow]
    · rw [hother hid, Nat.add_zero]

/-- What a call does to the table. -/
inductive StoreEffect (s : ActionStore) (event : StoreCall × Reply) : ActionStore → Prop
  | kept (ungranted : ∀ id, grant id event = 0) : StoreEffect s event s
  | staged {id : ActionId} {row : PendingAction} (absent : s.rows id = none)
      (pending : row.status = .pending) (unattempted : row.attemptCount = 0)
      (ungranted : ∀ id, grant id event = 0) : StoreEffect s event (s.put id (.unchanged row))
  | changed {id : ActionId} {locked : PendingAction} {change : Change}
      (held : s.rows id = some locked) (effect : CallEffect id event locked change.row)
      (others : ∀ other, other ≠ id → grant other event = 0) : StoreEffect s event (s.put id change)
  | swept (current : Time) (ids : List ActionId) (ungranted : ∀ id, grant id event = 0) :
      StoreEffect s event (s.sweep current ids)

/-- **Every call has one of the effects.** -/
theorem storeEffect_of_step {rules : PayloadRules} {s t : ActionStore} {a : StoreCall} {o : Reply}
    (hs : s.step rules a = some (t, o)) : StoreEffect s (a, o) t := by
  cases a with
  | create id userId actionType payload commandKey clock =>
    rw [ActionStore.step] at hs
    split at hs
    · cases hs
    · rename_i hnone
      split at hs
      · obtain ⟨rfl, rfl⟩ := by simpa using hs
        exact .kept fun _ ↦ rfl
      · obtain ⟨rfl, rfl⟩ := by simpa using hs
        exact .staged hnone rfl rfl fun _ ↦ rfl
  | claim id userId token clock =>
    rw [ActionStore.step] at hs
    split at hs
    · obtain ⟨rfl, rfl⟩ := by simpa using hs
      exact .kept fun _ ↦ rfl
    · rename_i locked hlocked
      obtain ⟨rfl, rfl⟩ := by simpa using hs
      have heffect := claimEffect_claimPendingAction rules clock token userId locked
      -- A claim is granted to its own action, if to any.
      refine .changed (lockedForOwner_eq_ok hlocked) ⟨heffect.rowStep, ?_⟩ fun other hne ↦ ?_
      · rw [heffect.attemptCount]
        cases hclaimed : (claimPendingAction rules clock token userId locked).2
        · rfl
        · simp [grant]
      · cases hclaimed : (claimPendingAction rules clock token userId locked).2
        · rfl
        · exact if_neg (Ne.symm hne)
  | reject id userId clock =>
    rw [ActionStore.step] at hs
    split at hs
    · obtain ⟨rfl, rfl⟩ := by simpa using hs
      exact .kept fun _ ↦ rfl
    · rename_i locked hlocked
      split at hs
      · obtain ⟨rfl, rfl⟩ := by simpa using hs
        exact .kept fun _ ↦ rfl
      · rename_i change hchange
        obtain ⟨rfl, rfl⟩ := by simpa using hs
        obtain ⟨hstep, hcount⟩ := rejectPendingAction_spec hchange
        exact .changed (lockedForOwner_eq_ok hlocked) ⟨hstep, hcount⟩ fun _ _ ↦ rfl
  | expireStale current ids =>
    rw [ActionStore.step] at hs
    split at hs
    · obtain ⟨rfl, rfl⟩ := by simpa using hs
      exact .swept current ids fun _ ↦ rfl
    · cases hs
  | finalize id token args clock =>
    rw [ActionStore.step] at hs
    split at hs
    · obtain ⟨rfl, rfl⟩ := by simpa using hs
      exact .kept fun _ ↦ rfl
    · rename_i locked hlocked
      obtain ⟨rfl, rfl⟩ := by simpa using hs
      obtain ⟨hstep, hcount⟩ := finalizeClaimedAction_spec clock token locked args
      exact .changed hlocked ⟨hstep, hcount⟩ fun _ _ ↦ rfl
  | reconcilePromote id operatorUserId clock =>
    rw [ActionStore.step] at hs
    split at hs
    · obtain ⟨rfl, rfl⟩ := by simpa using hs
      exact .kept fun _ ↦ rfl
    · rename_i locked hlocked
      split at hs
      · obtain ⟨rfl, rfl⟩ := by simpa using hs
        exact .kept fun _ ↦ rfl
      · rename_i change hchange
        obtain ⟨rfl, rfl⟩ := by simpa using hs
        obtain ⟨hstep, hcount⟩ := reconcilePromote_spec hchange
        exact .changed hlocked ⟨hstep, hcount⟩ fun _ _ ↦ rfl
  | reconcileFinish id operatorUserId outcome clock =>
    rw [ActionStore.step] at hs
    split at hs
    · obtain ⟨rfl, rfl⟩ := by simpa using hs
      exact .kept fun _ ↦ rfl
    · rename_i locked hlocked
      obtain ⟨rfl, rfl⟩ := by simpa using hs
      obtain ⟨hstep, hcount⟩ := reconcileFinish_spec clock operatorUserId locked outcome
      exact .changed hlocked ⟨hstep, hcount⟩ fun _ _ ↦ rfl

/-- A sweep expires a row of its selection, or leaves the row alone. -/
theorem ActionStore.sweep_effect {s : ActionStore} {current : Time} {ids : List ActionId}
    {id : ActionId} {row : PendingAction} {event : StoreCall × Reply}
    (hrow : s.rows id = some row) (hungranted : grant id event = 0) :
    ∃ row', (s.sweep current ids).rows id = some row' ∧ CallEffect id event row row' := by
  by_cases hmem : id ∈ ids
  · refine ⟨(ActionStore.sweepRow current row).row, ?_, ?_⟩
    · simp [ActionStore.sweep, hmem, hrow]
    · rw [ActionStore.sweepRow]
      cases hexpired : expireStaleAction current row with
      | none => exact ⟨.idle row, by rw [hungranted]; rfl⟩
      | some change =>
        obtain ⟨hstep, hcount⟩ := expireStaleAction_spec hexpired
        exact ⟨hstep, by rw [hungranted]; exact hcount⟩
  · refine ⟨row, ?_, .idle row, by rw [hungranted, Nat.add_zero]⟩
    simp [ActionStore.sweep, hmem, hrow]

/-- **One call, one row.** -/
theorem step_some {rules : PayloadRules} {s t : ActionStore} {a : StoreCall} {o : Reply}
    (hs : s.step rules a = some (t, o)) {id : ActionId} {row : PendingAction}
    (hrow : s.rows id = some row) :
    ∃ row', t.rows id = some row' ∧ CallEffect id (a, o) row row' := by
  cases storeEffect_of_step hs with
  | kept ungranted => exact ⟨row, hrow, .idle row, by rw [ungranted, Nat.add_zero]⟩
  | @staged id' fresh absent pending unattempted ungranted =>
    have hid : id ≠ id' := by
      rintro rfl
      rw [absent] at hrow
      cases hrow
    refine ⟨row, ?_, .idle row, by rw [ungranted, Nat.add_zero]⟩
    rw [ActionStore.put_rows_of_ne _ hid, hrow]
  | changed held effect others => exact ActionStore.put_effect hrow held (others id) effect
  | swept current ids ungranted => exact ActionStore.sweep_effect hrow (ungranted id)

/-- **One call, one absent row**: it stays absent, or it is staged without an attempt. -/
theorem step_none {rules : PayloadRules} {s t : ActionStore} {a : StoreCall} {o : Reply}
    (hs : s.step rules a = some (t, o)) {id : ActionId} (hnone : s.rows id = none) :
    grant id (a, o) = 0 ∧ ∀ row, t.rows id = some row → row.status = .pending ∧
      row.attemptCount = 0 := by
  have habsent : ∀ {t' : ActionStore}, t'.rows id = none → ∀ row, t'.rows id = some row →
      row.status = .pending ∧ row.attemptCount = 0 := by
    intro t' ht row hrow
    rw [ht] at hrow
    cases hrow
  cases storeEffect_of_step hs with
  | kept ungranted => exact ⟨ungranted id, habsent hnone⟩
  | @staged id' fresh absent pending unattempted ungranted =>
    refine ⟨ungranted id, fun row hrow ↦ ?_⟩
    by_cases hid : id = id'
    · subst hid
      rw [ActionStore.put_rows_self] at hrow
      obtain rfl := Option.some.inj hrow
      exact ⟨pending, unattempted⟩
    · rw [ActionStore.put_rows_of_ne _ hid, hnone] at hrow
      cases hrow
  | @changed id' locked change held effect others =>
    have hid : id ≠ id' := by
      rintro rfl
      rw [hnone] at held
      cases held
    refine ⟨others id hid, habsent ?_⟩
    rw [ActionStore.put_rows_of_ne _ hid, hnone]
  | swept current ids ungranted =>
    exact ⟨ungranted id, habsent (by simp [ActionStore.sweep, hnone])⟩

/-! ## Invariants of the table -/

/-- The invariant of a row. -/
structure RowInvariant (row : PendingAction) : Prop where
  processing : row.status = .processing →
    row.attemptToken.isSome = true ∧ row.leaseExpiresAt.isSome = true
  pending : row.status = .pending → row.attemptCount = 0
  attemptCount : row.attemptCount ≤ 1

theorem Unattempted.rowInvariant {row : PendingAction} (h : Unattempted row) :
    RowInvariant row where
  processing hp := absurd hp h.status
  pending _ := h.attemptCount
  attemptCount := by rw [h.attemptCount]; exact Nat.zero_le 1

/-- The step lemma for one row. -/
theorem RowInvariant.rowStep {row row' : PendingAction} (h : RowInvariant row)
    (hstep : RowStep row row') : RowInvariant row' := by
  cases hstep with
  | idle => exact h
  | moved edge other same =>
    refine ⟨fun hp ↦ absurd hp other, fun hp ↦ absurd hp edge.ne_pending, ?_⟩
    rw [same.attemptCount]
    exact h.attemptCount
  | refreshed status status' same =>
    refine ⟨fun hp ↦ ?_, fun hp ↦ ?_, ?_⟩
    · rw [status'] at hp; cases hp
    · rw [status'] at hp; cases hp
    · rw [same.attemptCount]; exact h.attemptCount
  | granted status status' token lease count =>
    refine ⟨fun _ ↦ ⟨token, lease⟩, fun hp ↦ ?_, ?_⟩
    · rw [status'] at hp; cases hp
    -- A claim is granted to a pending row only, which has no attempt yet.
    · have hcount : row'.attemptCount = 1 := by rw [count, h.pending status]
      exact Nat.le_of_eq hcount

namespace ActionStore

/-- The invariant of the table. -/
def Invariant (s : ActionStore) : Prop := ∀ id row, s.rows id = some row → RowInvariant row

/-- The attempts recorded for an action. -/
def attempts (id : ActionId) (s : ActionStore) : ℕ :=
  match s.rows id with
  | none => 0
  | some row => row.attemptCount

end ActionStore

section

variable {rules : PayloadRules} {s t u : ActionStore} {a : StoreCall} {o : Reply}
  {tr tr' : List (StoreCall × Reply)} {id : ActionId}

/-- The step lemma: the invariant is kept, and the recorded attempts grow by the grants. -/
theorem ActionStore.Invariant.step (hI : s.Invariant) (hs : s.step rules a = some (t, o)) :
    t.Invariant := by
  intro id row' hrow'
  cases hrow : s.rows id with
  | none =>
    obtain ⟨hpending, hcount⟩ := (step_none hs hrow).2 row' hrow'
    refine Unattempted.rowInvariant ⟨hcount, ?_⟩
    rw [hpending]
    decide
  | some row =>
    obtain ⟨row'', hrow'', heffect⟩ := step_some hs hrow
    obtain rfl : row'' = row' := by rw [hrow''] at hrow'; exact Option.some.inj hrow'
    exact (hI id row hrow).rowStep heffect.rowStep

theorem ActionStore.attempts_step (hs : s.step rules a = some (t, o)) :
    t.attempts id = s.attempts id + grant id (a, o) := by
  cases hrow : s.rows id with
  | none =>
    obtain ⟨hgrant, hnew⟩ := step_none hs hrow
    have hzero : t.attempts id = 0 := by
      rw [attempts]
      split
      · rfl
      · rename_i row' hrow'
        exact (hnew row' hrow').2
    rw [hzero, hgrant, attempts, hrow]
  | some row =>
    obtain ⟨row', hrow', heffect⟩ := step_some hs hrow
    rw [attempts, attempts, hrow, hrow']
    exact heffect.attemptCount

/-- The run lemma. -/
theorem invariant_of_run (hinit : (actionService rules).init s)
    (hrun : System.Run (actionService rules) System.anyStep s tr t) : t.Invariant := by
  refine hrun.invariant (I := ActionStore.Invariant) (fun id row hrow ↦ ?_) ?_
  · exact (hinit id row hrow).rowInvariant
  · exact fun s a t o hI _ hs ↦ hI.step hs

theorem grants_eq_attempts (hinit : (actionService rules).init s)
    (hrun : System.Run (actionService rules) System.anyStep s tr t) :
    grants id tr = t.attempts id := by
  have hzero : s.attempts id = 0 := by
    rw [ActionStore.attempts]
    split
    · rfl
    · rename_i row hrow
      exact (hinit id row hrow).attemptCount
  have hcount : t.attempts id = s.attempts id + (tr.map (grant id)).sum :=
    hrun.measure_eq (I := fun _ ↦ True) trivial
      fun _ _ _ _ _ _ hs ↦ ⟨trivial, ActionStore.attempts_step hs⟩
  rw [hcount, hzero, Nat.zero_add, grants]

/-- A resolved action stays as it is resolved. -/
theorem resolved_of_run (hrun : System.Run (actionService rules) System.anyStep s tr t)
    {row : PendingAction} (hrow : s.rows id = some row) (hresolved : Resolved row.status) :
    ∃ row', t.rows id = some row' ∧ row'.status = row.status := by
  refine hrun.invariant
    (I := fun s ↦ ∃ row', s.rows id = some row' ∧ row'.status = row.status) ⟨row, hrow, rfl⟩ ?_
  rintro s a t o ⟨row₁, hrow₁, hstatus⟩ - hs
  obtain ⟨row₂, hrow₂, heffect⟩ := step_some hs hrow₁
  refine ⟨row₂, hrow₂, ?_⟩
  rcases heffect.rowStep.status_eq_or_next with hsame | hnext
  · rw [hsame, hstatus]
  · rw [hstatus] at hnext
    exact absurd hnext hresolved.not_next

/-- A claim answers `True` only for an action that has not expired by its clock. -/
theorem unexpired_of_granted {userId : UserId} {token : String} {clock : Clock}
    {row' : PendingAction}
    (hs : s.step rules (.claim id userId token clock) = some (t, .claim row' true)) :
    ∃ row, s.rows id = some row ∧ row.status = .pending ∧ clock 0 < row.expiresAt := by
  rw [ActionStore.step] at hs
  split at hs
  · cases hs
  · rename_i row hlocked
    obtain ⟨-, -, hclaimed⟩ := by simpa using hs
    refine ⟨row, lockedForOwner_eq_ok hlocked, ?_⟩
    exact (claimEffect_claimPendingAction rules clock token userId row).granted_of hclaimed

/-- A finalizer that does not hold the attempt of a processing row leaves the table alone. -/
theorem finalize_of_stale {token : String} {args : FinalizeArgs} {clock : Clock}
    {row : PendingAction} (hrow : s.rows id = some row)
    (hstale : row.attemptToken ≠ some token ∨ row.status ≠ .processing)
    (hs : s.step rules (.finalize id token args clock) = some (t, o)) : t = s := by
  rw [ActionStore.step, hrow] at hs
  dsimp only at hs
  rw [finalizeClaimedAction_of_stale args hstale] at hs
  obtain ⟨rfl, -⟩ := by simpa using hs
  rw [ActionStore.put, Change.unchanged]
  congr 1
  · rw [Function.update_eq_self_iff, hrow]
  · exact List.append_nil _

end

/-! ## Approval at most once -/

/-- What holds of every interleaving of the state service, from any table of unattempted actions. -/
structure AtMostOnceApproval (rules : PayloadRules) : Prop where
  /-- A status moves along the edges of the graph. -/
  edges : ∀ {s t u tr a o}, (actionService rules).init s →
    System.Run (actionService rules) System.anyStep s tr t → t.step rules a = some (u, o) →
    ∀ id row, t.rows id = some row →
      ∃ row', u.rows id = some row' ∧ (row'.status = row.status ∨ Next row.status row'.status)
  /-- A resolved status is never left. -/
  resolved : ∀ {s t u tr tr'}, (actionService rules).init s →
    System.Run (actionService rules) System.anyStep s tr t →
    System.Run (actionService rules) System.anyStep t tr' u →
    ∀ id row, t.rows id = some row → Resolved row.status →
      ∃ row', u.rows id = some row' ∧ row'.status = row.status
  /-- At most one claim of an action is granted, and so at most one attempt is counted. -/
  once : ∀ {s t tr}, (actionService rules).init s →
    System.Run (actionService rules) System.anyStep s tr t →
    ∀ id, grants id tr ≤ 1 ∧ ∀ row, t.rows id = some row → row.attemptCount ≤ 1
  /-- No claim is granted at or after the expiry. -/
  unexpired : ∀ {s t u tr}, (actionService rules).init s →
    System.Run (actionService rules) System.anyStep s tr t →
    ∀ id userId token clock row',
      t.step rules (.claim id userId token clock) = some (u, .claim row' true) →
      ∃ row, t.rows id = some row ∧ clock 0 < row.expiresAt
  /-- A processing row has an attempt and a lease. -/
  processing : ∀ {s t tr}, (actionService rules).init s →
    System.Run (actionService rules) System.anyStep s tr t →
    ∀ id row, t.rows id = some row → row.status = .processing →
      row.attemptToken.isSome = true ∧ row.leaseExpiresAt.isSome = true
  /-- A stale finalizer changes nothing. -/
  fenced : ∀ {s t u tr o}, (actionService rules).init s →
    System.Run (actionService rules) System.anyStep s tr t →
    ∀ id row token args clock, t.rows id = some row →
      row.attemptToken ≠ some token ∨ row.status ≠ .processing →
      t.step rules (.finalize id token args clock) = some (u, o) → u = t

/-- **Every interleaving approves an action at most once, along the lifecycle graph.** -/
theorem approvalAtMostOnce (rules : PayloadRules) : AtMostOnceApproval rules where
  edges _ _ hs id row hrow := by
    obtain ⟨row', hrow', heffect⟩ := step_some hs hrow
    exact ⟨row', hrow', heffect.rowStep.status_eq_or_next⟩
  resolved _ _ hrun id row hrow hresolved := resolved_of_run hrun hrow hresolved
  once {s t tr} hinit hrun id := by
    have hI := invariant_of_run hinit hrun
    refine ⟨?_, fun row hrow ↦ (hI id row hrow).attemptCount⟩
    -- The grants so far are what the row counts as attempts.
    rw [grants_eq_attempts hinit hrun, ActionStore.attempts]
    split
    · exact Nat.zero_le 1
    · rename_i row hrow
      exact (hI id row hrow).attemptCount
  unexpired _ _ id userId token clock row' hs := by
    obtain ⟨row, hrow, -, hlt⟩ := unexpired_of_granted hs
    exact ⟨row, hrow, hlt⟩
  processing hinit hrun id row hrow := (invariant_of_run hinit hrun id row hrow).processing
  fenced _ _ id row token args clock hrow hstale hs := finalize_of_stale hrow hstale hs

end Onebox.PendingActions
