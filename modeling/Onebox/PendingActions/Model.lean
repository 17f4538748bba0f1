import Onebox.Python.Clock
import Onebox.Python.Json

/-!
# Pending actions: the row and its transactions

An agent stages a side effect as a row of `pending_actions`; the owner approves it, one attempt
dispatches it, and an operator reconciles it when the outcome is unknown. Each function below is
one database transaction on the row it has locked: it maps the row to the row it commits, together
with the audit events it adds.

Canonicalization and hashing of payloads decide between two branches of a claim. They are given by
`PayloadRules`, and nothing here depends on how they work.
-/

namespace Onebox.PendingActions

open Python

/-! ## The row -/

abbrev ActionId := ℕ

abbrev UserId := ℕ

/-- The `status` column, as its check constraint enumerates it. -/
inductive ActionStatus
  | pending
  | processing
  | succeeded
  | failed
  | rejected
  | expired
  | reconciliationRequired
  deriving DecidableEq

/-- The `action_type` column. Only the first four are ever staged. -/
inductive ActionType
  | sendEmail
  | sendReply
  | createEvent
  | createTask
  | other (name : String)
  deriving DecidableEq

/-- A value inside an evidence record. -/
inductive EvidenceValue
  | none
  | text (s : String)
  | number (n : ℕ)
  | instant (t : Time)

/-- An evidence record; the empty record is stored as `NULL`. -/
abbrev Evidence := List (String × EvidenceValue)

/-- `dict(evidence) if evidence else None`. -/
def storedEvidence (evidence : Evidence) : Option Evidence :=
  if evidence.isEmpty then none else some evidence

/-- A row of `pending_actions`. -/
structure PendingAction where
  id : ActionId
  userId : UserId
  actionType : ActionType
  payload : Json
  payloadHash : String
  commandKey : String
  status : ActionStatus
  result : Option Json
  errorCode : Option String
  attemptToken : Option String
  attemptCount : ℕ
  attemptStartedAt : Option Time
  leaseExpiresAt : Option Time
  reconciliationReason : Option String
  reconciliationEvidence : Option Evidence
  reconciliationRequiredAt : Option Time
  expiresAt : Time
  approvedAt : Option Time
  processedAt : Option Time

/-- The `event_type` of an audit event. -/
inductive EventType
  | claimed
  | rejected
  | expired
  | reconciliationRequired
  | preDispatchFailed
  | confirmedFailure
  | providerOutcomeAmbiguous
  | executionInterrupted
  | succeeded
  | operatorPromotedExpiredLease
  | operatorReconciled
  deriving DecidableEq

/-- The value of the column. -/
def EventType.text : EventType → String
  | claimed => "claimed"
  | rejected => "rejected"
  | expired => "expired"
  | reconciliationRequired => "reconciliation_required"
  | preDispatchFailed => "pre_dispatch_failed"
  | confirmedFailure => "confirmed_failure"
  | providerOutcomeAmbiguous => "provider_outcome_ambiguous"
  | executionInterrupted => "execution_interrupted"
  | succeeded => "succeeded"
  | operatorPromotedExpiredLease => "operator_promoted_expired_lease"
  | operatorReconciled => "operator_reconciled"

/-- A row of `pending_action_audit_events`. -/
structure PendingActionAuditEvent where
  actionId : ActionId
  actorUserId : Option UserId
  eventType : EventType
  oldStatus : ActionStatus
  newStatus : ActionStatus
  attemptToken : Option String
  reason : Option String
  evidence : Option Evidence

/-- How payloads are canonicalized and hashed; `none` is the `TypeError` or `ValueError`. -/
structure PayloadRules where
  canonicalizeActionPayload : ActionType → Json → Option Json
  makePayloadHash : Json → String

/-- The failures a caller sees. -/
inductive ActionError
  | notFound
  | invalidState
  deriving DecidableEq

/-- What a transaction commits. -/
structure Change where
  row : PendingAction
  events : List PendingActionAuditEvent

/-- A transaction that only reads. -/
def Change.unchanged (row : PendingAction) : Change := ⟨row, []⟩

/-- `PENDING_ACTION_TTL`. -/
def pendingActionTtl : Time := minutes 15

/-- `PROCESSING_LEASE`. -/
def processingLease : Time := minutes 2

/-! ## Creation -/

/-- The row that `create_pending_action` inserts. -/
def newPendingAction (id : ActionId) (userId : UserId) (actionType : ActionType)
    (canonicalPayload : Json) (payloadHash commandKey : String) (clock : Clock) :
    PendingAction where
  id := id
  userId := userId
  actionType := actionType
  payload := canonicalPayload
  payloadHash := payloadHash
  commandKey := commandKey
  status := .pending
  result := none
  errorCode := none
  attemptToken := none
  attemptCount := 0
  attemptStartedAt := none
  leaseExpiresAt := none
  reconciliationReason := none
  reconciliationEvidence := none
  reconciliationRequiredAt := none
  expiresAt := clock 0 + pendingActionTtl
  approvedAt := none
  processedAt := none

/-! ## Building blocks -/

/-- `_audit`, for a row whose status has already been changed from `oldStatus`. -/
def audit (action : PendingAction) (eventType : EventType) (oldStatus newStatus : ActionStatus)
    (actorUserId : Option UserId) (reason : Option String) (evidence : Evidence) :
    PendingActionAuditEvent where
  actionId := action.id
  actorUserId := actorUserId
  eventType := eventType
  oldStatus := oldStatus
  newStatus := newStatus
  attemptToken := action.attemptToken
  reason := reason
  evidence := storedEvidence evidence

/-- `_require_canonical_payload`; `none` is the `TypeError` or `ValueError`. -/
def requireCanonicalPayload (rules : PayloadRules) (action : PendingAction) : Option Json :=
  match rules.canonicalizeActionPayload action.actionType action.payload with
  | none => none
  | some payload =>
    if rules.makePayloadHash payload = action.payloadHash then some payload else none

/-- `_mark_reconciliation_required`, with its two readings of the clock. -/
def markReconciliationRequired (requiredAt processedAt : Time) (action : PendingAction)
    (reason : String) (evidence : Evidence) (actorUserId : Option UserId)
    (eventType : EventType) : Change :=
  let row := { action with
    status := .reconciliationRequired
    errorCode := some reason
    reconciliationReason := some reason
    reconciliationEvidence := storedEvidence evidence
    reconciliationRequiredAt := some requiredAt
    processedAt := some processedAt }
  ⟨row, [audit row eventType action.status .reconciliationRequired actorUserId (some reason)
    evidence]⟩

/-- The lease of a claimed row has run out at `now`. -/
def leaseExpired (action : PendingAction) (now : Time) : Bool :=
  match action.leaseExpiresAt with
  | none => true
  | some expiresAt => expiresAt ≤ now

/-! ## Owner transactions -/

/-- The locked select of an owner's own action. -/
def lockedForOwner (action : Option PendingAction) (userId : UserId) :
    Except ActionError PendingAction :=
  match action with
  | none => .error .notFound
  | some row => if row.userId = userId then .ok row else .error .notFound

/-- The row of a granted claim: the attempt and its lease start at `now`. -/
def PendingAction.granted (action : PendingAction) (now : Time) (token : String) : PendingAction :=
  { action with
    status := .processing
    approvedAt := some now
    attemptToken := some token
    attemptCount := action.attemptCount + 1
    attemptStartedAt := some now
    leaseExpiresAt := some (now + processingLease) }

/-- `claim_pending_action` on the locked row; the flag is the second component it returns. -/
def claimPendingAction (rules : PayloadRules) (clock : Clock) (token : String) (userId : UserId)
    (action : PendingAction) : Change × Bool :=
  let now := clock 0
  if action.status = .processing ∧ leaseExpired action now = true then
    (markReconciliationRequired (clock 1) (clock 2) action "processing_lease_expired"
      [("lease_expires_at", match action.leaseExpiresAt with
        | none => .none
        | some expiresAt => .instant expiresAt)]
      none .reconciliationRequired, false)
  else if action.status = .pending ∧ action.expiresAt ≤ now then
    let row := { action with status := .expired, processedAt := some now }
    (⟨row, [audit row .expired action.status .expired none none []]⟩, false)
  else if action.status ≠ .pending then (.unchanged action, false)
  else
    match requireCanonicalPayload rules action with
    | none =>
      (markReconciliationRequired (clock 1) (clock 2) action "payload_integrity_mismatch"
        [("payload_hash", .text action.payloadHash)] none .reconciliationRequired, false)
    | some _ =>
      let row := action.granted now token
      (⟨row, [audit row .claimed action.status .processing (some userId) none
        [("attempt_count", .number row.attemptCount)]]⟩, true)

/-- `reject_pending_action` on the locked row. -/
def rejectPendingAction (clock : Clock) (userId : UserId) (action : PendingAction) :
    Except ActionError Change :=
  if action.status = .pending then
    let row := { action with status := .rejected, processedAt := some (clock 0) }
    .ok ⟨row, [audit row .rejected action.status .rejected (some userId) none []]⟩
  else if action.status ≠ .rejected ∧ action.status ≠ .expired then .error .invalidState
  else .ok (.unchanged action)

/-- The update of `expire_stale_actions` on one row that it selects; `none` when it does not. -/
def expireStaleAction (current : Time) (action : PendingAction) : Option Change :=
  if action.status = .pending ∧ action.expiresAt ≤ current then
    some
      ⟨{ action with status := .expired, processedAt := some current },
        [{ actionId := action.id
           actorUserId := none
           eventType := .expired
           oldStatus := .pending
           newStatus := .expired
           attemptToken := none
           reason := some "swept_after_expiry"
           evidence := none }]⟩
  else none

/-! ## Finalization -/

/-- The statuses a finalizer asks for. -/
inductive FinalStatus
  | succeeded
  | failed
  | reconciliationRequired
  deriving DecidableEq

/-- The keyword arguments of `_finalize_claimed_action`. -/
structure FinalizeArgs where
  status : FinalStatus
  result : Option Json
  errorCode : Option String
  eventType : EventType
  evidence : Evidence

/-- `dict(result) if result else None`. -/
def storedResult (result : Option Json) : Option Json :=
  match result with
  | none => none
  | some value => if value.truthy then some value else none

/-- The branch of `_finalize_claimed_action` that records a definite outcome. -/
def recordOutcome (processedAt : Time) (status : ActionStatus) (args : FinalizeArgs)
    (row : PendingAction) : Change :=
  let row' := { row with
    status := status
    result := storedResult args.result
    errorCode := args.errorCode
    processedAt := some processedAt }
  ⟨row', [audit row' args.eventType row.status status none args.errorCode args.evidence]⟩

/-- `_finalize_claimed_action` on the locked row, for the attempt token of the finalizer. A row
that is not `processing` under that token is returned as it is. -/
def finalizeClaimedAction (clock : Clock) (attemptToken : String) (args : FinalizeArgs)
    (row : PendingAction) : Change :=
  if row.status = .processing ∧ row.attemptToken = some attemptToken then
    if leaseExpired row (clock 0) then
      markReconciliationRequired (clock 1) (clock 2) row "processing_lease_expired"
        [("finalizer", .text args.eventType.text)] none .reconciliationRequired
    else
      match args.status with
      | .reconciliationRequired =>
        markReconciliationRequired (clock 1) (clock 2) row
          (args.errorCode.getD "provider_outcome_unknown") args.evidence none args.eventType
      | .succeeded => recordOutcome (clock 1) .succeeded args row
      | .failed => recordOutcome (clock 1) .failed args row
  else .unchanged row

/-- The arguments of `finalize_pre_dispatch_failure`. -/
def preDispatchFailure (errorCode : String) : FinalizeArgs where
  status := .failed
  result := none
  errorCode := some errorCode
  eventType := .preDispatchFailed
  evidence := [("dispatch", .text "not_started")]

/-! ## Reconciliation -/

/-- `ReconciliationResult`. -/
structure ReconciliationResult where
  status : FinalStatus
  result : Option Json
  errorCode : Option String
  evidence : Evidence

/-- The first transaction of `reconcile_pending_action`. -/
def reconcilePromote (clock : Clock) (operatorUserId : UserId) (row : PendingAction) :
    Except ActionError Change :=
  if row.status = .processing ∧ leaseExpired row (clock 0) = true then
    .ok (markReconciliationRequired (clock 1) (clock 2) row "processing_lease_expired"
      [("promotion", .text "operator_reconciliation")] (some operatorUserId)
      .operatorPromotedExpiredLease)
  else if row.status ≠ .reconciliationRequired then .error .invalidState
  else .ok (.unchanged row)

/-- The second transaction of `reconcile_pending_action`, with the outcome of the lookup. -/
def reconcileFinish (clock : Clock) (operatorUserId : UserId) (outcome : ReconciliationResult)
    (row : PendingAction) : Change :=
  if row.status = .reconciliationRequired then
    let row' :=
      match outcome.status with
      | .succeeded =>
        { row with
          status := .succeeded
          result := outcome.result
          errorCode := none
          processedAt := some (clock 0) }
      | .failed =>
        { row with
          status := .failed
          result := none
          errorCode := outcome.errorCode
          processedAt := some (clock 0) }
      | .reconciliationRequired =>
        -- The state stays explicit; only evidence and reason are refreshed.
        { row with
          errorCode := outcome.errorCode
          reconciliationReason := outcome.errorCode
          reconciliationEvidence := some outcome.evidence
          reconciliationRequiredAt := some (clock 0) }
    ⟨row', [audit row' .operatorReconciled row.status row'.status (some operatorUserId)
      outcome.errorCode outcome.evidence]⟩
  else .unchanged row

end Onebox.PendingActions
