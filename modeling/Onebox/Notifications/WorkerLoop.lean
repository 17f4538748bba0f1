import Mathlib.Algebra.Order.Ring.Rat
import Onebox.Notifications.Progress
import Onebox.Notifications.Refinement

/-!
# The loop of the worker

`run_notification_worker` with `renew_automation_watch`, in any number of processes on the same
tables. What a process does to the tables are steps of the system of workers; which of them it
makes, and when, is up to its loop. In between mail arrives, notifications are posted, and others
renew the watch; calls fail, processes are asked to stop and are cancelled.

A process has a monotonic clock of its own, in seconds. What a cleanup deletes is not part of these
tables; here it is a call that returns or raises.
-/

namespace Onebox.Notifications

open Python Transition

/-! ## Settings -/

/-- The settings that the loop reads, with the bounds of their fields. -/
structure LoopEnv extends MailEnv where
  retentionCleanupIntervalSeconds : ℕ
  notificationPollSeconds : ℚ
  /-- `datetime.fromtimestamp(value / 1_000, tz=timezone.utc)`; `none` where it raises. -/
  fromTimestamp : ℕ → Option Time
  interval_bounds : 60 ≤ retentionCleanupIntervalSeconds ∧ retentionCleanupIntervalSeconds ≤ 86400
  poll_bounds : 0 < notificationPollSeconds ∧ notificationPollSeconds ≤ 60

/-- `error_delay`. -/
def LoopEnv.errorDelay (env : LoopEnv) : ℚ :=
  min (env.settings.retryBackoffInitialSeconds : ℚ) env.notificationPollSeconds

/-! ## States -/

/-- Where a call of `renew_automation_watch` is. -/
inductive RenewalPhase
  /-- Before `claim_watch_renewal` returns. -/
  | claiming
  /-- Before Google answers. -/
  | asking (leaseToken : LeaseToken)
  | completing (leaseToken : LeaseToken) (historyId : ℕ) (expiresAt : Time)
  | failing (leaseToken : LeaseToken) (errorCode : String)

/-- Where a process is in `run_notification_worker`. -/
inductive LoopPhase
  /-- At `stop_event.is_set()`. -/
  | checking
  /-- In `prune_retained_records`. -/
  | cleaning
  /-- Before `record_worker_heartbeat`. -/
  | beating
  | renewing (renewal : RenewalPhase)
  /-- Before `claim_notification_job`. -/
  | claiming
  /-- In `process_notification_job`. -/
  | processing
  /-- In `stop_event.wait()`, since and for how many seconds. -/
  | waiting (since timeout : ℚ)
  | returned
  | cancelled

/-- A process: its clock, and whether its `stop_event` is set. -/
structure Process where
  phase : LoopPhase
  monotonic : ℚ
  lastRetentionCleanup : ℚ
  stopped : Bool

/-- The tables with the workers, and the processes that run them. -/
structure Fleet where
  mail : MailWorld
  processes : ℕ → Process

/-! ## Watch renewal -/

/-- The steps of `renew_automation_watch`. -/
inductive RenewalEvent
  /-- `configured_automation_mailbox` raises. -/
  | unconfigured
  | claims (now : Time)
  | claimFails (committed : Bool) (now : Time)
  /-- `users.watch` answers. -/
  | answers (response : Json)
  | asksInVain (failure : ResyncFailure)
  | completes
  | completionFails (committed : Bool)
  | fails (now : Time)
  | failureFails (committed : Bool) (now : Time)

/-- The error code that is recorded for a failure. -/
def ResyncFailure.watchCode : ResyncFailure → String
  | credentialsUnavailable => "watch_credentials_unavailable"
  | providerUnavailable => "watch_provider_unavailable"
  | internal => "watch_internal"

/-- `_watch_expiration`. -/
def watchExpiration (env : LoopEnv) (value : Option Json) : Option Time :=
  match value with
  | some (.str s) =>
    match decimalDigits env.unicode s with
    | none => none
    | some digits =>
      if Bytes.maxStrDigits < digits.length then none
      else env.fromTimestamp (Nat.ofDigits 10 digits.reverse)
  | _ => none

/-- What follows the answer of `users.watch`. -/
def afterWatch (env : LoopEnv) (leaseToken : LeaseToken) (response : Json) : RenewalPhase :=
  if (orEmpty response).isDict then
    match historyId env.unicode ((orEmpty response).get? "historyId") with
    | .error _ => .failing leaseToken "watch_internal"
    | .ok historyId =>
      match historyId, watchExpiration env ((orEmpty response).get? "expiration") with
      | some historyId, some expiresAt => .completing leaseToken historyId expiresAt
      | _, _ => .failing leaseToken "watch_response_invalid"
  -- `.get` raises on what is neither empty nor an object.
  else .failing leaseToken "watch_internal"

/-- A transaction that is reported as failed, whether or not it was committed. -/
def unlessLost (committed : Bool) (label : MailLabel) : List MailLabel :=
  if committed then [label] else []

/-- One step of a renewal: the transactions it commits, and where it goes on, if it does. -/
def RenewalPhase.step (env : LoopEnv) (w : MailWorld) (phase : RenewalPhase) :
    RenewalEvent → Option (List MailLabel × Option RenewalPhase)
  | .unconfigured =>
    match phase with
    | .claiming => some ([], none)
    | _ => none
  | .claims now =>
    match phase with
    | .claiming =>
      some ([.claimWatch now], (claimWatchRenewal env.settings w.jobs now).2.map .asking)
    | _ => none
  | .claimFails committed now =>
    match phase with
    | .claiming => some (unlessLost committed (.claimWatch now), none)
    | _ => none
  | .answers response =>
    match phase with
    | .asking leaseToken => some ([], some (afterWatch env leaseToken response))
    | _ => none
  | .asksInVain failure =>
    match phase with
    | .asking leaseToken => some ([], some (.failing leaseToken failure.watchCode))
    | _ => none
  | .completes =>
    match phase with
    | .completing leaseToken historyId expiresAt =>
      some ([.completeWatch leaseToken historyId expiresAt], none)
    | _ => none
  | .completionFails committed =>
    match phase with
    | .completing leaseToken historyId expiresAt =>
      some (unlessLost committed (.completeWatch leaseToken historyId expiresAt),
        some (.failing leaseToken "watch_internal"))
    | _ => none
  | .fails now =>
    match phase with
    | .failing leaseToken errorCode => some ([.failWatch now leaseToken errorCode], none)
    | _ => none
  | .failureFails committed now =>
    match phase with
    | .failing leaseToken errorCode =>
      some (unlessLost committed (.failWatch now leaseToken errorCode), none)
    | _ => none

/-! ## One process -/

/-- The steps of a process. -/
inductive LoopEvent
  /-- Its clock goes on. -/
  | passes (reading : ℚ)
  /-- The `stop_event` is not set, and an iteration begins. -/
  | begins
  /-- The `stop_event` is set. -/
  | returns
  | cleans
  | cleaningFails
  | beats (now : Time)
  | beatingFails (committed : Bool) (now : Time)
  | renews (event : RenewalEvent)
  /-- `claim_notification_job` has found a job. -/
  | claims (id : JobId) (clock : ℕ → Time)
  | claimsNothing
  /-- `claim_notification_job` raises, what it was about to do with a job being committed or not. -/
  | claimingFails (committed : Option (JobId × (ℕ → Time)))
  | works (event : WorkerEvent)
  | timesOut
  /-- The wait ends because the event is set. -/
  | wakes
  /-- Another task sets the `stop_event`. -/
  | isStopped
  | isCancelled

/-- What a step of a process commits, and the process after it. -/
structure LoopResult where
  calls : List MailLabel
  process : Process

namespace Process

def goto (p : Process) (phase : LoopPhase) : LoopResult := ⟨[], { p with phase := phase }⟩

/-- A step that commits transactions. -/
def commit (p : Process) (calls : List MailLabel) (phase : LoopPhase) : LoopResult :=
  ⟨calls, { p with phase := phase }⟩

/-- The handler of the exceptions of an iteration. -/
def afterError (env : LoopEnv) (p : Process) : LoopPhase := .waiting p.monotonic env.errorDelay

/-- The end of an iteration without a job. -/
def afterNothing (env : LoopEnv) (p : Process) : LoopPhase :=
  .waiting p.monotonic env.notificationPollSeconds

/-- A claim that was committed and then lost: its worker goes, the lease stays. -/
def lostClaim (env : LoopEnv) (w : MailWorld) (n : ℕ) (id : JobId) (clock : ℕ → Time) :
    List MailLabel :=
  .claimJob n id clock ::
    match claimNotificationJob env.settings w.jobs id clock with
    | some (_, some _) => [.work n .abandon]
    | _ => []

/-- One step of the `n`-th process. -/
def step (env : LoopEnv) (w : MailWorld) (n : ℕ) (p : Process) : LoopEvent → Option LoopResult
  | .passes reading =>
    if p.monotonic ≤ reading then some ⟨[], { p with monotonic := reading }⟩ else none
  | .begins =>
    match p.phase with
    | .checking =>
      if p.stopped then none
      -- The clock is read here, and once more when the cleanup has returned.
      else if (env.retentionCleanupIntervalSeconds : ℚ) ≤ p.monotonic - p.lastRetentionCleanup then
        some (p.goto .cleaning)
      else some (p.goto .beating)
    | _ => none
  | .returns =>
    match p.phase with
    | .checking => if p.stopped then some (p.goto .returned) else none
    | _ => none
  | .cleans =>
    match p.phase with
    | .cleaning => some ⟨[], { p with phase := .beating, lastRetentionCleanup := p.monotonic }⟩
    | _ => none
  | .cleaningFails =>
    match p.phase with
    | .cleaning => some (p.goto (p.afterError env))
    | _ => none
  | .beats now =>
    match p.phase with
    | .beating => some (p.commit [.heartbeat now] (.renewing .claiming))
    | _ => none
  | .beatingFails committed now =>
    match p.phase with
    | .beating => some (p.commit (unlessLost committed (.heartbeat now)) (p.afterError env))
    | _ => none
  | .renews event =>
    match p.phase with
    | .renewing renewal =>
      match renewal.step env w event with
      | none => none
      | some (calls, none) => some (p.commit calls .claiming)
      | some (calls, some renewal) => some (p.commit calls (.renewing renewal))
    | _ => none
  | .claims id clock =>
    match p.phase with
    | .claiming =>
      match claimNotificationJob env.settings w.jobs id clock with
      | none => none
      -- The claim has settled the row itself (an expired lease, no attempts left).
      | some (_, none) => some (p.commit [.claimJob n id clock] (p.afterNothing env))
      | some (_, some _) => some (p.commit [.claimJob n id clock] .processing)
    | _ => none
  | .claimsNothing =>
    match p.phase with
    | .claiming => some (p.goto (p.afterNothing env))
    | _ => none
  | .claimingFails committed =>
    match p.phase with
    | .claiming =>
      match committed with
      | none => some (p.goto (p.afterError env))
      | some (id, clock) => some (p.commit (lostClaim env w n id clock) (p.afterError env))
    | _ => none
  | .works event =>
    match p.phase with
    | .processing =>
      -- Every exception of `process_notification_job` is caught: the loop goes on.
      match event with
      | .abandon => none
      | event =>
        match (w.workers n).bind (w.workerStep env.toMailEnv · event) with
        | none => none
        | some result =>
          some (p.commit [.work n event] (if result.phase.isSome then .processing else .checking))
    | _ => none
  | .timesOut =>
    match p.phase with
    | .waiting since timeout =>
      if since + timeout ≤ p.monotonic then some (p.goto .checking) else none
    | _ => none
  | .wakes =>
    match p.phase with
    | .waiting _ _ => if p.stopped then some (p.goto .checking) else none
    | _ => none
  | .isStopped => some ⟨[], { p with stopped := true }⟩
  | .isCancelled =>
    match p.phase with
    | .returned | .cancelled => none
    | .processing => some (p.commit [.work n .abandon] .cancelled)
    | _ => some (p.goto .cancelled)

end Process

/-! ## The system -/

/-- Transactions, one after the other, with what they reply. -/
def MailWorld.perform (env : MailEnv) :
    MailWorld → List MailLabel → Option (MailWorld × List (MailLabel × Reply))
  | w, [] => some (w, [])
  | w, label :: labels =>
    match w.step env label with
    | none => none
    | some (w, reply) =>
      match perform env w labels with
      | none => none
      | some (w, made) => some (w, (label, reply) :: made)

/-- What others than the processes do: mail arrives and leaves, notifications are posted, and the
route renews the watch. -/
def MailLabel.isOutside : MailLabel → Bool
  | arrive _ _ | touch _ | remove _ | claimWatch _ | completeWatch _ _ _ | failWatch _ _ _
  | enqueue _ _ _ _ => true
  | heartbeat _ | claimJob _ _ _ | work _ _ => false

/-- The steps of the system. -/
inductive FleetLabel
  | outside (label : MailLabel)
  | run (n : ℕ) (event : LoopEvent)

namespace Fleet

/-- One step. It replies what it has done to the tables. -/
def step (env : LoopEnv) (f : Fleet) : FleetLabel → Option (Fleet × List (MailLabel × Reply))
  | .outside label =>
    if label.isOutside then
      (f.mail.perform env.toMailEnv [label]).map fun (mail, made) ↦ ({ f with mail := mail }, made)
    else none
  | .run n event =>
    match (f.processes n).step env f.mail n event with
    | none => none
    | some result =>
      (f.mail.perform env.toMailEnv result.calls).map fun (mail, made) ↦
        (⟨mail, Function.update f.processes n result.process⟩, made)

end Fleet

/-- The processes, from their start on empty tables on. -/
def workerLoops (env : LoopEnv) : System Fleet FleetLabel (List (MailLabel × Reply)) where
  init f := (mailWorkers env.toMailEnv).init f.mail ∧ ∀ n, (f.processes n).phase = .checking ∧
    (f.processes n).lastRetentionCleanup = 0 ∧ (f.processes n).stopped = false
  step := Fleet.step env

end Onebox.Notifications
