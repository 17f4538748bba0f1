import Mathlib.Data.List.Sort
import Onebox.Notifications.TriageTable
import Onebox.Notifications.Tables
import Onebox.PendingActions.Lifecycle
import Onebox.Tables.Rows

/-!
# Retention

`cleanup_retained_records` sweeps the proposals that nobody approved in time, in batches, and then
deletes the records that have been over for long enough. The sweep skips rows that others hold
locked; a deletion waits for them. The calls of the action, job and triage services are those of
their own systems, here on one database with the ids of its rows next to the tables.
-/

namespace Onebox.Retention

open Python Transition Tables PendingActions Notifications

/-! ## Settings -/

/-- The retention settings, with the bounds of their fields, and `_EXPIRY_SWEEP_BATCH`. -/
structure RetentionSettings where
  pendingActionRetentionDays : ℕ := 30
  gmailJobRetentionDays : ℕ := 14
  gmailTriageRetentionDays : ℕ := 14
  expirySweepBatch : ℕ := 500
  actions_bounds : 1 ≤ pendingActionRetentionDays ∧ pendingActionRetentionDays ≤ 3650 := by decide
  jobs_bounds : 1 ≤ gmailJobRetentionDays ∧ gmailJobRetentionDays ≤ 3650 := by decide
  triage_bounds : 1 ≤ gmailTriageRetentionDays ∧ gmailTriageRetentionDays ≤ 3650 := by decide
  batch_pos : 0 < expirySweepBatch := by decide

/-- The `order_by` of the sweep. -/
def ExpiresNoLater (row row' : PendingAction) : Prop := row.expiresAt ≤ row'.expiresAt

instance : DecidableRel ExpiresNoLater := fun row row' ↦ Nat.decLe row.expiresAt row'.expiresAt

instance : Std.Total ExpiresNoLater := ⟨fun row row' ↦ Nat.le_total row.expiresAt row'.expiresAt⟩

instance : IsTrans PendingAction ExpiresNoLater := ⟨fun _ _ _ ↦ Nat.le_trans⟩

/-- What a statement leaves to the database: how rows that expire at the same time are ordered, and
in which order an update returns its rows. -/
structure QueryPlan where
  sort : List PendingAction → List PendingAction
  sort_perm : ∀ rows, (sort rows).Perm rows
  sort_sorted : ∀ rows, (sort rows).Pairwise ExpiresNoLater
  returned : List ActionId → List ActionId
  returned_perm : ∀ ids, (returned ids).Perm ids

/-- Rows that expire at the same time stay in the order of insertion. -/
def QueryPlan.stable : QueryPlan where
  sort := List.insertionSort ExpiresNoLater
  sort_perm := List.perm_insertionSort ExpiresNoLater
  sort_sorted := List.pairwise_insertionSort ExpiresNoLater
  returned ids := ids
  returned_perm := List.Perm.refl

/-! ## The sweep -/

/-- The `where` clause of the select, on rows that are not locked. -/
def staleUnlocked (locked : ActionId → Bool) (current : Time) (row : PendingAction) : Bool :=
  row.status = .pending ∧ row.expiresAt ≤ current ∧ locked row.id = false

/-- One round of `expire_stale_actions`: the update, with its audit events, and how many rows it
returns. -/
def sweepBatch (limit : ℕ) (plan : QueryPlan) (locked : ActionId → Bool) (current : Time)
    (ids : List ActionId) (s : ActionStore) : ActionStore × ℕ :=
  let stale := plan.sort ((ids.filterMap s.rows).filter (staleUnlocked locked current))
  let actionIds := plan.returned ((stale.take limit).map (·.id))
  (s.sweep current actionIds, actionIds.length)

/-- `expire_stale_actions`, with the number of rows it has swept. -/
def expireStaleActions (limit : ℕ) (plan : QueryPlan) (locked : ActionId → Bool)
    (now : Option Time) (clock : Clock) (fuel : ℕ) (ids : List ActionId) (s : ActionStore) :
    Option (ActionStore × ℕ) :=
  let current := now.getD (clock 0)
  drain (sweepBatch limit plan locked current ids) limit fuel 0 s

/-! ## Deletions -/

/-- `_RESOLVED_ACTION_STATUSES`. -/
def resolvedActionStatuses : List ActionStatus := [.succeeded, .failed, .rejected, .expired]

/-- `_TERMINAL_JOB_STATES`. -/
def terminalJobStates : List JobState := [.succeeded, .deadLetter]

/-- `_TERMINAL_TRIAGE_STATES`. -/
def terminalTriageStates : List TriageState := [.succeeded, .noop, .deadLetter]

/-- The `where` clause of a deletion. -/
def deletable {σ : Type} [DecidableEq σ] (states : List σ) (cutoff : Time) (state : σ)
    (processedAt : Option Time) : Bool :=
  decide (state ∈ states) && processedAt.any (· < cutoff)

def deletableAction (cutoff : Time) (row : PendingAction) : Bool :=
  deletable resolvedActionStatuses cutoff row.status row.processedAt

def deletableJob (cutoff : Time) (job : GmailNotificationJob) : Bool :=
  deletable terminalJobStates cutoff job.state job.processedAt

def deletableTriage (cutoff : Time) (record : TriageRecord) : Bool :=
  deletable terminalTriageStates cutoff record.work.state record.work.processedAt

/-- The tables, with the ids of the rows of those that are given by their ids. -/
structure Database where
  actions : ActionStore
  actionIds : List ActionId
  mail : MailTables
  jobIds : List JobId
  triage : TriageTableWorld

namespace Database

/-- The audit events of an action are deleted with it. -/
def deleteActions (d : Database) (cutoff : Time) : Database × ℕ :=
  let deleted := keysWhere d.actions.rows d.actionIds (deletableAction cutoff)
  ({ d with
      actions :=
        { rows := deleteWhere d.actions.rows (deletableAction cutoff)
          audit := d.actions.audit.filter (·.actionId ∉ deleted) }
      actionIds := keysLeft d.actions.rows d.actionIds (deletableAction cutoff) },
    deleted.length)

/-- The unique index forgets the jobs that are deleted. -/
def deleteJobs (d : Database) (cutoff : Time) : Database × ℕ :=
  let deleted := keysWhere d.mail.store.jobs d.jobIds (deletableJob cutoff)
  ({ d with
      mail := d.mail.setStore { d.mail.store with
        jobs := deleteWhere d.mail.store.jobs (deletableJob cutoff)
        pubsubIndex := fun pubsubMessageId ↦
          (d.mail.store.pubsubIndex pubsubMessageId).filter (· ∉ deleted) }
      jobIds := keysLeft d.mail.store.jobs d.jobIds (deletableJob cutoff) },
    deleted.length)

def deleteTriage (d : Database) (cutoff : Time) : Database × ℕ :=
  let records := d.triage.table.records
  ({ d with
      triage := { d.triage with table := { d.triage.table with
        records := records.filter fun record ↦ !deletableTriage cutoff record } } },
    records.countP (deletableTriage cutoff))

/-- The three deletions of `cleanup_retained_records`, with their row counts. -/
def deleteOld (settings : RetentionSettings) (current : Time) (d : Database) :
    Database × ℕ × ℕ × ℕ :=
  let actionsCutoff := current - days settings.pendingActionRetentionDays
  let jobsCutoff := current - days settings.gmailJobRetentionDays
  let triageCutoff := current - days settings.gmailTriageRetentionDays
  let actions := d.deleteActions actionsCutoff
  let jobs := actions.1.deleteJobs jobsCutoff
  let triage := jobs.1.deleteTriage triageCutoff
  (triage.1, actions.2, jobs.2, triage.2)

end Database

/-- `RetentionCleanupResult`. -/
structure RetentionCleanupResult where
  pendingActions : ℕ
  notificationJobs : ℕ
  triageWork : ℕ
  expiredActions : ℕ
  deriving DecidableEq

/-- `cleanup_retained_records`, with the rows of `pending_actions` that others hold locked. -/
def cleanupRetainedRecords (settings : RetentionSettings) (plan : QueryPlan)
    (locked : ActionId → Bool) (now : Option Time) (clock : Clock) (fuel : ℕ) (d : Database) :
    Option (Database × RetentionCleanupResult) :=
  let current := now.getD (clock 0)
  match expireStaleActions settings.expirySweepBatch plan locked (some current) clock fuel
      d.actionIds d.actions with
  | none => none
  | some (actions, expiredActions) =>
    let deleted := { d with actions := actions }.deleteOld settings current
    some (deleted.1, ⟨deleted.2.1, deleted.2.2.1, deleted.2.2.2, expiredActions⟩)

/-! ## The database under all calls -/

inductive DatabaseCall
  | action (call : StoreCall)
  | job (call : TableCall)
  | triage (call : TriageTableCall)
  | cleanup (plan : QueryPlan) (locked : ActionId → Bool) (now : Option Time) (clock : Clock)
      (fuel : ℕ)

inductive DatabaseReply
  | action (reply : PendingActions.Reply)
  | job (reply : TableReply)
  | triage (answer : TriageTableAnswer)
  | cleanup (result : RetentionCleanupResult)

/-- The id under which a call inserts a row, if it inserts one. -/
def insertedAction : StoreCall → Option ActionId
  | .create id _ _ _ _ _ => some id
  | _ => none

def insertedJob : TableCall → Option JobId
  | .insertJob id _ _ _ => some id
  | _ => none

namespace Database

def step (rules : PayloadRules) (settings : Settings) (retention : RetentionSettings)
    (d : Database) : DatabaseCall → Option (Database × DatabaseReply)
  | .action call =>
    match d.actions.step rules call with
    | none => none
    | some (store, reply) =>
      some ({ d with
        actions := store
        actionIds := keysAfter store.rows d.actionIds (insertedAction call) }, .action reply)
  | .job call =>
    match d.mail.step settings call with
    | none => none
    | some (mail, reply) =>
      some ({ d with
        mail := mail
        jobIds := keysAfter mail.store.jobs d.jobIds (insertedJob call) }, .job reply)
  | .triage call =>
    match d.triage.step settings call with
    | none => none
    | some (triage, answer) => some ({ d with triage := triage }, .triage answer)
  | .cleanup plan locked now clock fuel =>
    match cleanupRetainedRecords retention plan locked now clock fuel d with
    | none => none
    | some (d, result) => some (d, .cleanup result)

end Database

/-- The database, from empty tables on. -/
def database (rules : PayloadRules) (settings : Settings) (retention : RetentionSettings) :
    System Database DatabaseCall DatabaseReply where
  init d := (∀ id, d.actions.rows id = none) ∧ d.actions.audit = [] ∧ d.actionIds = [] ∧
    (mailTables settings).init d.mail ∧ d.jobIds = [] ∧ d.triage.table.records = [] ∧
    ∀ n, d.triage.pending n = none
  step := Database.step rules settings retention

end Onebox.Retention
