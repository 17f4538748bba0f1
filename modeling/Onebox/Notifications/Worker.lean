import Onebox.Notifications.History
import Onebox.Notifications.Jobs
import Onebox.Notifications.Triage
import Onebox.Transition.System

/-!
# The notification worker

The durable tables, the Gmail mailbox, and any number of workers that claim notification jobs and
run `process_notification_job`. A worker's phase says between which two database transactions or
provider calls it is; the other workers, the provider and the watch renewals move in between.

Gmail is modelled by the messages added to the inbox, each at a history id of its own, and by the
answers it gives about them.
-/

namespace Onebox.Notifications

open Python Transition

/-! ## Gmail -/

/-- The mailbox as Gmail knows it. -/
structure Gmail where
  /-- The messages added, in order, each with the history id of its addition. -/
  arrivals : List (ℕ × MessageId)
  /-- The current history id. -/
  historyId : ℕ
  /-- The messages that have left the inbox. -/
  removed : List MessageId

/-- History ids are positive and increase with every change. -/
structure Gmail.WellFormed (g : Gmail) : Prop where
  sorted : g.arrivals.Pairwise (·.1 < ·.1)
  pos : ∀ entry ∈ g.arrivals, 0 < entry.1
  le_historyId : ∀ entry ∈ g.arrivals, entry.1 ≤ g.historyId
  ids : ∀ entry ∈ g.arrivals, entry.2 ≠ ""

namespace Gmail

/-- The messages in the inbox, oldest first. -/
def inbox (g : Gmail) : List (ℕ × MessageId) := g.arrivals.filter fun entry ↦ entry.2 ∉ g.removed

/-- A message is added to the inbox. -/
def arrive (g : Gmail) (hid : ℕ) (messageId : MessageId) : Option Gmail :=
  if g.historyId < hid ∧ messageId ≠ "" ∧ messageId ∉ g.arrivals.map Prod.snd then
    some { g with arrivals := g.arrivals ++ [(hid, messageId)], historyId := hid }
  else none

/-- Something else changes. -/
def touch (g : Gmail) (hid : ℕ) : Option Gmail :=
  if g.historyId < hid then some { g with historyId := hid } else none

/-- A message leaves the inbox. -/
def remove (g : Gmail) (messageId : MessageId) : Gmail :=
  { g with removed := messageId :: g.removed }

/-- A page of `messages.list`: its items, and where the listing goes on. -/
structure InboxPage where
  newest : ℕ
  messages : List (ℕ × MessageId)
  nextPageToken : Option PageToken

/-- `messages.list`: the inbox newest first, `size` messages of it, from where `pageToken` left
off. -/
def listInbox (g : Gmail) (pageToken : Option PageToken) (size : ℕ) : InboxPage :=
  let newest := (pageToken.map PageToken.newest).getD g.historyId
  let rest := match pageToken with
    | none => g.inbox.reverse
    | some token => g.inbox.reverse.filter fun entry ↦ entry.1 ≤ token.resumeAt
  { newest := newest
    messages := rest.take size
    nextPageToken := (rest.drop size).head?.map fun entry ↦ ⟨newest, entry.1⟩ }

/-- The pages answer `history.list` from `start`: they mention exactly the messages added after
`start` up to the history id of the last page, and show no later one. -/
def showsHistory (g : Gmail) (unicode : UnicodeData) (start : ℕ) (pages : List Json) : Bool :=
  match pages.getLast?.bind (pageHistoryId unicode) with
  | none => false
  | some last =>
    let mentioned := pages.flatMap mentionedMessages
    decide (last ≤ g.historyId)
      && g.arrivals.all (fun entry ↦
        !(decide (start < entry.1) && decide (entry.1 ≤ last)) || mentioned.contains entry.2)
      && mentioned.all (fun messageId ↦ g.arrivals.any fun entry ↦
        decide (start < entry.1) && decide (entry.1 ≤ last) && entry.2 == messageId)
      && (pages.flatMap (shownIds unicode)).all fun shown ↦ decide (shown ≤ last)

end Gmail

/-- The message ids of an inbox page, as `_bounded_resync` reads them off its items. -/
def usableMessageIds (items : List Json) : List MessageId :=
  (items.filterMap fun item ↦
    match item.get? "id" with
    | some (.str messageId) => if messageId = "" then none else some messageId
    | _ => none).eraseDups

/-- The items of an inbox page. -/
def inboxItems (page : Gmail.InboxPage) : List Json :=
  page.messages.map fun entry ↦ .obj [("id", .str entry.2)]

/-! ## One worker -/

/-- A page of the inbox with the message ids read off it. -/
structure ListedPage where
  newest : ℕ
  messageIds : List MessageId
  nextPageToken : Option PageToken

/-- The message being triaged. -/
abbrev CurrentTriage := Option (MessageId × TriageCall)

/-- Where a worker is in `process_notification_job`. -/
inductive WorkerPhase
  | claimed
  | claimingResync (sourceHistoryId : ℕ)
  | listingInbox (resync : ClaimedMailboxResync) (sourceHistoryId : ℕ)
  | triagingInbox (resync : ClaimedMailboxResync) (sourceHistoryId : ℕ) (page : ListedPage)
      (pending : List MessageId) (current : CurrentTriage)
  | readingProfile (resync : ClaimedMailboxResync) (newest : ℕ)
  | completingResync (resync : ClaimedMailboxResync) (historyCursor : ℕ)
  | checkpointing (resync : ClaimedMailboxResync) (nextPageToken : PageToken)
      (processedCount : ℕ)
  | requiringManual (resync : ClaimedMailboxResync)
  | releasing (resync : ClaimedMailboxResync) (errorCode : String)
  | listingHistory (start : ℕ)
  | triagingHistory (start final : ℕ) (pending : List MessageId) (current : CurrentTriage)
  /-- All history is triaged; `max(final_cursor, claim.history_id)` is next. -/
  | advancing (start final : ℕ)
  | completing (historyCursor : ℕ)
  | failing (args : FailArgs)
  | requeueing (errorCode : String) (immediately : Bool)
  | deadLettering (errorCode : String)

/-- A worker with its job. -/
structure Worker where
  claim : ClaimedNotificationJob
  phase : WorkerPhase

/-- The exceptions that `process_notification_job` tells apart around `_bounded_resync`. -/
inductive ResyncFailure
  | credentialsUnavailable
  | providerUnavailable
  | internal

/-- The error code recorded for a failure. -/
def ResyncFailure.code : ResyncFailure → String
  | credentialsUnavailable => "credentials_unavailable"
  | providerUnavailable => "resync_unavailable"
  | internal => "resync_internal"

/-- The steps of a worker. -/
inductive WorkerEvent
  | readMailbox
  /-- The next database transaction. -/
  | transact (clock : ℕ → Time)
  /-- The next transaction is reported as failed, whether or not it was committed. -/
  | databaseFails (committed : Bool) (clock : ℕ → Time)
  /-- The service is built and `messages.list` answers with `size` messages. -/
  | listInbox (size : ℕ)
  | resyncFails (failure : ResyncFailure)
  /-- The loop over the messages takes the next one, or ends. -/
  | takeMessage
  | triage (event : TriageEvent)
  /-- `_triage_message` is over. -/
  | triaged
  | readProfile
  /-- `getProfile` answers without a usable history id. -/
  | profileInvalid
  /-- The service is built and `history.list` answers, or fails. -/
  | listHistory (responses : List (Except HistoryFailure Json))
  /-- The worker is cancelled, or its process dies. -/
  | abandon

/-- What a step tells its caller. -/
inductive Reply
  | none
  /-- `complete_job_and_advance_cursor` returned `True`. -/
  | advanced (before after : ℕ)
  /-- `complete_bounded_resync` returned `True`. -/
  | recovered (historyCursor : ℕ)

/-- What is fixed: the settings and the Unicode database. -/
structure MailEnv where
  settings : Settings
  unicode : UnicodeData

/-- The tables, Gmail, the messages that listings have returned so far, and the workers. -/
structure MailWorld where
  jobs : JobStore
  triage : TriageStore
  gmail : Gmail
  listed : List MessageId
  workers : ℕ → Option Worker

/-- The result of a worker's step: the tables, the ids that a listing returned, and where the
worker goes on, if it does. -/
structure StepResult where
  jobs : JobStore
  triage : TriageStore
  listed : List MessageId
  phase : Option WorkerPhase
  reply : Reply

namespace MailWorld

/-- A step that only moves on. -/
def goto (w : MailWorld) (phase : WorkerPhase) : StepResult :=
  ⟨w.jobs, w.triage, [], some phase, .none⟩

/-- A step that commits a transaction on jobs and mailbox. -/
def commit (w : MailWorld) (jobs : JobStore) (phase : Option WorkerPhase) : StepResult :=
  ⟨jobs, w.triage, [], phase, .none⟩

/-- `process_notification_job` from its first read of the mailbox on. -/
def afterMailboxRead (claim : ClaimedNotificationJob) :
    Option GmailMailboxState → WorkerPhase
  | none => .failing { errorCode := "mailbox_state_missing", deadLetter := true }
  | some state =>
    if state.resyncState ≠ .idle ∨ state.resyncRequired = true then
      if state.resyncState = .manualRequired then .deadLettering "resync_manual_required"
      else .claimingResync (cursorOr state.historyCursor 1)
    else
      match state.historyCursor with
      | none =>
        -- The watch baseline must be persisted first.
        .failing
          { errorCode := "history_cursor_missing", deadLetter := true, requireResync := true }
      | some cursor =>
        if claim.historyId ≤ cursor then .completing cursor else .listingHistory cursor

/-- The handlers of the exceptions of `_history_message_ids`. -/
def afterHistoryFailure : HistoryFailure → FailArgs
  | .workLimitExceeded => { errorCode := "history_work_limit_reached", requireResync := true }
  | .rejected statusCode =>
    if statusCode = some 404 then { errorCode := "history_cursor_expired", requireResync := true }
    else { errorCode := "history_rejected", deadLetter := true }
  | .credentialsUnavailable => { errorCode := "credentials_unavailable" }
  | .providerUnavailable => { errorCode := "history_unavailable" }
  | .internal => { errorCode := "history_internal" }

/-- `_bounded_resync` from the end of its loop on. -/
def afterInboxPage (settings : Settings) (resync : ClaimedMailboxResync) (page : ListedPage) :
    WorkerPhase :=
  match page.nextPageToken with
  | some token =>
    if settings.resyncMaxMessages ≤ resync.messageCount + page.messageIds.length then
      .requiringManual resync
    else .checkpointing resync token page.messageIds.length
  | none => .readingProfile resync page.newest

/-- A completed job. -/
def advance (settings : Settings) (w : MailWorld) (clock : ℕ → Time)
    (claim : ClaimedNotificationJob) (historyCursor : ℕ) : StepResult :=
  let result := completeJobAndAdvanceCursor settings w.jobs clock claim historyCursor
  { jobs := result.1
    triage := w.triage
    listed := []
    phase := none
    reply := if result.2 then .advanced w.jobs.cursor result.1.cursor else .none }

/-- The next database transaction of a worker. -/
def transact (settings : Settings) (w : MailWorld) (claim : ClaimedNotificationJob)
    (clock : ℕ → Time) : WorkerPhase → Option StepResult
  | .claimingResync sourceHistoryId =>
    let result := claimMailboxResync settings w.jobs clock
    match result.2 with
    | none => some (w.commit result.1 (some (.requeueing "resync_waiting" false)))
    | some resync => some (w.commit result.1 (some (.listingInbox resync sourceHistoryId)))
  | .completingResync resync historyCursor =>
    let result := completeBoundedResync w.jobs resync historyCursor
    if result.2 then
      some { w.commit result.1 (some (.completing claim.historyId)) with
        reply := .recovered historyCursor }
    else some (w.commit result.1 (some (.requeueing "resync_lease_lost" false)))
  | .checkpointing resync token processedCount =>
    let result := checkpointBoundedResync w.jobs clock resync token processedCount
    some (w.commit result.1 (some (if result.2 then .requeueing "resync_checkpointed" true
      else .requeueing "resync_lease_lost" false)))
  | .requiringManual resync =>
    let result := requireManualResync w.jobs resync "resync_total_limit_reached"
    some (w.commit result.1 (some (if result.2 then .deadLettering "resync_total_limit_reached"
      else .requeueing "resync_lease_lost" false)))
  | .releasing resync errorCode =>
    some (w.commit (releaseMailboxResync settings w.jobs clock resync errorCode).1
      (some (.requeueing errorCode false)))
  | .advancing _ final => some (w.advance settings clock claim (max final claim.historyId))
  | .completing historyCursor => some (w.advance settings clock claim historyCursor)
  | .failing args => some (w.commit (failJob settings w.jobs clock claim args) none)
  | .requeueing errorCode immediately =>
    some (w.commit (requeueJob settings w.jobs clock claim errorCode
      (if immediately then some (clock 1) else none)) none)
  | .deadLettering errorCode =>
    some (w.commit (deadLetterJob w.jobs clock claim errorCode) none)
  | .claimed | .listingInbox _ _ | .triagingInbox _ _ _ _ _ | .readingProfile _ _
  | .listingHistory _ | .triagingHistory _ _ _ _ => none

/-- Where a worker goes on when its transaction is reported as failed: inside `_bounded_resync` the
recovery is released, elsewhere the job's lease runs out. -/
def afterDatabaseError : WorkerPhase → Option WorkerPhase
  | .completingResync resync _ | .checkpointing resync _ _ | .requiringManual resync =>
    some (.releasing resync "resync_internal")
  | _ => none

/-- One step of a worker. -/
def workerStep (env : MailEnv) (w : MailWorld) (worker : Worker) :
    WorkerEvent → Option StepResult
  | .readMailbox =>
    match worker.phase with
    | .claimed => some (w.goto (afterMailboxRead worker.claim w.jobs.mailbox))
    | _ => none
  | .transact clock => w.transact env.settings worker.claim clock worker.phase
  | .databaseFails committed clock =>
    match w.transact env.settings worker.claim clock worker.phase with
    | none => none
    | some result =>
      some (w.commit (if committed then result.jobs else w.jobs)
        (afterDatabaseError worker.phase))
  | .listInbox size =>
    match worker.phase with
    | .listingInbox resync sourceHistoryId =>
      if env.settings.resyncMaxMessages ≤ resync.messageCount then
        some (w.goto (.requiringManual resync))
      else if size ≤ min 100 (env.settings.resyncMaxMessages - resync.messageCount) then
        let page := w.gmail.listInbox resync.pageToken size
        let messageIds := usableMessageIds (inboxItems page)
        some { w.goto (.triagingInbox resync sourceHistoryId
            ⟨page.newest, messageIds, page.nextPageToken⟩ messageIds none) with
          listed := messageIds }
      else none
    | _ => none
  | .resyncFails failure =>
    match worker.phase with
    | .listingInbox resync _ | .readingProfile resync _ =>
      some (w.goto (.releasing resync failure.code))
    | _ => none
  | .takeMessage =>
    match worker.phase with
    | .triagingInbox resync sourceHistoryId page (messageId :: pending) none =>
      some (w.goto (.triagingInbox resync sourceHistoryId page pending
        (some (messageId, .claiming))))
    | .triagingInbox resync _ page [] none =>
      some (w.goto (afterInboxPage env.settings resync page))
    | .triagingHistory start final (messageId :: pending) none =>
      some (w.goto (.triagingHistory start final pending (some (messageId, .claiming))))
    | .triagingHistory start final [] none => some (w.goto (.advancing start final))
    | _ => none
  | .triage event =>
    match worker.phase with
    | .triagingInbox resync sourceHistoryId page pending (some (messageId, call)) =>
      match call.step env.settings w.triage messageId sourceHistoryId event with
      | none => none
      | some (triage, call) =>
        some { w.goto (.triagingInbox resync sourceHistoryId page pending
          (some (messageId, call))) with triage := triage }
    | .triagingHistory start final pending (some (messageId, call)) =>
      match call.step env.settings w.triage messageId final event with
      | none => none
      | some (triage, call) =>
        some { w.goto (.triagingHistory start final pending (some (messageId, call))) with
          triage := triage }
    | _ => none
  | .triaged =>
    match worker.phase with
    | .triagingInbox resync sourceHistoryId page pending (some (_, .returned true)) =>
      some (w.goto (.triagingInbox resync sourceHistoryId page pending none))
    | .triagingInbox resync _ _ _ (some (_, .returned false)) =>
      some (w.goto (.releasing resync "resync_incomplete"))
    | .triagingInbox resync _ _ _ (some (_, .raised)) =>
      some (w.goto (.releasing resync "resync_internal"))
    | .triagingHistory start final pending (some (_, .returned true)) =>
      some (w.goto (.triagingHistory start final pending none))
    | .triagingHistory _ _ _ (some (_, .returned false)) =>
      some (w.goto (.failing { errorCode := "triage_in_progress" }))
    | .triagingHistory _ _ _ (some (_, .raised)) => some (w.commit w.jobs none)
    | _ => none
  | .readProfile =>
    match worker.phase with
    | .readingProfile resync _ =>
      if 0 < w.gmail.historyId ∧ w.gmail.historyId ≤ 9223372036854775807 then
        some (w.goto (.completingResync resync w.gmail.historyId))
      else none
    | _ => none
  | .profileInvalid =>
    match worker.phase with
    | .readingProfile resync _ => some (w.goto (.releasing resync "resync_incomplete"))
    | _ => none
  | .listHistory responses =>
    match worker.phase with
    | .listingHistory start =>
      match historyMessageIds env.unicode env.settings responses start with
      | none => none
      | some (.error failure) => some (w.goto (.failing (afterHistoryFailure failure)))
      | some (.ok work) =>
        match responses.mapM Except.toOption with
        | none => none
        | some pages =>
          if Paged pages ∧ w.gmail.showsHistory env.unicode start pages = true then
            some { w.goto (.triagingHistory start work.latestCursor work.messageIds none) with
              listed := work.messageIds }
          else none
    | _ => none
  | .abandon => some (w.commit w.jobs none)

end MailWorld

/-! ## The system -/

/-- The steps of the system. -/
inductive MailLabel
  | arrive (hid : ℕ) (messageId : MessageId)
  | touch (hid : ℕ)
  | remove (messageId : MessageId)
  | claimWatch (now : Time)
  | completeWatch (leaseToken : LeaseToken) (historyId : ℕ) (expiresAt : Time)
  | failWatch (now : Time) (leaseToken : LeaseToken) (errorCode : String)
  | heartbeat (now : Time)
  | enqueue (id : JobId) (pubsubMessageId : String) (historyId : ℕ) (receivedAt : Time)
  | claimJob (n : ℕ) (id : JobId) (clock : ℕ → Time)
  | work (n : ℕ) (event : WorkerEvent)

namespace MailWorld

def setJobs (w : MailWorld) (jobs : JobStore) : MailWorld := { w with jobs := jobs }

def setGmail (w : MailWorld) (gmail : Gmail) : MailWorld := { w with gmail := gmail }

def setWorker (w : MailWorld) (n : ℕ) (worker : Option Worker) : MailWorld :=
  { w with workers := Function.update w.workers n worker }

/-- The world after a worker's step. -/
def apply (w : MailWorld) (n : ℕ) (worker : Worker) (result : StepResult) : MailWorld where
  jobs := result.jobs
  triage := result.triage
  gmail := w.gmail
  listed := w.listed ++ result.listed
  workers := Function.update w.workers n
    (result.phase.map fun phase ↦ { worker with phase := phase })

/-- One step. -/
def step (env : MailEnv) (w : MailWorld) : MailLabel → Option (MailWorld × Reply)
  | .arrive hid messageId => (w.gmail.arrive hid messageId).map (w.setGmail ·, .none)
  | .touch hid => (w.gmail.touch hid).map (w.setGmail ·, .none)
  | .remove messageId => some (w.setGmail (w.gmail.remove messageId), .none)
  | .claimWatch now => some (w.setJobs (claimWatchRenewal env.settings w.jobs now).1, .none)
  | .completeWatch leaseToken historyId expiresAt =>
    some (w.setJobs (completeWatchRenewal w.jobs leaseToken historyId expiresAt).1, .none)
  | .failWatch now leaseToken errorCode =>
    some (w.setJobs (failWatchRenewal env.settings w.jobs now leaseToken errorCode), .none)
  | .heartbeat now => some (w.setJobs (recordWorkerHeartbeat w.jobs now), .none)
  | .enqueue id pubsubMessageId historyId receivedAt =>
    match w.jobs.jobs id with
    | some _ => none
    | none =>
      some (w.setJobs (enqueueNotification w.jobs id pubsubMessageId historyId receivedAt).1,
        .none)
  | .claimJob n id clock =>
    match w.workers n, claimNotificationJob env.settings w.jobs id clock with
    | none, some (jobs, claim) =>
      some ((w.setJobs jobs).setWorker n (claim.map fun claim ↦ ⟨claim, .claimed⟩), .none)
    | _, _ => none
  | .work n event =>
    match w.workers n with
    | none => none
    | some worker =>
      match w.workerStep env worker event with
      | none => none
      | some result => some (w.apply n worker result, result.reply)

end MailWorld

/-- The automation of one mailbox, from empty tables on. -/
def mailWorkers (env : MailEnv) : System MailWorld MailLabel Reply where
  init w := w.gmail.WellFormed ∧ w.jobs.mailbox = none ∧ (∀ id, w.jobs.jobs id = none) ∧
    (∀ id, w.triage.rows id = none) ∧ (∀ n, w.workers n = none) ∧ w.listed = []
  step := MailWorld.step env

/-- The default settings, on ASCII text. -/
def defaultEnv : MailEnv := ⟨.default, .ascii⟩

/-- A fresh deployment. -/
def freshMail : MailWorld where
  jobs := ⟨fun _ ↦ none, fun _ ↦ none, none, 0⟩
  triage := ⟨fun _ ↦ none, 0⟩
  gmail := ⟨[], 10, []⟩
  listed := []
  workers := fun _ ↦ none

theorem init_freshMail : (mailWorkers defaultEnv).init freshMail :=
  ⟨⟨.nil, nofun, nofun, nofun⟩, rfl, fun _ ↦ rfl, fun _ ↦ rfl, fun _ ↦ rfl, rfl⟩

end Onebox.Notifications
