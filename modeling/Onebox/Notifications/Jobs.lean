import Mathlib.Order.Nat
import Onebox.Notifications.Settings

/-!
# Durable notification jobs and mailbox recovery

The transactions of the job queue and of the mailbox row, for one automation mailbox and its
owner. Each takes the tables to the tables it commits. Where a transaction reads the clock more
than once, `clock` gives its successive readings.

A page token is opaque to this code, which only stores it and hands it back. It is given here as
what the provider reads from it: the listing it belongs to and the place that listing has reached.
-/

namespace Onebox.Notifications

open Python

abbrev JobId := ℕ

/-! ## The rows -/

/-- The `state` column of `gmail_notification_jobs`. -/
inductive JobState
  | pending
  | processing
  | succeeded
  | deadLetter
  deriving DecidableEq

/-- A row of `gmail_notification_jobs`. -/
structure GmailNotificationJob where
  pubsubMessageId : String
  historyId : ℕ
  state : JobState
  attemptCount : ℕ
  leaseToken : Option LeaseToken
  leaseExpiresAt : Option Time
  nextAttemptAt : Option Time
  lastErrorCode : Option String
  receivedAt : Time
  processedAt : Option Time

/-- A `pageToken` of `messages.list`: of a listing that began when `newest` was the history id of
the mailbox, and that goes on with the messages added up to `resumeAt`. -/
structure PageToken where
  newest : ℕ
  resumeAt : ℕ
  deriving DecidableEq

/-- The `resync_state` column. -/
inductive ResyncState
  | idle
  | required
  | processing
  | manualRequired
  deriving DecidableEq

/-- The row of `gmail_mailbox_states`. -/
structure GmailMailboxState where
  historyCursor : Option ℕ := none
  watchHistoryId : Option ℕ := none
  watchExpiresAt : Option Time := none
  watchLeaseToken : Option LeaseToken := none
  watchLeaseExpiresAt : Option Time := none
  watchRenewalAttemptCount : ℕ := 0
  watchRenewalNextAttemptAt : Option Time := none
  watchLastErrorCode : Option String := none
  resyncRequired : Bool := false
  resyncState : ResyncState := .idle
  resyncGeneration : ℕ := 0
  resyncLeaseToken : Option LeaseToken := none
  resyncLeaseExpiresAt : Option Time := none
  resyncAttemptCount : ℕ := 0
  resyncNextAttemptAt : Option Time := none
  resyncPageToken : Option PageToken := none
  resyncMessageCount : ℕ := 0
  lastErrorCode : Option String := none
  workerHeartbeatAt : Option Time := none

/-- The tables: the jobs with their unique index, the mailbox row, and the next token to be
drawn. -/
structure JobStore where
  jobs : JobId → Option GmailNotificationJob
  pubsubIndex : String → Option JobId
  mailbox : Option GmailMailboxState
  nextToken : LeaseToken

/-- `ClaimedNotificationJob`. -/
structure ClaimedNotificationJob where
  id : JobId
  historyId : ℕ
  leaseToken : LeaseToken
  resyncGeneration : ℕ
  deriving DecidableEq

/-- `ClaimedMailboxResync`. -/
structure ClaimedMailboxResync where
  leaseToken : LeaseToken
  generation : ℕ
  pageToken : Option PageToken
  messageCount : ℕ
  deriving DecidableEq

namespace JobStore

def setJob (s : JobStore) (id : JobId) (job : GmailNotificationJob) : JobStore :=
  { s with jobs := Function.update s.jobs id (some job) }

def setMailbox (s : JobStore) (state : GmailMailboxState) : JobStore :=
  { s with mailbox := some state }

/-- A token is drawn. -/
def drawToken (s : JobStore) : JobStore := { s with nextToken := s.nextToken + 1 }

/-- `state.history_cursor or 0`. -/
def cursor (s : JobStore) : ℕ :=
  match s.mailbox with
  | none => 0
  | some state => state.historyCursor.getD 0

def pageToken (s : JobStore) : Option PageToken := s.mailbox.bind (·.resyncPageToken)

/-- The locked row of a job whose claim still holds it. -/
def heldJob (s : JobStore) (claim : ClaimedNotificationJob) : Option GmailNotificationJob :=
  match s.jobs claim.id with
  | none => none
  | some job =>
    if job.state = .processing ∧ job.leaseToken = some claim.leaseToken then some job else none

/-- `_locked_resync_state`. -/
def lockedResyncState (s : JobStore) (claim : ClaimedMailboxResync) : Option GmailMailboxState :=
  match s.mailbox with
  | none => none
  | some state =>
    if state.resyncState = .processing ∧ state.resyncGeneration = claim.generation ∧
        state.resyncLeaseToken = some claim.leaseToken then
      some state
    else none

end JobStore

/-! ## Jobs -/

/-- What `enqueue_notification` answers: whether a job was added, or an error. -/
inductive EnqueueReply
  | added
  | duplicate
  | baselineUnavailable

/-- `enqueue_notification`, for an envelope of this mailbox and owner. -/
def enqueueNotification (s : JobStore) (id : JobId) (pubsubMessageId : String) (historyId : ℕ)
    (receivedAt : Time) : JobStore × EnqueueReply :=
  match s.mailbox with
  | none => (s, .baselineUnavailable)
  | some state =>
    if state.historyCursor.isNone then (s, .baselineUnavailable)
    else
      match s.pubsubIndex pubsubMessageId with
      | some _ => (s, .duplicate)
      | none =>
        let s := s.setJob id
          { pubsubMessageId := pubsubMessageId
            historyId := historyId
            state := .pending
            attemptCount := 0
            leaseToken := none
            leaseExpiresAt := none
            nextAttemptAt := none
            lastErrorCode := none
            receivedAt := receivedAt
            processedAt := none }
        ({ s with pubsubIndex := Function.update s.pubsubIndex pubsubMessageId (some id) }, .added)

/-- The `where` clause of `claim_notification_job`. -/
def GmailNotificationJob.due (job : GmailNotificationJob) (now : Time) : Bool :=
  match job.state with
  | .pending => !job.nextAttemptAt.any (now < ·)
  | .processing => job.leaseExpiresAt.any (· ≤ now)
  | .succeeded | .deadLetter => false

/-- A recovery lease that has run out is given up. -/
def expireResyncLease (settings : Settings) (now : Time) (state : GmailMailboxState) :
    GmailMailboxState :=
  { state with
    resyncState := .required
    resyncRequired := true
    resyncLeaseToken := none
    resyncLeaseExpiresAt := none
    resyncAttemptCount := state.resyncAttemptCount + 1
    resyncNextAttemptAt := some (retryAt settings now (state.resyncAttemptCount + 1))
    lastErrorCode := some "resync_lease_expired" }

/-- `claim_notification_job`, on a due job that it selects and locks. Locked jobs are skipped, so
the oldest due job need not be the one. -/
def claimNotificationJob (settings : Settings) (s : JobStore) (id : JobId) (clock : ℕ → Time) :
    Option (JobStore × Option ClaimedNotificationJob) :=
  let now := clock 0
  match s.jobs id, s.mailbox with
  | some job, some state =>
    if job.due now then
      if job.state = .processing then
        let s := s.setJob id { job with
          state := .pending
          leaseToken := none
          leaseExpiresAt := none
          lastErrorCode := some "job_lease_expired"
          nextAttemptAt := some (retryAt settings (clock 1) (max 1 job.attemptCount)) }
        if state.resyncState = .processing ∧ state.resyncLeaseExpiresAt.any (· ≤ now) = true then
          some (s.setMailbox (expireResyncLease settings (clock 2) state), none)
        else some (s, none)
      else if state.resyncState = .manualRequired then
        some (s.setJob id { job with
          state := .deadLetter
          lastErrorCode := some "resync_manual_required"
          nextAttemptAt := none
          processedAt := some now }, none)
      else if settings.notificationMaxAttempts ≤ job.attemptCount ∧ state.resyncState = .idle then
        some ((s.setMailbox { state with
          resyncState := .required
          resyncRequired := true
          resyncGeneration := state.resyncGeneration + 1
          resyncPageToken := none
          resyncMessageCount := 0
          resyncAttemptCount := 0
          resyncNextAttemptAt := some now
          lastErrorCode := some "attempt_limit_exceeded" }).setJob id { job with
            lastErrorCode := some "attempt_limit_exceeded"
            nextAttemptAt := some now }, none)
      else
        some ((s.setJob id { job with
          state := .processing
          attemptCount := job.attemptCount + 1
          leaseToken := some s.nextToken
          leaseExpiresAt := some (now + settings.leaseDuration)
          nextAttemptAt := none }).drawToken,
          some ⟨id, job.historyId, s.nextToken, state.resyncGeneration⟩)
    else none
  | _, _ => none

/-- A job is put back for a later attempt. -/
def GmailNotificationJob.backToPending (job : GmailNotificationJob) (nextAttemptAt : Time)
    (errorCode : String) : GmailNotificationJob :=
  { job with
    state := .pending
    leaseToken := none
    leaseExpiresAt := none
    nextAttemptAt := some nextAttemptAt
    lastErrorCode := some errorCode }

/-- A job of a mailbox without a row. -/
def GmailNotificationJob.withoutMailbox (job : GmailNotificationJob) (now : Time) :
    GmailNotificationJob :=
  { job with
    state := .deadLetter
    lastErrorCode := some "mailbox_state_missing"
    nextAttemptAt := none
    processedAt := some now }

/-- `complete_job_and_advance_cursor`. -/
def completeJobAndAdvanceCursor (settings : Settings) (s : JobStore) (clock : ℕ → Time)
    (claim : ClaimedNotificationJob) (historyCursor : ℕ) : JobStore × Bool :=
  match s.heldJob claim with
  | none => (s, false)
  | some job =>
    match s.mailbox with
    | none => (s.setJob claim.id (job.withoutMailbox (clock 0)), false)
    | some state =>
      if state.resyncState ≠ .idle ∨ state.resyncGeneration ≠ claim.resyncGeneration then
        (s.setJob claim.id { job.backToPending
            (retryAt settings (clock 0) (max 1 job.attemptCount)) "mailbox_recovery_changed" with
          processedAt := none }, false)
      else
        ((s.setMailbox { state with
            historyCursor := some (max (state.historyCursor.getD 0) historyCursor)
            lastErrorCode := none }).setJob claim.id { job with
              state := .succeeded
              lastErrorCode := none
              processedAt := some (clock 0)
              nextAttemptAt := none }, true)

/-- `_start_resync_locked`. -/
def startResyncLocked (state : GmailMailboxState) (errorCode : String) (now : Time) :
    GmailMailboxState :=
  let state :=
    if state.resyncState = .idle then
      { state with
        resyncGeneration := state.resyncGeneration + 1
        resyncPageToken := none
        resyncMessageCount := 0
        resyncAttemptCount := 0 }
    else state
  if state.resyncState = .manualRequired then state
  else
    { state with
      resyncState := .required
      resyncRequired := true
      resyncLeaseToken := none
      resyncLeaseExpiresAt := none
      resyncNextAttemptAt := some now
      lastErrorCode := some errorCode }

/-- The keyword arguments of `fail_job`. -/
structure FailArgs where
  errorCode : String
  deadLetter : Bool := false
  requireResync : Bool := false

/-- `fail_job`. -/
def failJob (settings : Settings) (s : JobStore) (clock : ℕ → Time)
    (claim : ClaimedNotificationJob) (args : FailArgs) : JobStore :=
  let now := clock 0
  match s.heldJob claim with
  | none => s
  | some job =>
    match s.mailbox with
    | none => s.setJob claim.id (job.withoutMailbox now)
    | some state =>
      if state.resyncGeneration ≠ claim.resyncGeneration ∨ state.resyncState ≠ .idle then
        s.setJob claim.id { job.backToPending
            (retryAt settings (clock 1) (max 1 job.attemptCount)) "mailbox_recovery_changed" with
          processedAt := none }
      else if args.requireResync || args.deadLetter ||
          settings.notificationMaxAttempts ≤ job.attemptCount then
        let state := startResyncLocked state args.errorCode now
        let s := s.setMailbox state
        if state.resyncState = .manualRequired then
          s.setJob claim.id { job with
            state := .deadLetter
            nextAttemptAt := none
            processedAt := some now
            lastErrorCode := some args.errorCode }
        else
          s.setJob claim.id { job.backToPending now args.errorCode with processedAt := none }
      else
        s.setJob claim.id (job.backToPending
          (retryAt settings (clock 1) (max 1 job.attemptCount)) args.errorCode)

/-- `requeue_job`. -/
def requeueJob (settings : Settings) (s : JobStore) (clock : ℕ → Time)
    (claim : ClaimedNotificationJob) (errorCode : String) (nextAttemptAt : Option Time) :
    JobStore :=
  match s.heldJob claim with
  | none => s
  | some job =>
    s.setJob claim.id (job.backToPending
      (nextAttemptAt.getD (retryAt settings (clock 0) (max 1 job.attemptCount))) errorCode)

/-- `dead_letter_job`. -/
def deadLetterJob (s : JobStore) (clock : ℕ → Time) (claim : ClaimedNotificationJob)
    (errorCode : String) : JobStore :=
  match s.heldJob claim with
  | none => s
  | some job =>
    s.setJob claim.id { job with
      state := .deadLetter
      leaseToken := none
      leaseExpiresAt := none
      nextAttemptAt := none
      lastErrorCode := some errorCode
      processedAt := some (clock 0) }

/-! ## Recovery -/

/-- `claim_mailbox_resync`. -/
def claimMailboxResync (settings : Settings) (s : JobStore) (clock : ℕ → Time) :
    JobStore × Option ClaimedMailboxResync :=
  let now := clock 0
  match s.mailbox with
  | none => (s, none)
  | some state =>
    match state.resyncState with
    | .idle | .manualRequired => (s, none)
    | .processing =>
      if state.resyncLeaseExpiresAt.any (· ≤ now) then
        (s.setMailbox (expireResyncLease settings (clock 1) state), none)
      else (s, none)
    | .required =>
      if state.resyncNextAttemptAt.any (now < ·) then (s, none)
      else
        ((s.setMailbox { state with
            resyncState := .processing
            resyncRequired := true
            resyncLeaseToken := some s.nextToken
            resyncLeaseExpiresAt := some (now + settings.leaseDuration)
            resyncNextAttemptAt := none }).drawToken,
          some ⟨s.nextToken, state.resyncGeneration, state.resyncPageToken,
            state.resyncMessageCount⟩)

/-- `checkpoint_bounded_resync`. -/
def checkpointBoundedResync (s : JobStore) (clock : ℕ → Time) (claim : ClaimedMailboxResync)
    (nextPageToken : PageToken) (processedCount : ℕ) : JobStore × Bool :=
  match s.lockedResyncState claim with
  | none => (s, false)
  | some state =>
    (s.setMailbox { state with
      resyncState := .required
      resyncRequired := true
      resyncLeaseToken := none
      resyncLeaseExpiresAt := none
      resyncPageToken := some nextPageToken
      resyncMessageCount := state.resyncMessageCount + processedCount
      resyncNextAttemptAt := some (clock 0)
      lastErrorCode := none }, true)

/-- `complete_bounded_resync`. -/
def completeBoundedResync (s : JobStore) (claim : ClaimedMailboxResync) (historyCursor : ℕ) :
    JobStore × Bool :=
  match s.lockedResyncState claim with
  | none => (s, false)
  | some state =>
    (s.setMailbox { state with
      historyCursor := some historyCursor
      resyncState := .idle
      resyncRequired := false
      resyncLeaseToken := none
      resyncLeaseExpiresAt := none
      resyncPageToken := none
      resyncMessageCount := 0
      resyncAttemptCount := 0
      resyncNextAttemptAt := none
      lastErrorCode := none }, true)

/-- `release_mailbox_resync`. -/
def releaseMailboxResync (settings : Settings) (s : JobStore) (clock : ℕ → Time)
    (claim : ClaimedMailboxResync) (errorCode : String) : JobStore × Bool :=
  match s.lockedResyncState claim with
  | none => (s, false)
  | some state =>
    (s.setMailbox { state with
      resyncState := .required
      resyncRequired := true
      resyncLeaseToken := none
      resyncLeaseExpiresAt := none
      resyncAttemptCount := state.resyncAttemptCount + 1
      resyncNextAttemptAt := some (retryAt settings (clock 0) (state.resyncAttemptCount + 1))
      lastErrorCode := some errorCode }, true)

/-- `require_manual_resync`. -/
def requireManualResync (s : JobStore) (claim : ClaimedMailboxResync) (errorCode : String) :
    JobStore × Bool :=
  match s.lockedResyncState claim with
  | none => (s, false)
  | some state =>
    (s.setMailbox { state with
      resyncState := .manualRequired
      resyncRequired := true
      resyncLeaseToken := none
      resyncLeaseExpiresAt := none
      resyncNextAttemptAt := none
      lastErrorCode := some errorCode }, true)

/-! ## Watch renewal -/

/-- `claim_watch_renewal`, with the mailbox row that it creates when there is none. -/
def claimWatchRenewal (settings : Settings) (s : JobStore) (now : Time) :
    JobStore × Option LeaseToken :=
  let state := s.mailbox.getD {}
  if state.watchRenewalNextAttemptAt.any (now < ·) then (s, none)
  else if state.watchExpiresAt.any (now + seconds settings.watchRenewalSeconds < ·) then (s, none)
  else if state.watchLeaseExpiresAt.any (now < ·) then (s, none)
  else
    ((s.setMailbox { state with
        watchLeaseToken := some s.nextToken
        watchLeaseExpiresAt := some (now + settings.leaseDuration) }).drawToken,
      some s.nextToken)

/-- `state.history_cursor or history_id`. -/
def cursorOr (historyCursor : Option ℕ) (historyId : ℕ) : ℕ :=
  match historyCursor with
  | none | some 0 => historyId
  | some cursor => cursor

/-- `complete_watch_renewal`. -/
def completeWatchRenewal (s : JobStore) (leaseToken : LeaseToken) (historyId : ℕ)
    (expiresAt : Time) : JobStore × Bool :=
  match s.mailbox with
  | none => (s, false)
  | some state =>
    if state.watchLeaseToken = some leaseToken then
      (s.setMailbox { state with
        watchHistoryId := some historyId
        historyCursor := some (cursorOr state.historyCursor historyId)
        watchExpiresAt := some expiresAt
        watchLeaseToken := none
        watchLeaseExpiresAt := none
        watchRenewalAttemptCount := 0
        watchRenewalNextAttemptAt := none
        watchLastErrorCode := none
        lastErrorCode := none }, true)
    else (s, false)

/-- `fail_watch_renewal`. -/
def failWatchRenewal (settings : Settings) (s : JobStore) (now : Time) (leaseToken : LeaseToken)
    (errorCode : String) : JobStore :=
  match s.mailbox with
  | none => s
  | some state =>
    if state.watchLeaseToken = some leaseToken then
      s.setMailbox { state with
        watchLastErrorCode := some errorCode
        lastErrorCode := some errorCode
        watchLeaseToken := none
        watchLeaseExpiresAt := none
        watchRenewalAttemptCount := state.watchRenewalAttemptCount + 1
        watchRenewalNextAttemptAt :=
          some (retryAt settings now (state.watchRenewalAttemptCount + 1)) }
    else s

/-- `record_worker_heartbeat`. -/
def recordWorkerHeartbeat (s : JobStore) (now : Time) : JobStore :=
  match s.mailbox with
  | none => s
  | some state => s.setMailbox { state with workerHeartbeatAt := some now }

/-! ## What a transaction does to cursor and page token -/

/-- The cursor does not fall, and no page token appears. -/
structure JobStore.Steady (s s' : JobStore) : Prop where
  cursor : s.cursor ≤ s'.cursor
  pageToken : ∀ token, s'.pageToken = some token → s.pageToken = some token

section

variable {settings : Settings} {s s' s'' : JobStore} {clock : ℕ → Time} {now : Time}

theorem JobStore.cursor_of_mailbox {state : GmailMailboxState} (h : s.mailbox = some state) :
    s.cursor = state.historyCursor.getD 0 := by
  rw [cursor, h]

theorem JobStore.pageToken_of_mailbox {state : GmailMailboxState} (h : s.mailbox = some state) :
    s.pageToken = state.resyncPageToken := by
  rw [pageToken, h]
  rfl

theorem JobStore.lockedResyncState_eq_some {claim : ClaimedMailboxResync}
    {state : GmailMailboxState} (h : s.lockedResyncState claim = some state) :
    s.mailbox = some state ∧ state.resyncState = .processing := by
  rw [lockedResyncState] at h
  split at h
  · cases h
  · rename_i current hmailbox
    split at h
    · rename_i hlocked
      obtain rfl := Option.some.inj h
      exact ⟨hmailbox, hlocked.1⟩
    · cases h

namespace JobStore.Steady

theorem refl (s : JobStore) : s.Steady s := ⟨le_rfl, fun _ h ↦ h⟩

theorem trans (h : s.Steady s') (h' : s'.Steady s'') : s.Steady s'' :=
  ⟨le_trans h.cursor h'.cursor, fun token ht ↦ h.pageToken token (h'.pageToken token ht)⟩

theorem setJob (h : s.Steady s') (id : JobId) (job : GmailNotificationJob) :
    s.Steady (s'.setJob id job) := ⟨h.cursor, h.pageToken⟩

theorem drawToken (h : s.Steady s') : s.Steady s'.drawToken := ⟨h.cursor, h.pageToken⟩

/-- Writing a mailbox row that keeps the cursor up and adds no page token. -/
theorem of_mailbox {state state' : GmailMailboxState} (h : s.mailbox = some state)
    (h' : s'.mailbox = some state')
    (hcursor : state.historyCursor.getD 0 ≤ state'.historyCursor.getD 0)
    (htoken : ∀ token, state'.resyncPageToken = some token → state.resyncPageToken = some token) :
    s.Steady s' := by
  refine ⟨?_, fun token ht ↦ ?_⟩
  · rw [cursor_of_mailbox h, cursor_of_mailbox h']
    exact hcursor
  · rw [pageToken_of_mailbox h'] at ht
    rw [pageToken_of_mailbox h]
    exact htoken token ht

end JobStore.Steady

open JobStore (Steady)

theorem steady_enqueueNotification (id : JobId) (pubsubMessageId : String) (historyId : ℕ)
    (receivedAt : Time) :
    s.Steady (enqueueNotification s id pubsubMessageId historyId receivedAt).1 := by
  rw [enqueueNotification]
  split
  · exact .refl s
  · split
    · exact .refl s
    · split
      · exact .refl s
      · exact ⟨le_rfl, fun _ h ↦ h⟩

theorem steady_claimNotificationJob {id : JobId} {claim : Option ClaimedNotificationJob}
    (h : claimNotificationJob settings s id clock = some (s', claim)) : s.Steady s' := by
  rw [claimNotificationJob] at h
  dsimp only at h
  split at h
  · rename_i job state hjob hmailbox
    split at h
    · split at h
      · split at h
        · obtain ⟨rfl, -⟩ := by simpa using h
          exact .of_mailbox hmailbox rfl le_rfl fun _ ht ↦ ht
        · obtain ⟨rfl, -⟩ := by simpa using h
          exact (Steady.refl s).setJob id _
      · split at h
        · obtain ⟨rfl, -⟩ := by simpa using h
          exact (Steady.refl s).setJob id _
        · split at h
          · obtain ⟨rfl, -⟩ := by simpa using h
            exact .of_mailbox hmailbox rfl le_rfl fun _ ht ↦ by cases ht
          · obtain ⟨rfl, -⟩ := by simpa using h
            exact ((Steady.refl s).setJob id _).drawToken
    · cases h
  · cases h

theorem steady_completeJobAndAdvanceCursor (claim : ClaimedNotificationJob)
    (historyCursor : ℕ) :
    s.Steady (completeJobAndAdvanceCursor settings s clock claim historyCursor).1 := by
  rw [completeJobAndAdvanceCursor]
  split
  · exact .refl s
  · split
    · exact (Steady.refl s).setJob _ _
    · rename_i state hmailbox
      split
      · exact (Steady.refl s).setJob _ _
      · exact .of_mailbox hmailbox rfl (le_max_left _ _) fun _ ht ↦ ht

theorem startResyncLocked_historyCursor (state : GmailMailboxState) (errorCode : String) :
    (startResyncLocked state errorCode now).historyCursor = state.historyCursor := by
  rw [startResyncLocked]
  split <;> split <;> rfl

theorem startResyncLocked_pageToken {state : GmailMailboxState} {errorCode : String}
    {token : PageToken}
    (h : (startResyncLocked state errorCode now).resyncPageToken = some token) :
    state.resyncPageToken = some token := by
  rw [startResyncLocked] at h
  split at h
  · split at h
    · cases h
    · cases h
  · split at h
    · exact h
    · exact h

theorem steady_failJob (claim : ClaimedNotificationJob) (args : FailArgs) :
    s.Steady (failJob settings s clock claim args) := by
  rw [failJob]
  dsimp only
  split
  · exact .refl s
  · split
    · exact (Steady.refl s).setJob _ _
    · rename_i state hmailbox
      have hstart : s.Steady (s.setMailbox (startResyncLocked state args.errorCode (clock 0))) :=
        .of_mailbox hmailbox rfl (Nat.le_of_eq (by rw [startResyncLocked_historyCursor]))
          fun _ ↦ startResyncLocked_pageToken
      split
      · exact (Steady.refl s).setJob _ _
      · split
        · split
          · exact hstart.setJob _ _
          · exact hstart.setJob _ _
        · exact (Steady.refl s).setJob _ _

theorem steady_requeueJob (claim : ClaimedNotificationJob) (errorCode : String)
    (nextAttemptAt : Option Time) :
    s.Steady (requeueJob settings s clock claim errorCode nextAttemptAt) := by
  rw [requeueJob]
  split
  · exact .refl s
  · exact (Steady.refl s).setJob _ _

theorem steady_deadLetterJob (claim : ClaimedNotificationJob) (errorCode : String) :
    s.Steady (deadLetterJob s clock claim errorCode) := by
  rw [deadLetterJob]
  split
  · exact .refl s
  · exact (Steady.refl s).setJob _ _

theorem steady_claimMailboxResync : s.Steady (claimMailboxResync settings s clock).1 := by
  rw [claimMailboxResync]
  split
  · exact .refl s
  · rename_i state hmailbox
    split
    · exact .refl s
    · exact .refl s
    · split
      · exact .of_mailbox hmailbox rfl le_rfl fun _ ht ↦ ht
      · exact .refl s
    · split
      · exact .refl s
      · exact .of_mailbox hmailbox rfl le_rfl fun _ ht ↦ ht

/-- A granted recovery claim goes on from the page token of the mailbox. -/
theorem claimMailboxResync_pageToken {resync : ClaimedMailboxResync}
    (h : (claimMailboxResync settings s clock).2 = some resync) :
    resync.pageToken = s.pageToken ∧
      ∃ state, s.mailbox = some state ∧ state.resyncState = .required := by
  rw [claimMailboxResync] at h
  split at h
  · cases h
  · rename_i state hmailbox
    split at h
    · cases h
    · cases h
    · split at h <;> cases h
    · rename_i hstate
      split at h
      · cases h
      · obtain rfl := Option.some.inj h
        exact ⟨(JobStore.pageToken_of_mailbox hmailbox).symm, state, hmailbox, hstate⟩

theorem steady_releaseMailboxResync (claim : ClaimedMailboxResync) (errorCode : String) :
    s.Steady (releaseMailboxResync settings s clock claim errorCode).1 := by
  rw [releaseMailboxResync]
  split
  · exact .refl s
  · rename_i state hlocked
    exact .of_mailbox (JobStore.lockedResyncState_eq_some hlocked).1 rfl le_rfl fun _ ht ↦ ht

theorem steady_requireManualResync (claim : ClaimedMailboxResync) (errorCode : String) :
    s.Steady (requireManualResync s claim errorCode).1 := by
  rw [requireManualResync]
  split
  · exact .refl s
  · rename_i state hlocked
    exact .of_mailbox (JobStore.lockedResyncState_eq_some hlocked).1 rfl le_rfl fun _ ht ↦ ht

theorem steady_claimWatchRenewal : s.Steady (claimWatchRenewal settings s now).1 := by
  rw [claimWatchRenewal]
  split
  · exact .refl s
  · split
    · exact .refl s
    · split
      · exact .refl s
      · cases hmailbox : s.mailbox with
        | none =>
          refine ⟨?_, nofun⟩
          rw [JobStore.cursor, hmailbox]
          exact Nat.zero_le _
        | some state => exact .of_mailbox hmailbox rfl le_rfl fun _ ht ↦ ht

theorem le_cursorOr (historyCursor : Option ℕ) (historyId : ℕ) :
    historyCursor.getD 0 ≤ cursorOr historyCursor historyId := by
  unfold cursorOr
  split
  · exact Nat.zero_le _
  · exact Nat.zero_le _
  · exact le_rfl

theorem steady_completeWatchRenewal (leaseToken : LeaseToken) (historyId : ℕ)
    (expiresAt : Time) : s.Steady (completeWatchRenewal s leaseToken historyId expiresAt).1 := by
  rw [completeWatchRenewal]
  split
  · exact .refl s
  · rename_i state hmailbox
    split
    · exact .of_mailbox hmailbox rfl (le_cursorOr _ _) fun _ ht ↦ ht
    · exact .refl s

theorem steady_failWatchRenewal (leaseToken : LeaseToken) (errorCode : String) :
    s.Steady (failWatchRenewal settings s now leaseToken errorCode) := by
  rw [failWatchRenewal]
  split
  · exact .refl s
  · rename_i state hmailbox
    split
    · exact .of_mailbox hmailbox rfl le_rfl fun _ ht ↦ ht
    · exact .refl s

theorem steady_recordWorkerHeartbeat : s.Steady (recordWorkerHeartbeat s now) := by
  rw [recordWorkerHeartbeat]
  split
  · exact .refl s
  · rename_i state hmailbox
    exact .of_mailbox hmailbox rfl le_rfl fun _ ht ↦ ht

/-- A checkpoint leaves the cursor and writes its own page token, or changes nothing. -/
theorem checkpointBoundedResync_spec (claim : ClaimedMailboxResync) (nextPageToken : PageToken)
    (processedCount : ℕ) :
    (checkpointBoundedResync s clock claim nextPageToken processedCount).1 = s ∨
      (checkpointBoundedResync s clock claim nextPageToken processedCount).1.pageToken
        = some nextPageToken := by
  rw [checkpointBoundedResync]
  split
  · exact Or.inl rfl
  · exact Or.inr rfl

/-- A completion changes nothing, or it ends the listing. -/
theorem completeBoundedResync_spec (claim : ClaimedMailboxResync) (historyCursor : ℕ) :
    (completeBoundedResync s claim historyCursor).1 = s ∨
      (completeBoundedResync s claim historyCursor).1.pageToken = none := by
  rw [completeBoundedResync]
  split
  · exact Or.inl rfl
  · exact Or.inr rfl

end

end Onebox.Notifications
