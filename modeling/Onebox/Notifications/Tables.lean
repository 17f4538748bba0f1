import Onebox.Notifications.Jobs
import Onebox.Transition.System

/-!
# The tables under any calls

The transactions on jobs and mailbox, made in any order by whoever has been granted the claims they
present. This is coarser than the workers: a claim may be used at any time, any number of times and
for any transaction, and nothing is said about where its cursors, counts and error codes come from.
What holds here holds of every worker.

The one check that a caller makes for the tables is kept: `_bounded_resync` checkpoints a page only
while the messages seen so far stay below the limit.
-/

namespace Onebox.Notifications

open Python Transition

/-! ## The system -/

/-- The end of `_bounded_resync` on a page that another follows. -/
def persistPage (settings : Settings) (s : JobStore) (clock : ℕ → Time)
    (resync : ClaimedMailboxResync) (nextPageToken : PageToken) (processedCount : ℕ) :
    JobStore × Bool :=
  if settings.resyncMaxMessages ≤ resync.messageCount + processedCount then
    requireManualResync s resync "resync_total_limit_reached"
  else checkpointBoundedResync s clock resync nextPageToken processedCount

/-- The insert of `enqueue_notification`. -/
def insertNotificationJob (s : JobStore) (id : JobId) (pubsubMessageId : String) (historyId : ℕ)
    (receivedAt : Time) : JobStore :=
  { s.setJob id
      { pubsubMessageId := pubsubMessageId
        historyId := historyId
        state := .pending
        attemptCount := 0
        leaseToken := none
        leaseExpiresAt := none
        nextAttemptAt := none
        lastErrorCode := none
        receivedAt := receivedAt
        processedAt := none } with
    pubsubIndex := Function.update s.pubsubIndex pubsubMessageId (some id) }

/-- The tables, with the claims that have been granted, the latest first. -/
structure MailTables where
  store : JobStore
  jobClaims : List ClaimedNotificationJob
  resyncClaims : List ClaimedMailboxResync

/-- The calls. -/
inductive TableCall
  /-- An insert that the unique constraint on the Pub/Sub id lets pass. -/
  | insertJob (id : JobId) (pubsubMessageId : String) (historyId : ℕ) (receivedAt : Time)
  | claimJob (id : JobId) (clock : ℕ → Time)
  /-- `job_mailbox_state`. -/
  | readMailbox (claim : ClaimedNotificationJob)
  | completeJob (claim : ClaimedNotificationJob) (clock : ℕ → Time) (historyCursor : ℕ)
  | failJob (claim : ClaimedNotificationJob) (clock : ℕ → Time) (args : FailArgs)
  | requeueJob (claim : ClaimedNotificationJob) (clock : ℕ → Time) (errorCode : String)
      (nextAttemptAt : Option Time)
  | deadLetterJob (claim : ClaimedNotificationJob) (clock : ℕ → Time) (errorCode : String)
  | claimResync (clock : ℕ → Time)
  | persistPage (resync : ClaimedMailboxResync) (clock : ℕ → Time) (nextPageToken : PageToken)
      (processedCount : ℕ)
  | completeResync (resync : ClaimedMailboxResync) (historyCursor : ℕ)
  | releaseResync (resync : ClaimedMailboxResync) (clock : ℕ → Time) (errorCode : String)
  | requireManual (resync : ClaimedMailboxResync) (errorCode : String)
  | claimWatch (now : Time)
  | completeWatch (leaseToken : LeaseToken) (historyId : ℕ) (expiresAt : Time)
  | failWatch (now : Time) (leaseToken : LeaseToken) (errorCode : String)
  | heartbeat (now : Time)

def TableCall.isInsert : TableCall → Bool
  | insertJob _ _ _ _ => true
  | _ => false

/-- What a call returns. -/
inductive TableReply
  | none
  | job (claim : Option ClaimedNotificationJob)
  | mailbox (state : Option GmailMailboxState)
  | resync (claim : Option ClaimedMailboxResync)
  | answer (persisted : Bool)

namespace MailTables

def setStore (t : MailTables) (store : JobStore) : MailTables := { t with store := store }

/-- One call. A claim is presented only when it has been granted. -/
def step (settings : Settings) (t : MailTables) : TableCall → Option (MailTables × TableReply)
  | .insertJob id pubsubMessageId historyId receivedAt =>
    if t.store.jobs id = none ∧ t.store.pubsubIndex pubsubMessageId = none then
      some (t.setStore (insertNotificationJob t.store id pubsubMessageId historyId receivedAt),
        .none)
    else none
  | .claimJob id clock =>
    match claimNotificationJob settings t.store id clock with
    | none => none
    | some (store, claim) =>
      some ({ t.setStore store with jobClaims := claim.toList ++ t.jobClaims }, .job claim)
  | .readMailbox claim =>
    if claim ∈ t.jobClaims then some (t, .mailbox t.store.mailbox) else none
  | .completeJob claim clock historyCursor =>
    if claim ∈ t.jobClaims then
      let result := completeJobAndAdvanceCursor settings t.store clock claim historyCursor
      some (t.setStore result.1, .answer result.2)
    else none
  | .failJob claim clock args =>
    if claim ∈ t.jobClaims then
      some (t.setStore (failJob settings t.store clock claim args), .none)
    else none
  | .requeueJob claim clock errorCode nextAttemptAt =>
    if claim ∈ t.jobClaims then
      some (t.setStore (requeueJob settings t.store clock claim errorCode nextAttemptAt), .none)
    else none
  | .deadLetterJob claim clock errorCode =>
    if claim ∈ t.jobClaims then
      some (t.setStore (deadLetterJob t.store clock claim errorCode), .none)
    else none
  | .claimResync clock =>
    let result := claimMailboxResync settings t.store clock
    some ({ t.setStore result.1 with resyncClaims := result.2.toList ++ t.resyncClaims },
      .resync result.2)
  | .persistPage resync clock nextPageToken processedCount =>
    if resync ∈ t.resyncClaims then
      let result := persistPage settings t.store clock resync nextPageToken processedCount
      some (t.setStore result.1, .answer result.2)
    else none
  | .completeResync resync historyCursor =>
    if resync ∈ t.resyncClaims then
      let result := completeBoundedResync t.store resync historyCursor
      some (t.setStore result.1, .answer result.2)
    else none
  | .releaseResync resync clock errorCode =>
    if resync ∈ t.resyncClaims then
      let result := releaseMailboxResync settings t.store clock resync errorCode
      some (t.setStore result.1, .answer result.2)
    else none
  | .requireManual resync errorCode =>
    if resync ∈ t.resyncClaims then
      let result := requireManualResync t.store resync errorCode
      some (t.setStore result.1, .answer result.2)
    else none
  | .claimWatch now => some (t.setStore (claimWatchRenewal settings t.store now).1, .none)
  | .completeWatch leaseToken historyId expiresAt =>
    some (t.setStore (completeWatchRenewal t.store leaseToken historyId expiresAt).1, .none)
  | .failWatch now leaseToken errorCode =>
    some (t.setStore (failWatchRenewal settings t.store now leaseToken errorCode), .none)
  | .heartbeat now => some (t.setStore (recordWorkerHeartbeat t.store now), .none)

end MailTables

/-- The tables of one mailbox, from empty ones on. -/
def mailTables (settings : Settings) : System MailTables TableCall TableReply where
  init t := t.store.mailbox = none ∧ (∀ id, t.store.jobs id = none) ∧ t.jobClaims = [] ∧
    t.resyncClaims = []
  step := MailTables.step settings

/-! ## The recovery columns -/

/-- The columns of the mailbox row that belong to its recovery. -/
structure RecoveryColumns where
  required : Bool
  state : ResyncState
  generation : ℕ
  leaseToken : Option LeaseToken
  leaseExpiresAt : Option Time
  attemptCount : ℕ
  nextAttemptAt : Option Time
  pageToken : Option PageToken
  messageCount : ℕ

def GmailMailboxState.recovery (state : GmailMailboxState) : RecoveryColumns where
  required := state.resyncRequired
  state := state.resyncState
  generation := state.resyncGeneration
  leaseToken := state.resyncLeaseToken
  leaseExpiresAt := state.resyncLeaseExpiresAt
  attemptCount := state.resyncAttemptCount
  nextAttemptAt := state.resyncNextAttemptAt
  pageToken := state.resyncPageToken
  messageCount := state.resyncMessageCount

/-- The recovery columns; of a missing row, those it is created with. -/
def JobStore.recovery (s : JobStore) : RecoveryColumns := (s.mailbox.getD {}).recovery

def JobStore.historyCursor (s : JobStore) : Option ℕ := s.mailbox.bind (·.historyCursor)

/-- The claim holds the recovery. -/
def RecoveryColumns.HeldBy (r : RecoveryColumns) (resync : ClaimedMailboxResync) : Prop :=
  r.state = .processing ∧ r.generation = resync.generation ∧
    r.leaseToken = some resync.leaseToken

/-- **The moves of a recovery.** The columns and the granted claims before and after a transaction,
in a store whose next token is `token`. -/
inductive RecoveryMove (settings : Settings) (token : LeaseToken) (r : RecoveryColumns)
    (claims : List ClaimedMailboxResync) :
    RecoveryColumns → List ClaimedMailboxResync → Prop
  | stay : RecoveryMove settings token r claims r claims
  /-- The mailbox leaves idle. Its leases are cleared or left as they are. -/
  | start {r' : RecoveryColumns} {now : Time} (idle : r.state = .idle)
      (leases : r'.leaseToken = r.leaseToken ∧ r'.leaseExpiresAt = r.leaseExpiresAt ∨
        r'.leaseToken = none ∧ r'.leaseExpiresAt = none)
      (columns : r' = ⟨true, .required, r.generation + 1, r'.leaseToken, r'.leaseExpiresAt, 0,
        some now, none, 0⟩) : RecoveryMove settings token r claims r' claims
  | grant {resync : ClaimedMailboxResync} {expiresAt : Time} (required : r.state = .required)
      (snapshot : resync = ⟨token, r.generation, r.pageToken, r.messageCount⟩) :
      RecoveryMove settings token r claims
        { r with
          required := true
          state := .processing
          leaseToken := some token
          leaseExpiresAt := some expiresAt
          nextAttemptAt := none } (resync :: claims)
  /-- The lease has run out, or is released. -/
  | retry {nextAttemptAt : Time} (processing : r.state = .processing) :
      RecoveryMove settings token r claims
        { r with
          required := true
          state := .required
          leaseToken := none
          leaseExpiresAt := none
          attemptCount := r.attemptCount + 1
          nextAttemptAt := some nextAttemptAt } claims
  | checkpoint {resync : ClaimedMailboxResync} {nextPageToken : PageToken} {processedCount : ℕ}
      {now : Time} (granted : resync ∈ claims) (held : r.HeldBy resync)
      (below : resync.messageCount + processedCount < settings.resyncMaxMessages) :
      RecoveryMove settings token r claims
        { r with
          required := true
          state := .required
          leaseToken := none
          leaseExpiresAt := none
          pageToken := some nextPageToken
          messageCount := r.messageCount + processedCount
          nextAttemptAt := some now } claims
  | complete (processing : r.state = .processing) :
      RecoveryMove settings token r claims
        ⟨false, .idle, r.generation, none, none, 0, none, none, 0⟩ claims
  | manual (processing : r.state = .processing) :
      RecoveryMove settings token r claims
        { r with
          required := true
          state := .manualRequired
          leaseToken := none
          leaseExpiresAt := none
          nextAttemptAt := none } claims

/-- What a transaction does to the mailbox: a move of its recovery. Only a recovery that is under
way may lower the cursor. -/
structure StoreMove (settings : Settings) (s s' : JobStore)
    (claims claims' : List ClaimedMailboxResync) :
    Prop where
  move : RecoveryMove settings s.nextToken s.recovery claims s'.recovery claims'
  cursor : s.recovery.state = .processing ∨ s.cursor ≤ s'.cursor
  present : s.mailbox.isSome = true → s'.mailbox.isSome = true
  baseline : s.historyCursor.isSome = true → s'.historyCursor.isSome = true
  tokens : claims' = claims ∧ s.nextToken ≤ s'.nextToken ∨ s'.nextToken = s.nextToken + 1

section

variable {settings : Settings} {s s' : JobStore} {clock : ℕ → Time} {now : Time}
  {claims : List ClaimedMailboxResync} {state state' : GmailMailboxState}

theorem JobStore.recovery_of_mailbox (h : s.mailbox = some state) :
    s.recovery = state.recovery := by
  rw [recovery, h, Option.getD_some]

theorem RecoveryMove.claims_subset {r r' : RecoveryColumns} {token : LeaseToken}
    {claims' : List ClaimedMailboxResync}
    (hmove : RecoveryMove settings token r claims r' claims') : claims ⊆ claims' := by
  cases hmove with
  | grant => exact List.subset_cons_self _ _
  | _ => exact List.Subset.refl _

theorem JobStore.historyCursor_of_mailbox (h : s.mailbox = some state) :
    s.historyCursor = state.historyCursor := by
  rw [historyCursor, h, Option.bind_some]

namespace StoreMove

/-- The recovery columns stay. -/
theorem stay (hrecovery : s'.recovery = s.recovery) (hcursor : s.cursor ≤ s'.cursor)
    (hpresent : s.mailbox.isSome = true → s'.mailbox.isSome = true)
    (hbaseline : s.historyCursor.isSome = true → s'.historyCursor.isSome = true)
    (htokens : s.nextToken ≤ s'.nextToken) : StoreMove settings s s' claims claims where
  move := by rw [hrecovery]; exact .stay
  cursor := Or.inr hcursor
  present := hpresent
  baseline := hbaseline
  tokens := Or.inl ⟨rfl, htokens⟩

/-- The mailbox row is not written. -/
theorem of_mailbox_eq (hmailbox : s'.mailbox = s.mailbox) (htokens : s.nextToken ≤ s'.nextToken) :
    StoreMove settings s s' claims claims :=
  stay (by rw [JobStore.recovery, JobStore.recovery, hmailbox])
    (by rw [JobStore.cursor, JobStore.cursor, hmailbox]) (by rw [hmailbox]; exact id)
    (by rw [JobStore.historyCursor, JobStore.historyCursor, hmailbox]; exact id) htokens

theorem refl (s : JobStore) : StoreMove settings s s claims claims := of_mailbox_eq rfl le_rfl

/-- The mailbox row is written, and no claim granted. -/
theorem of_mailbox (h : s.mailbox = some state) (h' : s'.mailbox = some state')
    (htokens : s.nextToken ≤ s'.nextToken)
    (hmove : RecoveryMove settings s.nextToken state.recovery claims state'.recovery claims)
    (hcursor : state.resyncState = .processing ∨
      state.historyCursor.getD 0 ≤ state'.historyCursor.getD 0)
    (hbaseline : state.historyCursor.isSome = true → state'.historyCursor.isSome = true) :
    StoreMove settings s s' claims claims where
  move := by
    rw [JobStore.recovery_of_mailbox h, JobStore.recovery_of_mailbox h']
    exact hmove
  cursor := by
    rw [JobStore.recovery_of_mailbox h, JobStore.cursor_of_mailbox h,
      JobStore.cursor_of_mailbox h']
    exact hcursor
  present := by rw [h']; exact fun _ ↦ rfl
  baseline := by
    rw [JobStore.historyCursor_of_mailbox h, JobStore.historyCursor_of_mailbox h']
    exact hbaseline
  tokens := Or.inl ⟨rfl, htokens⟩

/-- Jobs may be written along with the mailbox. -/
theorem setJob (h : StoreMove settings s s' claims claims) (id : JobId)
    (job : GmailNotificationJob) : StoreMove settings s (s'.setJob id job) claims claims :=
  ⟨h.move, h.cursor, h.present, h.baseline, h.tokens⟩

end StoreMove

/-! ## One lemma for each transaction -/

/-- `enqueue_notification` inserts a job whose Pub/Sub id is new, or does nothing. -/
theorem enqueueNotification_cases (id : JobId) (pubsubMessageId : String) (historyId : ℕ)
    (receivedAt : Time) :
    (enqueueNotification s id pubsubMessageId historyId receivedAt).1 = s ∨
      s.pubsubIndex pubsubMessageId = none ∧
        (enqueueNotification s id pubsubMessageId historyId receivedAt).1
          = insertNotificationJob s id pubsubMessageId historyId receivedAt := by
  rw [enqueueNotification]
  split
  · exact Or.inl rfl
  · split
    · exact Or.inl rfl
    · split
      · exact Or.inl rfl
      · rename_i hnew
        exact Or.inr ⟨hnew, rfl⟩

/-- A lease that has run out is given up, with a backoff. -/
theorem recoveryMove_expireResyncLease {token : LeaseToken}
    (hprocessing : state.resyncState = .processing) :
    RecoveryMove settings token state.recovery claims
      (expireResyncLease settings now state).recovery claims :=
  .retry hprocessing

/-- **What `claim_notification_job` does** with the due job that it selects. -/
inductive ClaimOutcome (settings : Settings) (s : JobStore) (id : JobId) (clock : ℕ → Time)
    (job : GmailNotificationJob) (state : GmailMailboxState) :
    JobStore → Option ClaimedNotificationJob → Prop
  /-- An expired lease is given up, and with it an expired lease on the recovery. -/
  | expired {s' : JobStore} (processing : job.state = .processing)
      (mailbox : s' = s ∨ state.resyncState = .processing ∧
        s' = s.setMailbox (expireResyncLease settings (clock 2) state)) :
      ClaimOutcome settings s id clock job state
        (s'.setJob id { job with
          state := .pending
          leaseToken := none
          leaseExpiresAt := none
          lastErrorCode := some "job_lease_expired"
          nextAttemptAt := some (retryAt settings (clock 1) (max 1 job.attemptCount)) }) none
  | manual (pending : job.state = .pending) (manual : state.resyncState = .manualRequired) :
      ClaimOutcome settings s id clock job state
        (s.setJob id { job with
          state := .deadLetter
          lastErrorCode := some "resync_manual_required"
          nextAttemptAt := none
          processedAt := some (clock 0) }) none
  | limit {state' : GmailMailboxState} (pending : job.state = .pending)
      (spent : settings.notificationMaxAttempts ≤ job.attemptCount)
      (idle : state.resyncState = .idle) (cursor : state'.historyCursor = state.historyCursor)
      (recovery : state'.recovery = ⟨true, .required, state.resyncGeneration + 1,
        state.resyncLeaseToken, state.resyncLeaseExpiresAt, 0, some (clock 0), none, 0⟩) :
      ClaimOutcome settings s id clock job state
        ((s.setMailbox state').setJob id { job with
          lastErrorCode := some "attempt_limit_exceeded"
          nextAttemptAt := some (clock 0) }) none
  | granted (pending : job.state = .pending) (automatic : state.resyncState ≠ .manualRequired)
      (unspent : ¬(settings.notificationMaxAttempts ≤ job.attemptCount ∧
        state.resyncState = .idle)) :
      ClaimOutcome settings s id clock job state
        (s.setJob id { job with
          state := .processing
          attemptCount := job.attemptCount + 1
          leaseToken := some s.nextToken
          leaseExpiresAt := some (clock 0 + settings.leaseDuration)
          nextAttemptAt := none }).drawToken
        (some ⟨id, job.historyId, s.nextToken, state.resyncGeneration⟩)

theorem pending_of_due {job : GmailNotificationJob} (hdue : job.due now = true)
    (h : job.state ≠ .processing) : job.state = .pending := by
  rw [GmailNotificationJob.due] at hdue
  cases hstate : job.state with
  | pending => rfl
  | processing => exact absurd hstate h
  | succeeded | deadLetter =>
    rw [hstate] at hdue
    cases hdue

theorem claimOutcome_of_claim {id : JobId} {claim : Option ClaimedNotificationJob}
    (h : claimNotificationJob settings s id clock = some (s', claim)) :
    ∃ job state, s.jobs id = some job ∧ s.mailbox = some state ∧ job.due (clock 0) = true ∧
      ClaimOutcome settings s id clock job state s' claim := by
  rw [claimNotificationJob] at h
  dsimp only at h
  split at h
  · rename_i job state hjob hmailbox
    split at h
    · rename_i hdue
      refine ⟨job, state, hjob, hmailbox, hdue, ?_⟩
      split at h
      · rename_i hprocessing
        split at h
        · rename_i hexpired
          obtain ⟨rfl, rfl⟩ := by simpa using h
          exact .expired hprocessing (Or.inr ⟨hexpired.1, rfl⟩)
        · obtain ⟨rfl, rfl⟩ := by simpa using h
          exact .expired hprocessing (Or.inl rfl)
      · rename_i hpending
        replace hpending := pending_of_due hdue hpending
        split at h
        · rename_i hmanual
          obtain ⟨rfl, rfl⟩ := by simpa using h
          exact .manual hpending hmanual
        · rename_i hautomatic
          split at h
          · rename_i hlimit
            obtain ⟨rfl, rfl⟩ := by simpa using h
            exact .limit hpending hlimit.1 hlimit.2 rfl rfl
          · rename_i hunspent
            obtain ⟨rfl, rfl⟩ := by simpa using h
            exact .granted hpending hautomatic hunspent
    · cases h
  · cases h

theorem storeMove_claimNotificationJob {id : JobId} {claim : Option ClaimedNotificationJob}
    (h : claimNotificationJob settings s id clock = some (s', claim)) :
    StoreMove settings s s' claims claims := by
  obtain ⟨job, state, -, hmailbox, -, houtcome⟩ := claimOutcome_of_claim h
  cases houtcome with
  | expired _ mailbox =>
    rcases mailbox with rfl | ⟨hexpired, rfl⟩
    · exact .of_mailbox_eq rfl le_rfl
    · exact .of_mailbox hmailbox rfl le_rfl (recoveryMove_expireResyncLease hexpired)
        (Or.inl hexpired) fun h ↦ h
  | manual => exact .of_mailbox_eq rfl le_rfl
  | limit _ _ idle cursor recovery =>
    refine .of_mailbox hmailbox rfl le_rfl ?_ (Or.inr (Nat.le_of_eq (by rw [cursor])))
      (by rw [cursor]; exact fun h ↦ h)
    rw [recovery]
    exact .start idle (Or.inl ⟨rfl, rfl⟩) rfl
  | granted => exact .of_mailbox_eq rfl (Nat.le_succ _)

/-- A granted claim carries the generation of the mailbox. -/
theorem claimNotificationJob_resyncGeneration {id : JobId} {claim : ClaimedNotificationJob}
    (h : claimNotificationJob settings s id clock = some (s', some claim)) :
    claim.resyncGeneration = s.recovery.generation := by
  obtain ⟨job, state, -, hmailbox, -, houtcome⟩ := claimOutcome_of_claim h
  rw [JobStore.recovery_of_mailbox hmailbox]
  cases houtcome with
  | granted => rfl

theorem storeMove_completeJobAndAdvanceCursor (claim : ClaimedNotificationJob)
    (historyCursor : ℕ) :
    StoreMove settings s (completeJobAndAdvanceCursor settings s clock claim historyCursor).1 claims
      claims := by
  rw [completeJobAndAdvanceCursor]
  split
  · exact .refl s
  · split
    · exact .of_mailbox_eq rfl le_rfl
    · rename_i state hmailbox
      split
      · exact .of_mailbox_eq rfl le_rfl
      · exact .of_mailbox hmailbox rfl le_rfl .stay (Or.inr (le_max_left _ _)) fun _ ↦ rfl

/-- `_start_resync_locked` starts a recovery of an idle mailbox. -/
theorem recoveryMove_startResyncLocked {token : LeaseToken} {errorCode : String}
    (hidle : state.resyncState = .idle) :
    RecoveryMove settings token state.recovery claims
      (startResyncLocked state errorCode now).recovery claims := by
  rw [startResyncLocked, if_pos hidle, if_neg (by rw [hidle]; rintro ⟨⟩)]
  exact .start hidle (Or.inr ⟨rfl, rfl⟩) rfl

theorem storeMove_failJob (claim : ClaimedNotificationJob) (args : FailArgs) :
    StoreMove settings s (failJob settings s clock claim args) claims claims := by
  rw [failJob]
  dsimp only
  split
  · exact .refl s
  · split
    · exact .of_mailbox_eq rfl le_rfl
    · rename_i state hmailbox
      split
      · exact .of_mailbox_eq rfl le_rfl
      · rename_i hcurrent
        have hidle : state.resyncState = .idle := not_not.mp (not_or.mp hcurrent).2
        have hstart : StoreMove settings s
            (s.setMailbox (startResyncLocked state args.errorCode (clock 0))) claims claims :=
          .of_mailbox hmailbox rfl le_rfl (recoveryMove_startResyncLocked hidle)
            (Or.inr (Nat.le_of_eq (by rw [startResyncLocked_historyCursor])))
            (by rw [startResyncLocked_historyCursor]; exact id)
        split
        · split
          · exact hstart.setJob _ _
          · exact hstart.setJob _ _
        · exact .of_mailbox_eq rfl le_rfl

theorem storeMove_requeueJob (claim : ClaimedNotificationJob) (errorCode : String)
    (nextAttemptAt : Option Time) :
    StoreMove settings s (requeueJob settings s clock claim errorCode nextAttemptAt) claims
      claims := by
  rw [requeueJob]
  split
  · exact .refl s
  · exact .of_mailbox_eq rfl le_rfl

theorem storeMove_deadLetterJob (claim : ClaimedNotificationJob) (errorCode : String) :
    StoreMove settings s (deadLetterJob s clock claim errorCode) claims claims := by
  rw [deadLetterJob]
  split
  · exact .refl s
  · exact .of_mailbox_eq rfl le_rfl

theorem storeMove_claimMailboxResync :
    StoreMove settings s (claimMailboxResync settings s clock).1 claims
      ((claimMailboxResync settings s clock).2.toList ++ claims) := by
  rw [claimMailboxResync]
  split
  · exact .refl s
  · rename_i state hmailbox
    split
    · exact .refl s
    · exact .refl s
    · rename_i hprocessing
      split
      · exact .of_mailbox hmailbox rfl le_rfl (recoveryMove_expireResyncLease hprocessing)
          (Or.inl hprocessing) id
      · exact .refl s
    · rename_i hrequired
      split
      · exact .refl s
      · refine ⟨?_, Or.inr ?_, fun _ ↦ rfl, ?_, Or.inr rfl⟩
        · rw [JobStore.recovery_of_mailbox hmailbox]
          exact .grant hrequired rfl
        · rw [JobStore.cursor_of_mailbox hmailbox]
          exact le_rfl
        · rw [JobStore.historyCursor_of_mailbox hmailbox]
          exact id

/-- The row that `_locked_resync_state` selects is held by the claim. -/
theorem heldBy_of_lockedResyncState {resync : ClaimedMailboxResync}
    (h : s.lockedResyncState resync = some state) :
    s.mailbox = some state ∧ state.recovery.HeldBy resync := by
  rw [JobStore.lockedResyncState] at h
  split at h
  · cases h
  · rename_i current hmailbox
    split at h
    · rename_i hlocked
      obtain rfl := Option.some.inj h
      exact ⟨hmailbox, hlocked⟩
    · cases h

theorem storeMove_requireManualResync (resync : ClaimedMailboxResync) (errorCode : String) :
    StoreMove settings s (requireManualResync s resync errorCode).1 claims claims := by
  rw [requireManualResync]
  split
  · exact .refl s
  · rename_i state hlocked
    obtain ⟨hmailbox, hheld⟩ := heldBy_of_lockedResyncState hlocked
    exact .of_mailbox hmailbox rfl le_rfl (.manual hheld.1) (Or.inl hheld.1) id

theorem storeMove_persistPage {resync : ClaimedMailboxResync} (nextPageToken : PageToken)
    (processedCount : ℕ) (hgranted : resync ∈ claims) :
    StoreMove settings s (persistPage settings s clock resync nextPageToken processedCount).1 claims
      claims := by
  rw [persistPage]
  split
  · exact storeMove_requireManualResync _ _
  · rename_i hbelow
    rw [checkpointBoundedResync]
    split
    · exact .refl s
    · rename_i state hlocked
      obtain ⟨hmailbox, hheld⟩ := heldBy_of_lockedResyncState hlocked
      exact .of_mailbox hmailbox rfl le_rfl (.checkpoint hgranted hheld (not_le.mp hbelow))
        (Or.inl hheld.1) id

theorem storeMove_completeBoundedResync (resync : ClaimedMailboxResync) (historyCursor : ℕ) :
    StoreMove settings s (completeBoundedResync s resync historyCursor).1 claims claims := by
  rw [completeBoundedResync]
  split
  · exact .refl s
  · rename_i state hlocked
    obtain ⟨hmailbox, hheld⟩ := heldBy_of_lockedResyncState hlocked
    exact .of_mailbox hmailbox rfl le_rfl (.complete hheld.1) (Or.inl hheld.1) fun _ ↦ rfl

theorem storeMove_releaseMailboxResync (resync : ClaimedMailboxResync) (errorCode : String) :
    StoreMove settings s (releaseMailboxResync settings s clock resync errorCode).1 claims
      claims := by
  rw [releaseMailboxResync]
  split
  · exact .refl s
  · rename_i state hlocked
    obtain ⟨hmailbox, hheld⟩ := heldBy_of_lockedResyncState hlocked
    exact .of_mailbox hmailbox rfl le_rfl (.retry hheld.1) (Or.inl hheld.1) id

theorem storeMove_claimWatchRenewal :
    StoreMove settings s (claimWatchRenewal settings s now).1 claims claims := by
  rw [claimWatchRenewal]
  split
  · exact .refl s
  · split
    · exact .refl s
    · split
      · exact .refl s
      · -- The row that is created when there is none has the columns of a missing one.
        refine .stay rfl ?_ (fun _ ↦ rfl) ?_ (Nat.le_succ _)
        · rw [JobStore.cursor, JobStore.cursor]
          cases s.mailbox with
          | none => exact Nat.zero_le _
          | some state => exact le_rfl
        · rw [JobStore.historyCursor, JobStore.historyCursor]
          cases s.mailbox with
          | none => exact (by rintro ⟨⟩)
          | some state => exact id

theorem storeMove_completeWatchRenewal (leaseToken : LeaseToken) (historyId : ℕ)
    (expiresAt : Time) :
    StoreMove settings s (completeWatchRenewal s leaseToken historyId expiresAt).1 claims
      claims := by
  rw [completeWatchRenewal]
  split
  · exact .refl s
  · rename_i state hmailbox
    split
    · exact .of_mailbox hmailbox rfl le_rfl .stay (Or.inr (le_cursorOr _ _)) fun _ ↦ rfl
    · exact .refl s

theorem storeMove_failWatchRenewal (leaseToken : LeaseToken) (errorCode : String) :
    StoreMove settings s (failWatchRenewal settings s now leaseToken errorCode) claims claims := by
  rw [failWatchRenewal]
  split
  · exact .refl s
  · rename_i state hmailbox
    split
    · exact .of_mailbox hmailbox rfl le_rfl .stay (Or.inr le_rfl) id
    · exact .refl s

theorem storeMove_recordWorkerHeartbeat :
    StoreMove settings s (recordWorkerHeartbeat s now) claims claims := by
  rw [recordWorkerHeartbeat]
  split
  · exact .refl s
  · rename_i state hmailbox
    exact .of_mailbox hmailbox rfl le_rfl .stay (Or.inr le_rfl) id

/-! ## A call -/

namespace MailTables

variable {t u : MailTables} {call : TableCall} {o : TableReply}

/-- A call that presents a claim. -/
theorem eq_of_guarded {p : Prop} [Decidable p] {store : JobStore} {reply : TableReply}
    (h : (if p then some (t.setStore store, reply) else none) = some (u, o)) :
    p ∧ u = t.setStore store ∧ o = reply := by
  split at h
  · rename_i hp
    obtain ⟨rfl, rfl⟩ := Prod.mk.inj (Option.some.inj h)
    exact ⟨hp, rfl, rfl⟩
  · cases h

/-- **Every call moves the recovery.** -/
theorem storeMove_of_step (hs : t.step settings call = some (u, o)) :
    StoreMove settings t.store u.store t.resyncClaims u.resyncClaims := by
  cases call with
  | insertJob id pubsubMessageId historyId receivedAt =>
    obtain ⟨-, rfl, -⟩ := eq_of_guarded hs
    exact .of_mailbox_eq rfl le_rfl
  | claimJob id clock =>
    simp only [step] at hs
    split at hs
    · cases hs
    · rename_i store claim hclaim
      obtain ⟨rfl, -⟩ := Prod.mk.inj (Option.some.inj hs)
      exact storeMove_claimNotificationJob hclaim
  | readMailbox claim =>
    obtain ⟨-, rfl, -⟩ := eq_of_guarded hs
    exact .refl _
  | completeJob claim clock historyCursor =>
    obtain ⟨-, rfl, -⟩ := eq_of_guarded hs
    exact storeMove_completeJobAndAdvanceCursor _ _
  | failJob claim clock args =>
    obtain ⟨-, rfl, -⟩ := eq_of_guarded hs
    exact storeMove_failJob _ _
  | requeueJob claim clock errorCode nextAttemptAt =>
    obtain ⟨-, rfl, -⟩ := eq_of_guarded hs
    exact storeMove_requeueJob _ _ _
  | deadLetterJob claim clock errorCode =>
    obtain ⟨-, rfl, -⟩ := eq_of_guarded hs
    exact storeMove_deadLetterJob _ _
  | claimResync clock =>
    obtain ⟨rfl, -⟩ := Prod.mk.inj (Option.some.inj hs)
    exact storeMove_claimMailboxResync
  | persistPage resync clock nextPageToken processedCount =>
    obtain ⟨hgranted, rfl, -⟩ := eq_of_guarded hs
    exact storeMove_persistPage _ _ hgranted
  | completeResync resync historyCursor =>
    obtain ⟨-, rfl, -⟩ := eq_of_guarded hs
    exact storeMove_completeBoundedResync _ _
  | releaseResync resync clock errorCode =>
    obtain ⟨-, rfl, -⟩ := eq_of_guarded hs
    exact storeMove_releaseMailboxResync _ _
  | requireManual resync errorCode =>
    obtain ⟨-, rfl, -⟩ := eq_of_guarded hs
    exact storeMove_requireManualResync _ _
  | claimWatch now =>
    obtain ⟨rfl, -⟩ := Prod.mk.inj (Option.some.inj hs)
    exact storeMove_claimWatchRenewal
  | completeWatch leaseToken historyId expiresAt =>
    obtain ⟨rfl, -⟩ := Prod.mk.inj (Option.some.inj hs)
    exact storeMove_completeWatchRenewal _ _ _
  | failWatch now leaseToken errorCode =>
    obtain ⟨rfl, -⟩ := Prod.mk.inj (Option.some.inj hs)
    exact storeMove_failWatchRenewal _ _
  | heartbeat now =>
    obtain ⟨rfl, -⟩ := Prod.mk.inj (Option.some.inj hs)
    exact storeMove_recordWorkerHeartbeat

/-- The claims after a call: those before, and one that the call grants. -/
theorem jobClaims_of_step (hs : t.step settings call = some (u, o)) :
    u.jobClaims = t.jobClaims ∨ ∃ id clock claim, call = .claimJob id clock ∧
      claimNotificationJob settings t.store id clock = some (u.store, some claim) ∧
      u.jobClaims = claim :: t.jobClaims := by
  cases call with
  | claimJob id clock =>
    simp only [step] at hs
    split at hs
    · cases hs
    · rename_i store claim hclaim
      obtain ⟨rfl, -⟩ := Prod.mk.inj (Option.some.inj hs)
      cases claim with
      | none => exact Or.inl rfl
      | some claim => exact Or.inr ⟨id, clock, claim, rfl, hclaim, rfl⟩
  | claimResync | claimWatch | completeWatch | failWatch | heartbeat =>
    obtain ⟨rfl, -⟩ := Prod.mk.inj (Option.some.inj hs)
    exact Or.inl rfl
  | _ =>
    obtain ⟨-, rfl, -⟩ := eq_of_guarded hs
    exact Or.inl rfl

end MailTables

end

end Onebox.Notifications
