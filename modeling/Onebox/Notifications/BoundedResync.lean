import Onebox.Notifications.MailboxRow
import Onebox.Notifications.Worker

/-!
# Pages of a recovery

`_bounded_resync` on any page that the provider may answer, under any claim that has been granted,
between any other transactions on the tables. What a page holds is arbitrary JSON; all that is asked
of it is that it respects `maxResults`.

The pages that were persisted are kept in order, with the generation they belong to.
-/

namespace Onebox.Notifications

open Python Transition

/-! ## One page -/

/-- What `_bounded_resync` returns, or that it raises. -/
inductive ResyncOutcome
  | completed
  | checkpointed
  | manualRequired
  | retryable
  | lostLease
  | raised
  deriving DecidableEq

/-- What the calls of `_bounded_resync` answer; `none` where one raises. A page token is a string of
the provider's, which `pageToken` reads. -/
structure ResyncAnswers where
  page : Option Json
  triage : MessageId → Option Bool
  profile : Option Json
  pageToken : String → PageToken

/-- The `maxResults` of the request. -/
def maxResults (settings : Settings) (resync : ClaimedMailboxResync) : ℕ :=
  min 100 (settings.resyncMaxMessages - resync.messageCount)

/-- `message_ids` of a page; `none` where reading it raises. -/
def pageMessageIds (page : Json) : Option (List MessageId) :=
  if (orEmpty page).isDict then (entries (orEmpty page) "messages").map usableMessageIds else none

/-- The loop over the messages of a page. -/
def triageMessages (triage : MessageId → Option Bool) : List MessageId → Option Bool
  | [] => some true
  | messageId :: rest =>
    match triage messageId with
    | none => none
    | some false => some false
    | some true => triageMessages triage rest

/-- `next_page_token`, where it is a string that is not empty. -/
def nextPageToken (page : Json) : Option String :=
  match (orEmpty page).get? "nextPageToken" with
  | some (.str token) => if token = "" then none else some token
  | _ => none

/-- The answer after a transaction that only the holder of the lease commits. -/
def afterPersist (result : JobStore × Bool) (outcome : ResyncOutcome) : JobStore × ResyncOutcome :=
  (result.1, if result.2 then outcome else .lostLease)

/-- `_bounded_resync`. -/
def boundedResync (env : MailEnv) (s : JobStore) (clock : ℕ → Time)
    (resync : ClaimedMailboxResync) (answers : ResyncAnswers) : JobStore × ResyncOutcome :=
  if env.settings.resyncMaxMessages ≤ resync.messageCount then
    afterPersist (requireManualResync s resync "resync_total_limit_reached") .manualRequired
  else
    match answers.page with
    | none => (s, .raised)
    | some page =>
      match pageMessageIds page with
      | none => (s, .raised)
      | some messageIds =>
        match triageMessages answers.triage messageIds with
        | none => (s, .raised)
        | some false => (s, .retryable)
        | some true =>
          match nextPageToken page with
          | some token =>
            if env.settings.resyncMaxMessages ≤ resync.messageCount + messageIds.length then
              afterPersist (requireManualResync s resync "resync_total_limit_reached")
                .manualRequired
            else
              afterPersist (checkpointBoundedResync s clock resync (answers.pageToken token)
                messageIds.length) .checkpointed
          | none =>
            match answers.profile with
            | none => (s, .raised)
            | some profile =>
              if (orEmpty profile).isDict then
                match historyId env.unicode ((orEmpty profile).get? "historyId") with
                | .error _ => (s, .raised)
                | .ok none => (s, .retryable)
                | .ok (some historyCursor) =>
                  afterPersist (completeBoundedResync s resync historyCursor) .completed
              else (s, .raised)

/-! ## The system -/

/-- A page that was persisted: the generation, how it ended, and the message ids that were submitted
for triage. -/
structure PageEnd where
  generation : ℕ
  outcome : ResyncOutcome
  messageIds : List MessageId

/-- A transaction has been committed. -/
def ResyncOutcome.persists : ResyncOutcome → Bool
  | .completed | .checkpointed | .manualRequired => true
  | .retryable | .lostLease | .raised => false

/-- The page respects `maxResults`. -/
def respects (maxResults : ℕ) (page : Json) : Bool :=
  match (orEmpty page).get? "messages" with
  | some (.arr items) => items.length ≤ maxResults
  | _ => true

def ResyncAnswers.messageIds (answers : ResyncAnswers) : List MessageId :=
  (answers.page.bind pageMessageIds).getD []

/-- The tables, and the pages that were persisted, in order. -/
structure ResyncWorld where
  tables : MailTables
  pages : List PageEnd

inductive ResyncCall
  | page (resync : ClaimedMailboxResync) (clock : ℕ → Time) (answers : ResyncAnswers)
  /-- Any other transaction. -/
  | other (call : TableCall)

/-- The transaction is one that `_bounded_resync` makes, and nothing else. -/
def TableCall.isPageEnd : TableCall → Bool
  | .persistPage _ _ _ _ | .completeResync _ _ | .requireManual _ _ => true
  | _ => false

namespace ResyncWorld

def step (env : MailEnv) (w : ResyncWorld) :
    ResyncCall → Option (ResyncWorld × Option ResyncOutcome)
  | .page resync clock answers =>
    if resync ∈ w.tables.resyncClaims ∧
        answers.page.all (respects (maxResults env.settings resync)) = true then
      let result := boundedResync env w.tables.store clock resync answers
      let pages := if result.2.persists then
          w.pages ++ [⟨resync.generation, result.2, answers.messageIds⟩]
        else w.pages
      some (⟨w.tables.setStore result.1, pages⟩, some result.2)
    else none
  | .other call =>
    if call.isPageEnd then none
    else (w.tables.step env.settings call).map fun (tables, _) ↦ (⟨tables, w.pages⟩, none)

end ResyncWorld

/-- The pages of the recoveries of one mailbox, from empty tables on. -/
def resyncPages (env : MailEnv) : System ResyncWorld ResyncCall (Option ResyncOutcome) where
  init w := (mailTables env.settings).init w.tables ∧ w.pages = []
  step := ResyncWorld.step env

/-! ## Between the pages -/

/-- A recovery is under way. -/
def RecoveryColumns.Active (r : RecoveryColumns) : Prop :=
  r.state = .required ∨ r.state = .processing

/-- What the recovery columns do between the pages: the count stays, or the next generation begins
with none. -/
inductive RecoveryColumns.Waits (r : RecoveryColumns) : RecoveryColumns → Prop
  | same {r' : RecoveryColumns} (generation : r'.generation = r.generation)
      (messageCount : r'.messageCount = r.messageCount) (active : r'.Active → r.Active) : Waits r r'
  | begins {r' : RecoveryColumns} (generation : r'.generation = r.generation + 1)
      (messageCount : r'.messageCount = 0) : Waits r r'

section

variable {settings : Settings} {s s' : JobStore} {clock : ℕ → Time} {now : Time}
  {state state' : GmailMailboxState}

namespace RecoveryColumns.Waits

theorem of_eq {r r' : RecoveryColumns} (h : r' = r) : r.Waits r' := by
  rw [h]
  exact .same rfl rfl id

theorem of_mailbox_eq (h : s'.mailbox = s.mailbox) : s.recovery.Waits s'.recovery :=
  of_eq (by rw [JobStore.recovery, JobStore.recovery, h])

theorem refl (s : JobStore) : s.recovery.Waits s.recovery := of_eq rfl

/-- The mailbox row is written. -/
theorem of_mailbox (h : s.mailbox = some state) (h' : s'.mailbox = some state')
    (hwaits : state.recovery.Waits state'.recovery) : s.recovery.Waits s'.recovery := by
  rw [JobStore.recovery_of_mailbox h, JobStore.recovery_of_mailbox h']
  exact hwaits

/-- The recovery is put back, or its next lease is taken. -/
theorem of_active (h : state.recovery.Active) (hgeneration : state'.resyncGeneration =
    state.resyncGeneration) (hcount : state'.resyncMessageCount = state.resyncMessageCount) :
    state.recovery.Waits state'.recovery :=
  .same hgeneration hcount fun _ ↦ h

end RecoveryColumns.Waits

open RecoveryColumns (Waits)

theorem waits_claimNotificationJob {id : JobId} {claim : Option ClaimedNotificationJob}
    (h : claimNotificationJob settings s id clock = some (s', claim)) :
    s.recovery.Waits s'.recovery := by
  obtain ⟨job, state, -, hmailbox, -, houtcome⟩ := claimOutcome_of_claim h
  cases houtcome with
  | expired _ mailbox =>
    rcases mailbox with rfl | ⟨hprocessing, rfl⟩
    · exact .of_mailbox_eq rfl
    · exact .of_mailbox hmailbox rfl (.of_active (Or.inr hprocessing) rfl rfl)
  | manual => exact .of_mailbox_eq rfl
  | limit _ _ _ _ recovery =>
    refine .of_mailbox hmailbox rfl ?_
    rw [recovery]
    exact .begins rfl rfl
  | granted => exact .of_mailbox_eq rfl

theorem waits_completeJobAndAdvanceCursor (claim : ClaimedNotificationJob) (historyCursor : ℕ) :
    s.recovery.Waits
      (completeJobAndAdvanceCursor settings s clock claim historyCursor).1.recovery := by
  rw [completeJobAndAdvanceCursor]
  split
  · exact .refl s
  · split
    · exact .of_mailbox_eq rfl
    · rename_i state hmailbox
      split
      · exact .of_mailbox_eq rfl
      · exact .of_mailbox hmailbox rfl (.of_eq rfl)

theorem waits_failJob (claim : ClaimedNotificationJob) (args : FailArgs) :
    s.recovery.Waits (failJob settings s clock claim args).recovery := by
  rw [failJob]
  dsimp only
  split
  · exact .refl s
  · split
    · exact .of_mailbox_eq rfl
    · rename_i state hmailbox
      split
      · exact .of_mailbox_eq rfl
      · rename_i hcurrent
        have hidle : state.resyncState = .idle := not_not.mp (not_or.mp hcurrent).2
        have hstart : state.recovery.Waits
            (startResyncLocked state args.errorCode (clock 0)).recovery := by
          rw [startResyncLocked, if_pos hidle, if_neg (by rw [hidle]; rintro ⟨⟩)]
          exact .begins rfl rfl
        split
        · split
          · exact .of_mailbox hmailbox rfl hstart
          · exact .of_mailbox hmailbox rfl hstart
        · exact .of_mailbox_eq rfl

theorem waits_claimMailboxResync :
    s.recovery.Waits (claimMailboxResync settings s clock).1.recovery := by
  rw [claimMailboxResync]
  split
  · exact .refl s
  · rename_i state hmailbox
    split
    · exact .refl s
    · exact .refl s
    · rename_i hprocessing
      split
      · exact .of_mailbox hmailbox rfl (.of_active (Or.inr hprocessing) rfl rfl)
      · exact .refl s
    · rename_i hrequired
      split
      · exact .refl s
      · exact .of_mailbox hmailbox rfl (.of_active (Or.inl hrequired) rfl rfl)

theorem waits_releaseMailboxResync (resync : ClaimedMailboxResync) (errorCode : String) :
    s.recovery.Waits (releaseMailboxResync settings s clock resync errorCode).1.recovery := by
  rw [releaseMailboxResync]
  split
  · exact .refl s
  · rename_i state hlocked
    obtain ⟨hmailbox, hheld⟩ := heldBy_of_lockedResyncState hlocked
    exact .of_mailbox hmailbox rfl (.of_active (Or.inr hheld.1) rfl rfl)

theorem waits_claimWatchRenewal :
    s.recovery.Waits (claimWatchRenewal settings s now).1.recovery := by
  rw [claimWatchRenewal]
  split
  · exact .refl s
  · split
    · exact .refl s
    · split
      · exact .refl s
      · exact .of_eq rfl

/-- **Only a page counts messages.** -/
theorem waits_of_step {t u : MailTables} {call : TableCall} {o : TableReply}
    (hother : call.isPageEnd = false) (hs : t.step settings call = some (u, o)) :
    t.store.recovery.Waits u.store.recovery := by
  cases call with
  | insertJob id pubsubMessageId historyId receivedAt =>
    obtain ⟨-, rfl, -⟩ := MailTables.eq_of_guarded hs
    exact .of_mailbox_eq rfl
  | claimJob id clock =>
    simp only [MailTables.step] at hs
    split at hs
    · cases hs
    · rename_i store claim hclaim
      obtain ⟨rfl, -⟩ := Prod.mk.inj (Option.some.inj hs)
      exact waits_claimNotificationJob hclaim
  | readMailbox claim =>
    obtain ⟨-, rfl, -⟩ := MailTables.eq_of_guarded hs
    exact .refl _
  | completeJob claim clock historyCursor =>
    obtain ⟨-, rfl, -⟩ := MailTables.eq_of_guarded hs
    exact waits_completeJobAndAdvanceCursor claim historyCursor
  | failJob claim clock args =>
    obtain ⟨-, rfl, -⟩ := MailTables.eq_of_guarded hs
    exact waits_failJob claim args
  | requeueJob claim clock errorCode nextAttemptAt =>
    obtain ⟨-, rfl, -⟩ := MailTables.eq_of_guarded hs
    refine .of_mailbox_eq ?_
    rw [requeueJob]
    split <;> rfl
  | deadLetterJob claim clock errorCode =>
    obtain ⟨-, rfl, -⟩ := MailTables.eq_of_guarded hs
    refine .of_mailbox_eq ?_
    rw [deadLetterJob]
    split <;> rfl
  | claimResync clock =>
    obtain ⟨rfl, -⟩ := Prod.mk.inj (Option.some.inj hs)
    exact waits_claimMailboxResync
  | releaseResync resync clock errorCode =>
    obtain ⟨-, rfl, -⟩ := MailTables.eq_of_guarded hs
    exact waits_releaseMailboxResync resync errorCode
  | persistPage | completeResync | requireManual => cases hother
  | claimWatch now =>
    obtain ⟨rfl, -⟩ := Prod.mk.inj (Option.some.inj hs)
    exact waits_claimWatchRenewal
  | completeWatch leaseToken historyId expiresAt =>
    obtain ⟨rfl, -⟩ := Prod.mk.inj (Option.some.inj hs)
    rw [completeWatchRenewal.eq_def]
    split
    · exact .refl _
    · rename_i state hmailbox
      split
      · exact .of_mailbox hmailbox rfl (.of_eq rfl)
      · exact .refl _
  | failWatch now leaseToken errorCode =>
    obtain ⟨rfl, -⟩ := Prod.mk.inj (Option.some.inj hs)
    rw [failWatchRenewal.eq_def]
    split
    · exact .refl _
    · rename_i state hmailbox
      split
      · exact .of_mailbox hmailbox rfl (.of_eq rfl)
      · exact .refl _
  | heartbeat now =>
    obtain ⟨rfl, -⟩ := Prod.mk.inj (Option.some.inj hs)
    rw [recordWorkerHeartbeat.eq_def]
    split
    · exact .refl _
    · rename_i state hmailbox
      exact .of_mailbox hmailbox rfl (.of_eq rfl)

end

end Onebox.Notifications
