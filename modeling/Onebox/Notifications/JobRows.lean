import Onebox.Notifications.Refinement

/-!
# The rows of the job table

A job is pending, leased to one claim, or over. Its row moves by one of six moves, whoever makes the
call; three of them need the lease of the claim that makes them, and a lease token is drawn for one
claim only. That the cursor has reached a job that succeeds, and that the mailbox of a job that is
buried is missing or with an operator, is what the workers add.
-/

namespace Onebox.Notifications

open Python Transition

/-! ## Moves of a row -/

/-- The claim's lease is that of the row. -/
def GmailNotificationJob.HeldBy (job : GmailNotificationJob) (claim : ClaimedNotificationJob) :
    Prop :=
  job.state = .processing ∧ job.leaseToken = some claim.leaseToken

/-- The states that are never left. -/
def JobState.Terminal (state : JobState) : Prop := state = .succeeded ∨ state = .deadLetter

/-- The edges of the state graph. -/
inductive JobState.Next : JobState → JobState → Prop
  | claim : Next pending processing
  | buryPending : Next pending deadLetter
  | back : Next processing pending
  | succeed : Next processing succeeded
  | bury : Next processing deadLetter

/-- **The moves of a row** in a transaction that takes the tables from `s` to `s'`. -/
inductive JobMove (s s' : JobStore) (job : GmailNotificationJob) : GmailNotificationJob → Prop
  | stay : JobMove s s' job job
  /-- The job that starts a recovery at the attempt limit. -/
  | mark {errorCode : String} {nextAttemptAt : Time} (pending : job.state = .pending) :
      JobMove s s' job
        { job with lastErrorCode := some errorCode, nextAttemptAt := some nextAttemptAt }
  | grant {leaseExpiresAt : Time} (pending : job.state = .pending)
      (drawn : s'.nextToken = s.nextToken + 1) :
      JobMove s s' job { job with
        state := .processing
        attemptCount := job.attemptCount + 1
        leaseToken := some s.nextToken
        leaseExpiresAt := some leaseExpiresAt
        nextAttemptAt := none }
  | back {errorCode : String} {nextAttemptAt : Time} {processedAt : Option Time}
      (processing : job.state = .processing)
      (unprocessed : processedAt = job.processedAt ∨ processedAt = none) :
      JobMove s s' job
        { job.backToPending nextAttemptAt errorCode with processedAt := processedAt }
  | succeed {now : Time} (processing : job.state = .processing)
      (reached : job.historyId ≤ s'.cursor) :
      JobMove s s' job { job with
        state := .succeeded
        lastErrorCode := none
        processedAt := some now
        nextAttemptAt := none }
  | bury {leaseToken : Option LeaseToken} {leaseExpiresAt : Option Time} {errorCode : String}
      {now : Time} (active : ¬job.state.Terminal)
      (lease : leaseToken = job.leaseToken ∨ leaseToken = none)
      (stuck : s.mailbox = none ∨ s.recovery.state = .manualRequired) :
      JobMove s s' job { job with
        state := .deadLetter
        leaseToken := leaseToken
        leaseExpiresAt := leaseExpiresAt
        nextAttemptAt := none
        lastErrorCode := some errorCode
        processedAt := some now }

/-- The columns of a row agree with its state. -/
structure GmailNotificationJob.WellFormed (job : GmailNotificationJob) : Prop where
  pending : job.state = .pending → job.leaseToken = none ∧ job.leaseExpiresAt = none
  processing : job.state = .processing →
    job.leaseToken.isSome = true ∧ job.leaseExpiresAt.isSome = true
  processedAt : job.processedAt.isSome = true ↔ job.state.Terminal

section

variable {s s' : JobStore} {job job' : GmailNotificationJob} {claim : ClaimedNotificationJob}

theorem JobState.not_terminal_pending : ¬JobState.pending.Terminal := by
  rintro (h | h)
  · cases h
  · cases h

theorem JobState.not_terminal_processing : ¬JobState.processing.Terminal := by
  rintro (h | h)
  · cases h
  · cases h

theorem JobMove.state_eq_or_next (h : JobMove s s' job job') :
    job'.state = job.state ∨ JobState.Next job.state job'.state := by
  cases h with
  | stay => exact Or.inl rfl
  | mark => exact Or.inl rfl
  | grant pending => rw [pending]; exact Or.inr .claim
  | back processing => rw [processing]; exact Or.inr .back
  | succeed processing => rw [processing]; exact Or.inr .succeed
  | bury active =>
    cases hstate : job.state with
    | pending => exact Or.inr .buryPending
    | processing => exact Or.inr .bury
    | succeeded => exact absurd (Or.inl hstate) active
    | deadLetter => exact absurd (Or.inr hstate) active

/-- A row that is over does not change. -/
theorem JobMove.eq_of_terminal (h : JobMove s s' job job') (hover : job.state.Terminal) :
    job' = job := by
  cases h with
  | stay => rfl
  | mark pending | grant pending =>
    rw [pending] at hover
    exact absurd hover JobState.not_terminal_pending
  | back processing | succeed processing =>
    rw [processing] at hover
    exact absurd hover JobState.not_terminal_processing
  | bury active => exact absurd hover active

theorem JobMove.immutable (h : JobMove s s' job job') :
    job'.pubsubMessageId = job.pubsubMessageId ∧ job'.historyId = job.historyId := by
  cases h with
  | _ => exact ⟨rfl, rfl⟩

/-- The lease in a row is an old one, or the one that the transaction draws. -/
theorem JobMove.leaseToken (h : JobMove s s' job job') {token : LeaseToken}
    (htoken : job'.leaseToken = some token) :
    job.leaseToken = some token ∨ token = s.nextToken ∧ s'.nextToken = s.nextToken + 1 := by
  cases h with
  | grant pending drawn => exact Or.inr ⟨(Option.some.inj htoken).symm, drawn⟩
  | back => cases htoken
  | bury active lease =>
    rcases lease with hsame | hnone
    · exact Or.inl (hsame ▸ htoken)
    · rw [hnone] at htoken
      cases htoken
  | _ => exact Or.inl htoken

/-- A claim that has lost its lease does not get it back. -/
theorem JobMove.not_heldBy (h : JobMove s s' job job') (hdrawn : claim.leaseToken < s.nextToken)
    (hlost : ¬job.HeldBy claim) : ¬job'.HeldBy claim := by
  rintro ⟨hstate, htoken⟩
  cases h with
  | stay => exact hlost ⟨hstate, htoken⟩
  | mark pending =>
    have hpending : job.state = .processing := hstate
    rw [pending] at hpending
    cases hpending
  | grant => exact absurd (Option.some.inj htoken) (Nat.ne_of_gt hdrawn)
  | back | succeed | bury => cases hstate

theorem JobMove.succeeded (h : JobMove s s' job job') (hbefore : job.state ≠ .succeeded)
    (hafter : job'.state = .succeeded) : job.historyId ≤ s'.cursor := by
  cases h with
  | stay | mark => exact absurd hafter hbefore
  | succeed processing reached => exact reached
  | grant | back | bury => cases hafter

theorem JobMove.buried (h : JobMove s s' job job') (hbefore : job.state ≠ .deadLetter)
    (hafter : job'.state = .deadLetter) :
    s.mailbox = none ∨ s.recovery.state = .manualRequired := by
  cases h with
  | stay | mark => exact absurd hafter hbefore
  | bury active lease stuck => exact stuck
  | grant | back | succeed => cases hafter

theorem wellFormed_of_terminal (hover : job.state.Terminal)
    (hprocessed : job.processedAt.isSome = true) : job.WellFormed := by
  refine ⟨fun hp ↦ ?_, fun hp ↦ ?_, iff_of_true hprocessed hover⟩
  · rw [hp] at hover
    exact absurd hover JobState.not_terminal_pending
  · rw [hp] at hover
    exact absurd hover JobState.not_terminal_processing

/-- The step lemma for a row. -/
theorem GmailNotificationJob.WellFormed.move (hrow : job.WellFormed) (h : JobMove s s' job job') :
    job'.WellFormed := by
  have hunprocessed : ¬job.state.Terminal → job.processedAt = none := fun hactive ↦
    Option.not_isSome_iff_eq_none.mp (mt hrow.processedAt.mp hactive)
  cases h with
  | stay => exact hrow
  | mark pending => exact ⟨hrow.pending, hrow.processing, hrow.processedAt⟩
  | grant pending drawn =>
    refine ⟨nofun, fun _ ↦ ⟨rfl, rfl⟩, iff_of_false ?_ JobState.not_terminal_processing⟩
    rw [hunprocessed (by rw [pending]; exact JobState.not_terminal_pending)]
    exact nofun
  | @back errorCode nextAttemptAt processedAt processing unprocessed =>
    have hnone : processedAt = none := by
      rcases unprocessed with hsame | hnone
      · rw [hsame]
        exact hunprocessed (by rw [processing]; exact JobState.not_terminal_processing)
      · exact hnone
    refine ⟨fun _ ↦ ⟨rfl, rfl⟩, nofun, iff_of_false ?_ JobState.not_terminal_pending⟩
    rw [hnone]
    exact nofun
  | succeed => exact wellFormed_of_terminal (Or.inl rfl) rfl
  | bury => exact wellFormed_of_terminal (Or.inr rfl) rfl

end

/-! ## What a transaction does to the table -/

/-- Every row moves, and none appears. -/
structure JobsMove (s s' : JobStore) : Prop where
  row : ∀ id job, s.jobs id = some job → ∃ job', s'.jobs id = some job' ∧ JobMove s s' job job'
  absent : ∀ id, s.jobs id = none → s'.jobs id = none
  index : s'.pubsubIndex = s.pubsubIndex
  tokens : s.nextToken ≤ s'.nextToken

section

variable {settings : Settings} {s s' : JobStore} {clock : ℕ → Time} {now : Time} {id : JobId}
  {job job' : GmailNotificationJob} {claim : ClaimedNotificationJob}

namespace JobsMove

theorem of_jobs_eq (hjobs : s'.jobs = s.jobs) (hindex : s'.pubsubIndex = s.pubsubIndex)
    (htokens : s.nextToken ≤ s'.nextToken) : JobsMove s s' where
  row id job hjob := ⟨job, by rw [hjobs, hjob], .stay⟩
  absent id hnone := by rw [hjobs, hnone]
  index := hindex
  tokens := htokens

theorem refl (s : JobStore) : JobsMove s s := of_jobs_eq rfl rfl le_rfl

/-- One row is written. -/
theorem of_setJob (hjob : s.jobs id = some job)
    (hjobs : s'.jobs = Function.update s.jobs id (some job')) (hmove : JobMove s s' job job')
    (hindex : s'.pubsubIndex = s.pubsubIndex) (htokens : s.nextToken ≤ s'.nextToken) :
    JobsMove s s' where
  row other job₁ hother := by
    rw [hjobs]
    by_cases hsame : other = id
    · subst hsame
      obtain rfl := Option.some.inj (hjob.symm.trans hother)
      exact ⟨job', Function.update_self _ _ _, hmove⟩
    · exact ⟨job₁, by rw [Function.update_of_ne hsame, hother], .stay⟩
  absent other hnone := by
    have hne : other ≠ id := by
      rintro rfl
      rw [hjob] at hnone
      cases hnone
    rw [hjobs, Function.update_of_ne hne, hnone]
  index := hindex
  tokens := htokens

end JobsMove

/-- The rows that were there are not touched by an insert. -/
theorem insertNotificationJob_of_ne {pubsubMessageId : String} {historyId : ℕ} {receivedAt : Time}
    {other : JobId} (h : other ≠ id) :
    (insertNotificationJob s id pubsubMessageId historyId receivedAt).jobs other = s.jobs other :=
  Function.update_of_ne h _ _

theorem insertNotificationJob_index_self (s : JobStore) (id : JobId) (pubsubMessageId : String)
    (historyId : ℕ) (receivedAt : Time) :
    (insertNotificationJob s id pubsubMessageId historyId receivedAt).pubsubIndex pubsubMessageId
      = some id := Function.update_self _ _ _

theorem insertNotificationJob_index_of_ne {pubsubMessageId other : String} {historyId : ℕ}
    {receivedAt : Time} (h : other ≠ pubsubMessageId) :
    (insertNotificationJob s id pubsubMessageId historyId receivedAt).pubsubIndex other
      = s.pubsubIndex other := Function.update_of_ne h _ _

/-- The row that is inserted. -/
theorem insertNotificationJob_self (s : JobStore) (id : JobId) (pubsubMessageId : String)
    (historyId : ℕ) (receivedAt : Time) :
    ∃ job, (insertNotificationJob s id pubsubMessageId historyId receivedAt).jobs id = some job ∧
      job.pubsubMessageId = pubsubMessageId ∧ job.historyId = historyId ∧ job.state = .pending ∧
      job.WellFormed := by
  refine ⟨_, Function.update_self _ _ _, rfl, rfl, rfl, fun _ ↦ ⟨rfl, rfl⟩, nofun, ?_⟩
  exact iff_of_false nofun JobState.not_terminal_pending

/-- The row that is locked under a claim is held by it. -/
theorem heldBy_of_heldJob (h : s.heldJob claim = some job) :
    s.jobs claim.id = some job ∧ job.HeldBy claim := by
  rw [JobStore.heldJob] at h
  split at h
  · cases h
  · rename_i current hcurrent
    split at h
    · rename_i hheld
      obtain rfl := Option.some.inj h
      exact ⟨hcurrent, hheld⟩
    · cases h

theorem heldJob_eq_some (hjob : s.jobs claim.id = some job) (h : job.HeldBy claim) :
    s.heldJob claim = some job := by
  rw [JobStore.heldJob, hjob]
  exact if_pos h

theorem heldJob_eq_none (hjob : s.jobs claim.id = some job) (h : ¬job.HeldBy claim) :
    s.heldJob claim = none := by
  rw [JobStore.heldJob, hjob]
  exact if_neg h

theorem not_terminal_of_heldBy (h : job.HeldBy claim) : ¬job.state.Terminal := by
  rw [h.1]
  exact JobState.not_terminal_processing

theorem jobsMove_claimNotificationJob {granted : Option ClaimedNotificationJob}
    (h : claimNotificationJob settings s id clock = some (s', granted)) : JobsMove s s' := by
  obtain ⟨job, state, hjob, hmailbox, -, houtcome⟩ := claimOutcome_of_claim h
  cases houtcome with
  | expired processing mailbox =>
    rcases mailbox with rfl | ⟨-, rfl⟩
    · exact .of_setJob hjob rfl (.back processing (Or.inl rfl)) rfl le_rfl
    · exact .of_setJob hjob rfl (.back processing (Or.inl rfl)) rfl le_rfl
  | manual pending manual =>
    refine .of_setJob hjob rfl (.bury ?_ (Or.inl rfl) (Or.inr ?_)) rfl le_rfl
    · rw [pending]
      exact JobState.not_terminal_pending
    · rw [JobStore.recovery_of_mailbox hmailbox]
      exact manual
  | limit pending => exact .of_setJob hjob rfl (.mark pending) rfl le_rfl
  | granted pending => exact .of_setJob hjob rfl (.grant pending rfl) rfl (Nat.le_succ _)

theorem jobsMove_withoutMailbox (hjob : s.jobs claim.id = some job) (hheld : job.HeldBy claim)
    (hmailbox : s.mailbox = none) : JobsMove s (s.setJob claim.id (job.withoutMailbox now)) :=
  .of_setJob hjob rfl (.bury (not_terminal_of_heldBy hheld) (Or.inl rfl) (Or.inl hmailbox)) rfl
    le_rfl

theorem jobsMove_completeJobAndAdvanceCursor {historyCursor : ℕ}
    (hreached : ∀ job, s.jobs claim.id = some job → job.historyId ≤ historyCursor) :
    JobsMove s (completeJobAndAdvanceCursor settings s clock claim historyCursor).1 := by
  rw [completeJobAndAdvanceCursor]
  split
  · exact .refl s
  · rename_i job hlocked
    obtain ⟨hjob, hheld⟩ := heldBy_of_heldJob hlocked
    split
    · rename_i hmailbox
      exact jobsMove_withoutMailbox hjob hheld hmailbox
    · split
      · exact .of_setJob hjob rfl (.back hheld.1 (Or.inr rfl)) rfl le_rfl
      · refine .of_setJob hjob rfl (.succeed hheld.1 ?_) rfl le_rfl
        exact le_trans (hreached job hjob) (le_max_right _ _)

theorem jobsMove_failJob (args : FailArgs) :
    JobsMove s (failJob settings s clock claim args) := by
  rw [failJob]
  dsimp only
  split
  · exact .refl s
  · rename_i job hlocked
    obtain ⟨hjob, hheld⟩ := heldBy_of_heldJob hlocked
    split
    · rename_i hmailbox
      exact jobsMove_withoutMailbox hjob hheld hmailbox
    · rename_i state hmailbox
      split
      · exact .of_setJob hjob rfl (.back hheld.1 (Or.inr rfl)) rfl le_rfl
      · rename_i hcurrent
        split
        · split
          -- A recovery that has just been started needs no operator.
          · rename_i hmanual
            rw [startResyncLocked, if_pos (not_not.mp (not_or.mp hcurrent).2)] at hmanual
            split at hmanual
            · rename_i hmanual'
              rw [not_not.mp (not_or.mp hcurrent).2] at hmanual'
              cases hmanual'
            · cases hmanual
          · exact .of_setJob hjob rfl (.back hheld.1 (Or.inr rfl)) rfl le_rfl
        · exact .of_setJob hjob rfl (.back hheld.1 (Or.inl rfl)) rfl le_rfl

theorem jobsMove_requeueJob (errorCode : String) (nextAttemptAt : Option Time) :
    JobsMove s (requeueJob settings s clock claim errorCode nextAttemptAt) := by
  rw [requeueJob]
  split
  · exact .refl s
  · rename_i job hlocked
    obtain ⟨hjob, hheld⟩ := heldBy_of_heldJob hlocked
    exact .of_setJob hjob rfl (.back hheld.1 (Or.inl rfl)) rfl le_rfl

theorem jobsMove_deadLetterJob (errorCode : String)
    (hmanual : s.recovery.state = .manualRequired) :
    JobsMove s (deadLetterJob s clock claim errorCode) := by
  rw [deadLetterJob]
  split
  · exact .refl s
  · rename_i job hlocked
    obtain ⟨hjob, hheld⟩ := heldBy_of_heldJob hlocked
    exact .of_setJob hjob rfl
      (.bury (not_terminal_of_heldBy hheld) (Or.inr rfl) (Or.inr hmanual)) rfl le_rfl

theorem jobsMove_claimMailboxResync :
    JobsMove s (claimMailboxResync settings s clock).1 := by
  rw [claimMailboxResync]
  split
  · exact .refl s
  · split
    · exact .refl s
    · exact .refl s
    · split
      · exact .of_jobs_eq rfl rfl le_rfl
      · exact .refl s
    · split
      · exact .refl s
      · exact .of_jobs_eq rfl rfl (Nat.le_succ _)

theorem jobsMove_requireManualResync (resync : ClaimedMailboxResync) (errorCode : String) :
    JobsMove s (requireManualResync s resync errorCode).1 := by
  rw [requireManualResync]
  split
  · exact .refl s
  · exact .of_jobs_eq rfl rfl le_rfl

theorem jobsMove_persistPage (resync : ClaimedMailboxResync) (nextPageToken : PageToken)
    (processedCount : ℕ) :
    JobsMove s (persistPage settings s clock resync nextPageToken processedCount).1 := by
  rw [persistPage]
  split
  · exact jobsMove_requireManualResync _ _
  · rw [checkpointBoundedResync]
    split
    · exact .refl s
    · exact .of_jobs_eq rfl rfl le_rfl

theorem jobsMove_completeBoundedResync (resync : ClaimedMailboxResync) (historyCursor : ℕ) :
    JobsMove s (completeBoundedResync s resync historyCursor).1 := by
  rw [completeBoundedResync]
  split
  · exact .refl s
  · exact .of_jobs_eq rfl rfl le_rfl

theorem jobsMove_releaseMailboxResync (resync : ClaimedMailboxResync) (errorCode : String) :
    JobsMove s (releaseMailboxResync settings s clock resync errorCode).1 := by
  rw [releaseMailboxResync]
  split
  · exact .refl s
  · exact .of_jobs_eq rfl rfl le_rfl

theorem jobsMove_claimWatchRenewal : JobsMove s (claimWatchRenewal settings s now).1 := by
  rw [claimWatchRenewal]
  split
  · exact .refl s
  · split
    · exact .refl s
    · split
      · exact .refl s
      · exact .of_jobs_eq rfl rfl (Nat.le_succ _)

theorem jobsMove_completeWatchRenewal (leaseToken : LeaseToken) (historyId : ℕ)
    (expiresAt : Time) :
    JobsMove s (completeWatchRenewal s leaseToken historyId expiresAt).1 := by
  rw [completeWatchRenewal]
  split
  · exact .refl s
  · split
    · exact .of_jobs_eq rfl rfl le_rfl
    · exact .refl s

theorem jobsMove_failWatchRenewal (leaseToken : LeaseToken) (errorCode : String) :
    JobsMove s (failWatchRenewal settings s now leaseToken errorCode) := by
  rw [failWatchRenewal]
  split
  · exact .refl s
  · split
    · exact .of_jobs_eq rfl rfl le_rfl
    · exact .refl s

theorem jobsMove_recordWorkerHeartbeat : JobsMove s (recordWorkerHeartbeat s now) := by
  rw [recordWorkerHeartbeat]
  split
  · exact .refl s
  · exact .of_jobs_eq rfl rfl le_rfl

end

/-- The calls that present a job claim change nothing. -/
structure ChangesNothing (settings : Settings) (s : JobStore) (claim : ClaimedNotificationJob) :
    Prop where
  complete : ∀ clock historyCursor,
    completeJobAndAdvanceCursor settings s clock claim historyCursor = (s, false)
  fail : ∀ clock args, failJob settings s clock claim args = s
  requeue : ∀ clock errorCode nextAttemptAt,
    requeueJob settings s clock claim errorCode nextAttemptAt = s
  deadLetter : ∀ clock errorCode, deadLetterJob s clock claim errorCode = s

theorem changesNothing_of_heldJob {settings : Settings} {s : JobStore}
    {claim : ClaimedNotificationJob} (h : s.heldJob claim = none) :
    ChangesNothing settings s claim where
  complete clock historyCursor := by rw [completeJobAndAdvanceCursor, h]
  fail clock args := by
    rw [failJob]
    dsimp only
    rw [h]
  requeue clock errorCode nextAttemptAt := by rw [requeueJob, h]
  deadLetter clock errorCode := by rw [deadLetterJob, h]

/-! ## The invariant of the table -/

/-- The calls that end a job for reasons that only their caller knows. -/
def TableCall.settlesJob : TableCall → Bool
  | completeJob _ _ _ | deadLetterJob _ _ _ => true
  | _ => false

namespace MailTables

/-- The rows agree with their states and with the unique index, and the claims with the rows. -/
structure JobsInvariant (t : MailTables) : Prop where
  rows : ∀ id job, t.store.jobs id = some job → job.WellFormed ∧
    t.store.pubsubIndex job.pubsubMessageId = some id
  claims : ∀ claim ∈ t.jobClaims, claim.leaseToken < t.store.nextToken ∧
    ∃ job, t.store.jobs claim.id = some job ∧ job.historyId = claim.historyId

section

variable {settings : Settings} {t u : MailTables} {call : TableCall} {o : TableReply}
  {tr : List (TableCall × TableReply)} {claim : ClaimedNotificationJob}

/-- **Every other call moves the rows**, whoever makes it. -/
theorem jobsMove_of_unsettling (hcall : call.isInsert = false) (hsettles : call.settlesJob = false)
    (hs : t.step settings call = some (u, o)) : JobsMove t.store u.store := by
  cases call with
  | insertJob => cases hcall
  | completeJob => cases hsettles
  | deadLetterJob => cases hsettles
  | claimJob id clock =>
    simp only [step] at hs
    split at hs
    · cases hs
    · rename_i store claim hclaim
      obtain ⟨rfl, -⟩ := Prod.mk.inj (Option.some.inj hs)
      exact jobsMove_claimNotificationJob hclaim
  | readMailbox claim =>
    obtain ⟨-, rfl, -⟩ := eq_of_guarded hs
    exact .refl _
  | failJob claim clock args =>
    obtain ⟨-, rfl, -⟩ := eq_of_guarded hs
    exact jobsMove_failJob args
  | requeueJob claim clock errorCode nextAttemptAt =>
    obtain ⟨-, rfl, -⟩ := eq_of_guarded hs
    exact jobsMove_requeueJob _ _
  | claimResync clock =>
    obtain ⟨rfl, -⟩ := Prod.mk.inj (Option.some.inj hs)
    exact jobsMove_claimMailboxResync
  | persistPage resync clock nextPageToken processedCount =>
    obtain ⟨-, rfl, -⟩ := eq_of_guarded hs
    exact jobsMove_persistPage _ _ _
  | completeResync resync historyCursor =>
    obtain ⟨-, rfl, -⟩ := eq_of_guarded hs
    exact jobsMove_completeBoundedResync _ _
  | releaseResync resync clock errorCode =>
    obtain ⟨-, rfl, -⟩ := eq_of_guarded hs
    exact jobsMove_releaseMailboxResync _ _
  | requireManual resync errorCode =>
    obtain ⟨-, rfl, -⟩ := eq_of_guarded hs
    exact jobsMove_requireManualResync _ _
  | claimWatch now =>
    obtain ⟨rfl, -⟩ := Prod.mk.inj (Option.some.inj hs)
    exact jobsMove_claimWatchRenewal
  | completeWatch leaseToken historyId expiresAt =>
    obtain ⟨rfl, -⟩ := Prod.mk.inj (Option.some.inj hs)
    exact jobsMove_completeWatchRenewal _ _ _
  | failWatch now leaseToken errorCode =>
    obtain ⟨rfl, -⟩ := Prod.mk.inj (Option.some.inj hs)
    exact jobsMove_failWatchRenewal _ _
  | heartbeat now =>
    obtain ⟨rfl, -⟩ := Prod.mk.inj (Option.some.inj hs)
    exact jobsMove_recordWorkerHeartbeat

/-- **Every call but an insert moves the rows.** -/
theorem jobsMove_of_step (hI : t.JobsInvariant) (hD : Disciplined t call)
    (hcall : call.isInsert = false) (hs : t.step settings call = some (u, o)) :
    JobsMove t.store u.store := by
  cases hsettles : call.settlesJob with
  | false => exact jobsMove_of_unsettling hcall hsettles hs
  | true =>
    cases call with
    | completeJob claim clock historyCursor =>
      obtain ⟨hgranted, rfl, -⟩ := eq_of_guarded hs
      refine jobsMove_completeJobAndAdvanceCursor fun job hjob ↦ ?_
      obtain ⟨-, job', hjob', hhistory⟩ := hI.claims claim hgranted
      obtain rfl := Option.some.inj (hjob.symm.trans hjob')
      rw [hhistory]
      exact hD
    | deadLetterJob claim clock errorCode =>
      obtain ⟨-, rfl, -⟩ := eq_of_guarded hs
      exact jobsMove_deadLetterJob _ hD
    | _ => cases hsettles

/-- A granted claim carries a token drawn for it and the history id of its row. -/
theorem claimNotificationJob_claim {s s' : JobStore} {id : JobId} {clock : ℕ → Time}
    (h : claimNotificationJob settings s id clock = some (s', some claim)) :
    claim.leaseToken < s'.nextToken ∧
      ∃ job, s'.jobs claim.id = some job ∧ job.historyId = claim.historyId := by
  obtain ⟨job, state, hjob, hmailbox, -, houtcome⟩ := claimOutcome_of_claim h
  cases houtcome with
  | granted => exact ⟨Nat.lt_succ_self _, _, Function.update_self _ _ _, rfl⟩

/-- An insert keeps the invariant: no row has the Pub/Sub id. -/
theorem JobsInvariant.insert (hI : t.JobsInvariant) {id : JobId} {pubsubMessageId : String}
    {historyId : ℕ} {receivedAt : Time} (hfree : t.store.jobs id = none)
    (hnew : t.store.pubsubIndex pubsubMessageId = none) :
    (t.setStore (insertNotificationJob t.store id pubsubMessageId historyId
      receivedAt)).JobsInvariant := by
  have hne : ∀ other job, t.store.jobs other = some job → other ≠ id := by
    rintro other job hjob rfl
    rw [hfree] at hjob
    cases hjob
  refine ⟨fun other job hother ↦ ?_, fun claim hmem ↦ ?_⟩
  · by_cases hsame : other = id
    · subst hsame
      obtain ⟨job', hjob', hpubsub, -, -, hrow⟩ :=
        insertNotificationJob_self t.store other pubsubMessageId historyId receivedAt
      obtain rfl := Option.some.inj (hjob'.symm.trans hother)
      refine ⟨hrow, ?_⟩
      rw [hpubsub]
      exact insertNotificationJob_index_self _ _ _ _ _
    · rw [setStore, insertNotificationJob_of_ne hsame] at hother
      obtain ⟨hrow, hindex⟩ := hI.rows other job hother
      refine ⟨hrow, ?_⟩
      have hpubsub : job.pubsubMessageId ≠ pubsubMessageId := by
        rintro rfl
        rw [hnew] at hindex
        cases hindex
      exact (insertNotificationJob_index_of_ne hpubsub).trans hindex
  · obtain ⟨hdrawn, job, hjob, hhistory⟩ := hI.claims claim hmem
    exact ⟨hdrawn, job, (insertNotificationJob_of_ne (hne _ _ hjob)).trans hjob, hhistory⟩

theorem JobsInvariant.move (hI : t.JobsInvariant) (hmove : JobsMove t.store u.store)
    (hclaims : ∀ claim ∈ u.jobClaims, claim ∈ t.jobClaims ∨
      claim.leaseToken < u.store.nextToken ∧
        ∃ job, u.store.jobs claim.id = some job ∧ job.historyId = claim.historyId) :
    u.JobsInvariant := by
  refine ⟨fun id job' hjob' ↦ ?_, fun claim hmem ↦ ?_⟩
  · cases hjob : t.store.jobs id with
    | none =>
      rw [hmove.absent id hjob] at hjob'
      cases hjob'
    | some job =>
      obtain ⟨hrow, hindex⟩ := hI.rows id job hjob
      obtain ⟨job₁, hjob₁, hjobMove⟩ := hmove.row id job hjob
      obtain rfl := Option.some.inj (hjob₁.symm.trans hjob')
      refine ⟨hrow.move hjobMove, ?_⟩
      rw [hjobMove.immutable.1, hmove.index]
      exact hindex
  · rcases hclaims claim hmem with hold | hnew
    · obtain ⟨hdrawn, job, hjob, hhistory⟩ := hI.claims claim hold
      obtain ⟨job', hjob', hjobMove⟩ := hmove.row _ _ hjob
      exact ⟨lt_of_lt_of_le hdrawn hmove.tokens, job', hjob',
        hjobMove.immutable.2.trans hhistory⟩
    · exact hnew

/-- The step lemma. -/
theorem JobsInvariant.step (hI : t.JobsInvariant) (hD : Disciplined t call)
    (hs : t.step settings call = some (u, o)) : u.JobsInvariant := by
  cases hcall : call.isInsert with
  | true =>
    cases call with
    | insertJob id pubsubMessageId historyId receivedAt =>
      obtain ⟨⟨hfree, hnew⟩, rfl, -⟩ := eq_of_guarded hs
      exact hI.insert hfree hnew
    | _ => cases hcall
  | false =>
    refine hI.move (jobsMove_of_step hI hD hcall hs) fun claim hmem ↦ ?_
    rcases jobClaims_of_step hs with hsame | ⟨id, clock, granted, -, hclaim, hnew⟩
    · rw [hsame] at hmem
      exact Or.inl hmem
    · rw [hnew] at hmem
      rcases List.mem_cons.mp hmem with rfl | hold
      · exact Or.inr (claimNotificationJob_claim hclaim)
      · exact Or.inl hold

/-- A row after a call. -/
theorem JobsInvariant.row_of_step (hI : t.JobsInvariant) (hD : Disciplined t call)
    (hs : t.step settings call = some (u, o)) {id : JobId} {job : GmailNotificationJob}
    (hjob : t.store.jobs id = some job) :
    ∃ job', u.store.jobs id = some job' ∧ JobMove t.store u.store job job' := by
  cases hcall : call.isInsert with
  | true =>
    cases call with
    | insertJob other pubsubMessageId historyId receivedAt =>
      obtain ⟨⟨hfree, -⟩, rfl, -⟩ := eq_of_guarded hs
      have hne : id ≠ other := by
        rintro rfl
        rw [hfree] at hjob
        cases hjob
      exact ⟨job, (insertNotificationJob_of_ne hne).trans hjob, .stay⟩
    | _ => cases hcall
  | false => exact (jobsMove_of_step hI hD hcall hs).row id job hjob

theorem jobsInvariant_of_init (hinit : (mailTables settings).init t) : t.JobsInvariant := by
  refine ⟨fun id job hjob ↦ ?_, fun claim hmem ↦ ?_⟩
  · rw [hinit.2.1 id] at hjob
    cases hjob
  · rw [hinit.2.2.1] at hmem
    cases hmem

end

end MailTables

end Onebox.Notifications
