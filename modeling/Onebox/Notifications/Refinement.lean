import Onebox.Notifications.Steps
import Onebox.Notifications.Tables
import Onebox.Transition.Simulation

/-!
# The workers refine the tables

Every step of the workers is one call on the tables, or leaves them alone. What holds of the tables
under any calls therefore holds under the workers. The relation between the two also says what a
worker knows about the call that it makes next: whose claim it presents, that a checkpoint stays
below the limit, that the cursor it completes its job with has reached the notification, and that
it gives a job up only when the mailbox needs an operator.
-/

namespace Onebox.Notifications

open Python Transition

/-- The call that the next transaction of a worker makes. -/
def WorkerPhase.call (claim : ClaimedNotificationJob) (clock : ℕ → Time) :
    WorkerPhase → Option TableCall
  | claimingResync _ => some (.claimResync clock)
  | completingResync resync historyCursor => some (.completeResync resync historyCursor)
  | checkpointing resync token processedCount =>
    some (.persistPage resync clock token processedCount)
  | requiringManual resync => some (.requireManual resync "resync_total_limit_reached")
  | releasing resync errorCode => some (.releaseResync resync clock errorCode)
  | advancing _ final => some (.completeJob claim clock (max final claim.historyId))
  | completing historyCursor => some (.completeJob claim clock historyCursor)
  | failing args => some (.failJob claim clock args)
  | requeueing errorCode immediately =>
    some (.requeueJob claim clock errorCode (if immediately then some (clock 1) else none))
  | deadLettering errorCode => some (.deadLetterJob claim clock errorCode)
  | claimed | listingInbox _ _ | triagingInbox _ _ _ _ _ | readingProfile _ _ | listingHistory _
  | triagingHistory _ _ _ _ => none

/-- A push delivery, as opposed to a step of the workers or of the watch renewals. -/
def MailLabel.isEnqueue : MailLabel → Bool
  | enqueue _ _ _ _ => true
  | _ => false

/-- What a worker in this phase can rely on. -/
def PhaseTracked (settings : Settings) (claim : ClaimedNotificationJob) (t : MailTables) :
    WorkerPhase → Prop
  | .listingInbox resync _ | .triagingInbox resync _ _ _ _ | .readingProfile resync _
  | .completingResync resync _ | .requiringManual resync | .releasing resync _ =>
    resync ∈ t.resyncClaims
  | .checkpointing resync _ processedCount =>
    resync ∈ t.resyncClaims ∧ resync.messageCount + processedCount < settings.resyncMaxMessages
  | .completing historyCursor => claim.historyId ≤ historyCursor
  | .deadLettering _ => t.store.recovery.state = .manualRequired
  | .claimed | .claimingResync _ | .listingHistory _ | .triagingHistory _ _ _ _ | .advancing _ _
  | .failing _ | .requeueing _ _ => True

/-- What the workers add to the calls: they complete a job with a cursor that has reached its
notification, and give one up only when the mailbox needs an operator. -/
def Disciplined (t : MailTables) : TableCall → Prop
  | .completeJob claim _ historyCursor => claim.historyId ≤ historyCursor
  | .deadLetterJob _ _ _ => t.store.recovery.state = .manualRequired
  | _ => True

/-- The tables of a world, with the claims that its workers have been granted. -/
structure Tracks (env : MailEnv) (w : MailWorld) (t : MailTables) : Prop where
  store : t.store = w.jobs
  claims : ∀ n worker, w.workers n = some worker → worker.claim ∈ t.jobClaims
  phases : ∀ n worker, w.workers n = some worker →
    PhaseTracked env.settings worker.claim t worker.phase

/-! ## What a call leaves in place -/

/-- Claims stay granted, and an operator stays required. -/
structure MailTables.Keeps (t u : MailTables) : Prop where
  jobClaims : t.jobClaims ⊆ u.jobClaims
  resyncClaims : t.resyncClaims ⊆ u.resyncClaims
  manual : t.store.recovery.state = .manualRequired → u.store.recovery.state = .manualRequired

section

variable {settings : Settings} {token : LeaseToken} {r r' : RecoveryColumns} {t u : MailTables}
  {claims claims' : List ClaimedMailboxResync} {call : TableCall} {o : TableReply}
  {claim : ClaimedNotificationJob} {phase : WorkerPhase}

theorem MailTables.Keeps.refl (t : MailTables) : t.Keeps t :=
  ⟨List.Subset.refl _, List.Subset.refl _, id⟩

/-- No transaction moves a recovery that needs an operator. -/
theorem RecoveryMove.eq_of_manual (h : RecoveryMove settings token r claims r' claims')
    (hmanual : r.state = .manualRequired) : r' = r := by
  cases h with
  | stay => rfl
  | start idle => rw [hmanual] at idle; cases idle
  | grant required => rw [hmanual] at required; cases required
  | checkpoint granted held =>
    have hprocessing := held.1
    rw [hmanual] at hprocessing
    cases hprocessing
  | retry processing | complete processing | manual processing =>
    rw [hmanual] at processing
    cases processing

/-- A mailbox that is handed to an operator stays with it. -/
theorem manual_of_requireManualResync {s : JobStore} {resync : ClaimedMailboxResync}
    {errorCode : String} (h : (requireManualResync s resync errorCode).2 = true) :
    (requireManualResync s resync errorCode).1.recovery.state = .manualRequired := by
  rw [requireManualResync] at h ⊢
  split at h
  · cases h
  · rfl

theorem MailTables.keeps_of_step (hs : t.step settings call = some (u, o)) : t.Keeps u := by
  have hmove := (storeMove_of_step hs).move
  refine ⟨?_, hmove.claims_subset, fun hmanual ↦ ?_⟩
  · rcases jobClaims_of_step hs with hsame | ⟨id, clock, granted, -, -, hnew⟩
    · rw [hsame]
      exact List.Subset.refl _
    · rw [hnew]
      exact List.subset_cons_self _ _
  · rw [hmove.eq_of_manual hmanual]
    exact hmanual

/-- What a worker relies on stays true under the steps of the others. -/
theorem PhaseTracked.mono (h : PhaseTracked settings claim t phase) (hkeeps : t.Keeps u) :
    PhaseTracked settings claim u phase := by
  cases phase with
  | listingInbox | triagingInbox | readingProfile | completingResync | requiringManual
  | releasing => exact hkeeps.resyncClaims h
  | checkpointing => exact ⟨hkeeps.resyncClaims h.1, h.2⟩
  | completing => exact h
  | deadLettering => exact hkeeps.manual h
  | _ => trivial

end

/-! ## A worker's step -/

section

variable {env : MailEnv} {w w' : MailWorld} {worker : Worker} {result : StepResult}
  {label : WorkerEvent} {t u : MailTables} {clock : ℕ → Time}

/-- The worker goes on to a phase that it can rely on. -/
def NextTracked (settings : Settings) (claim : ClaimedNotificationJob) (t : MailTables)
    (next : Option WorkerPhase) : Prop :=
  ∀ phase, next = some phase → PhaseTracked settings claim t phase

theorem nextTracked_none {settings : Settings} {claim : ClaimedNotificationJob} :
    NextTracked settings claim t none := nofun

theorem nextTracked_some {settings : Settings} {claim : ClaimedNotificationJob}
    {phase : WorkerPhase} (h : PhaseTracked settings claim t phase) :
    NextTracked settings claim t (some phase) := by
  rintro _ ⟨⟩
  exact h

/-- A transaction is the call of its phase. -/
theorem step_of_transact (hstore : t.store = w.jobs) (hclaim : worker.claim ∈ t.jobClaims)
    (hphase : PhaseTracked env.settings worker.claim t worker.phase)
    (h : w.transact env.settings worker.claim clock worker.phase = some result) :
    ∃ call u o, worker.phase.call worker.claim clock = some call ∧ Disciplined t call ∧
      t.step env.settings call = some (u, o) ∧ u.store = result.jobs ∧
      NextTracked env.settings worker.claim u result.phase := by
  cases hworker : worker.phase with
  | claimingResync sourceHistoryId =>
    rw [hworker] at h
    simp only [MailWorld.transact, ← hstore] at h
    refine ⟨_, _, _, rfl, trivial, rfl, ?_⟩
    split at h
    · obtain rfl := Option.some.inj h
      exact ⟨rfl, nextTracked_some trivial⟩
    · rename_i resync hresync
      obtain rfl := Option.some.inj h
      refine ⟨rfl, nextTracked_some ?_⟩
      change resync ∈ (claimMailboxResync env.settings t.store clock).2.toList ++ t.resyncClaims
      rw [hresync]
      exact List.mem_cons_self
  | completingResync resync historyCursor =>
    rw [hworker] at h hphase
    simp only [MailWorld.transact, ← hstore] at h
    refine ⟨_, _, _, rfl, trivial, if_pos hphase, ?_⟩
    split at h
    · obtain rfl := Option.some.inj h
      exact ⟨rfl, nextTracked_some le_rfl⟩
    · obtain rfl := Option.some.inj h
      exact ⟨rfl, nextTracked_some trivial⟩
  | checkpointing resync token processedCount =>
    rw [hworker] at h hphase
    obtain ⟨hgranted, hbelow⟩ := hphase
    have hpage : persistPage env.settings t.store clock resync token processedCount
        = checkpointBoundedResync t.store clock resync token processedCount :=
      if_neg (not_le.mpr hbelow)
    obtain rfl := Option.some.inj h
    refine ⟨_, _, _, rfl, trivial, if_pos hgranted, ?_, ?_⟩
    · rw [hpage, hstore]
      rfl
    · refine nextTracked_some ?_
      split
      · trivial
      · trivial
  | requiringManual resync =>
    rw [hworker] at h hphase
    obtain rfl := Option.some.inj h
    refine ⟨_, _, _, rfl, trivial, if_pos hphase, by rw [hstore]; rfl, nextTracked_some ?_⟩
    split
    · rename_i hpersisted
      rw [← hstore] at hpersisted
      exact manual_of_requireManualResync hpersisted
    · trivial
  | releasing resync errorCode =>
    rw [hworker] at h hphase
    obtain rfl := Option.some.inj h
    exact ⟨_, _, _, rfl, trivial, if_pos hphase, by rw [hstore]; rfl, nextTracked_some trivial⟩
  | advancing start final =>
    rw [hworker] at h
    obtain rfl := Option.some.inj h
    exact ⟨_, _, _, rfl, le_max_right _ _, if_pos hclaim, by rw [hstore]; rfl, nextTracked_none⟩
  | completing | deadLettering =>
    rw [hworker] at h hphase
    obtain rfl := Option.some.inj h
    exact ⟨_, _, _, rfl, hphase, if_pos hclaim, by rw [hstore]; rfl, nextTracked_none⟩
  | failing | requeueing =>
    rw [hworker] at h
    obtain rfl := Option.some.inj h
    exact ⟨_, _, _, rfl, trivial, if_pos hclaim, by rw [hstore]; rfl, nextTracked_none⟩
  | claimed | listingInbox | triagingInbox | readingProfile | listingHistory
  | triagingHistory =>
    rw [hworker] at h
    cases h

theorem isInsert_of_call {claim : ClaimedNotificationJob} {phase : WorkerPhase} {call : TableCall}
    (h : phase.call claim clock = some call) : call.isInsert = false := by
  cases phase with
  | claimed | listingInbox | triagingInbox | readingProfile | listingHistory | triagingHistory =>
    cases h
  | _ =>
    obtain rfl := Option.some.inj h
    rfl

/-- After an error the worker releases the recovery it has, or stops. -/
theorem nextTracked_afterDatabaseError
    (hphase : PhaseTracked env.settings worker.claim t worker.phase) :
    NextTracked env.settings worker.claim t (MailWorld.afterDatabaseError worker.phase) := by
  cases hworker : worker.phase with
  | completingResync | requiringManual =>
    rw [hworker] at hphase
    exact nextTracked_some hphase
  | checkpointing =>
    rw [hworker] at hphase
    exact nextTracked_some hphase.1
  | _ => exact nextTracked_none

theorem nextTracked_afterMailboxRead {settings : Settings} {claim : ClaimedNotificationJob}
    (hstore : t.store = w.jobs) :
    NextTracked settings claim t (some (MailWorld.afterMailboxRead claim w.jobs.mailbox)) := by
  refine nextTracked_some ?_
  cases hmailbox : w.jobs.mailbox with
  | none => trivial
  | some state =>
    rw [← hstore] at hmailbox
    rw [MailWorld.afterMailboxRead]
    split
    · split
      · rename_i hmanual
        change t.store.recovery.state = .manualRequired
        rw [JobStore.recovery_of_mailbox hmailbox]
        exact hmanual
      · trivial
    · split
      · trivial
      · split
        · rename_i hcovered
          exact hcovered
        · trivial

/-- What follows a page of the inbox presents the claim of the page. -/
theorem phaseTracked_afterInboxPage {settings : Settings} {claim : ClaimedNotificationJob}
    {resync : ClaimedMailboxResync} (page : ListedPage) (hgranted : resync ∈ t.resyncClaims) :
    PhaseTracked settings claim t (MailWorld.afterInboxPage settings resync page) := by
  rw [MailWorld.afterInboxPage]
  split
  · split
    · exact hgranted
    · rename_i hbelow
      exact ⟨hgranted, not_le.mp hbelow⟩
  · exact hgranted

/-- The steps between the transactions of a worker leave the tables alone. -/
theorem workerStep_of_not_transact
    (hphase : PhaseTracked env.settings worker.claim t worker.phase)
    (hstore : t.store = w.jobs) (h : w.workerStep env worker label = some result)
    (hlabel : ∀ clock, label ≠ .transact clock)
    (hlabel' : ∀ committed clock, label ≠ .databaseFails committed clock) :
    result.jobs = w.jobs ∧ NextTracked env.settings worker.claim t result.phase := by
  cases label with
  | transact clock => exact absurd rfl (hlabel clock)
  | databaseFails committed clock => exact absurd rfl (hlabel' committed clock)
  | readMailbox =>
    simp only [MailWorld.workerStep] at h
    split at h
    · obtain rfl := Option.some.inj h
      exact ⟨rfl, nextTracked_afterMailboxRead hstore⟩
    · cases h
  | listInbox size =>
    simp only [MailWorld.workerStep] at h
    split at h
    · rename_i resync sourceHistoryId hworker
      rw [hworker] at hphase
      split at h
      · obtain rfl := Option.some.inj h
        exact ⟨rfl, nextTracked_some hphase⟩
      · split at h
        · obtain rfl := Option.some.inj h
          exact ⟨rfl, nextTracked_some hphase⟩
        · cases h
    · cases h
  | resyncFails failure =>
    simp only [MailWorld.workerStep] at h
    split at h
    · rename_i resync sourceHistoryId hworker
      rw [hworker] at hphase
      obtain rfl := Option.some.inj h
      exact ⟨rfl, nextTracked_some hphase⟩
    · rename_i resync newest hworker
      rw [hworker] at hphase
      obtain rfl := Option.some.inj h
      exact ⟨rfl, nextTracked_some hphase⟩
    · cases h
  | takeMessage =>
    simp only [MailWorld.workerStep] at h
    split at h
    · rename_i hworker
      rw [hworker] at hphase
      obtain rfl := Option.some.inj h
      exact ⟨rfl, nextTracked_some hphase⟩
    · rename_i page hworker
      rw [hworker] at hphase
      obtain rfl := Option.some.inj h
      exact ⟨rfl, nextTracked_some (phaseTracked_afterInboxPage page hphase)⟩
    · obtain rfl := Option.some.inj h
      exact ⟨rfl, nextTracked_some trivial⟩
    · obtain rfl := Option.some.inj h
      exact ⟨rfl, nextTracked_some trivial⟩
    · cases h
  | triage event =>
    simp only [MailWorld.workerStep] at h
    split at h
    · rename_i hworker
      rw [hworker] at hphase
      split at h
      · cases h
      · obtain rfl := Option.some.inj h
        exact ⟨rfl, nextTracked_some hphase⟩
    · split at h
      · cases h
      · obtain rfl := Option.some.inj h
        exact ⟨rfl, nextTracked_some trivial⟩
    · cases h
  | triaged =>
    simp only [MailWorld.workerStep] at h
    split at h
    · rename_i hworker
      rw [hworker] at hphase
      obtain rfl := Option.some.inj h
      exact ⟨rfl, nextTracked_some hphase⟩
    · rename_i hworker
      rw [hworker] at hphase
      obtain rfl := Option.some.inj h
      exact ⟨rfl, nextTracked_some hphase⟩
    · rename_i hworker
      rw [hworker] at hphase
      obtain rfl := Option.some.inj h
      exact ⟨rfl, nextTracked_some hphase⟩
    · obtain rfl := Option.some.inj h
      exact ⟨rfl, nextTracked_some trivial⟩
    · obtain rfl := Option.some.inj h
      exact ⟨rfl, nextTracked_some trivial⟩
    · obtain rfl := Option.some.inj h
      exact ⟨rfl, nextTracked_none⟩
    · cases h
  | readProfile =>
    simp only [MailWorld.workerStep] at h
    split at h
    · rename_i hworker
      rw [hworker] at hphase
      split at h
      · obtain rfl := Option.some.inj h
        exact ⟨rfl, nextTracked_some hphase⟩
      · cases h
    · cases h
  | profileInvalid =>
    simp only [MailWorld.workerStep] at h
    split at h
    · rename_i hworker
      rw [hworker] at hphase
      obtain rfl := Option.some.inj h
      exact ⟨rfl, nextTracked_some hphase⟩
    · cases h
  | listHistory responses =>
    simp only [MailWorld.workerStep] at h
    split at h
    · split at h
      · cases h
      · obtain rfl := Option.some.inj h
        exact ⟨rfl, nextTracked_some trivial⟩
      · split at h
        · cases h
        · split at h
          · obtain rfl := Option.some.inj h
            exact ⟨rfl, nextTracked_some trivial⟩
          · cases h
    · cases h
  | abandon =>
    obtain rfl := Option.some.inj h
    exact ⟨rfl, nextTracked_none⟩

/-- **A worker's step is one call, or none.** -/
theorem tracked_of_workerStep (hstore : t.store = w.jobs) (hclaim : worker.claim ∈ t.jobClaims)
    (hphase : PhaseTracked env.settings worker.claim t worker.phase)
    (h : w.workerStep env worker label = some result) :
    (result.jobs = w.jobs ∧ NextTracked env.settings worker.claim t result.phase) ∨
      ∃ clock call u o, worker.phase.call worker.claim clock = some call ∧ Disciplined t call ∧
        t.step env.settings call = some (u, o) ∧ u.store = result.jobs ∧
        NextTracked env.settings worker.claim u result.phase := by
  cases label with
  | transact clock => exact Or.inr ⟨clock, step_of_transact hstore hclaim hphase h⟩
  | databaseFails committed clock =>
    simp only [MailWorld.workerStep] at h
    split at h
    · cases h
    · rename_i transacted htransact
      obtain rfl := Option.some.inj h
      have hnext := nextTracked_afterDatabaseError hphase
      cases committed with
      | true =>
        obtain ⟨call, u, o, hcall, hdisciplined, hs, hu, -⟩ :=
          step_of_transact hstore hclaim hphase htransact
        have hkeeps := MailTables.keeps_of_step hs
        exact Or.inr ⟨clock, call, u, o, hcall, hdisciplined, hs, hu, fun phase hp ↦
          (hnext phase hp).mono hkeeps⟩
      | false => exact Or.inl ⟨rfl, hnext⟩
  | _ => exact Or.inl (workerStep_of_not_transact hphase hstore h (by rintro _ ⟨⟩)
      (by rintro _ _ ⟨⟩))

end

/-! ## The refinement -/

section

variable {env : MailEnv} {w w' : MailWorld} {t u : MailTables} {e : MailLabel} {o : Reply}

/-- A step that changes no worker and makes one call. -/
theorem Tracks.call {call : TableCall} {reply : TableReply} (h : Tracks env w t)
    (hs : t.step env.settings call = some (u, reply)) {jobs : JobStore} (hu : u.store = jobs) :
    Tracks env (w.setJobs jobs) u :=
  have hkeeps := MailTables.keeps_of_step hs
  ⟨hu, fun n worker hn ↦ hkeeps.jobClaims (h.claims n worker hn),
    fun n worker hn ↦ (h.phases n worker hn).mono hkeeps⟩

/-- A step that changes one worker. -/
theorem Tracks.worker {n : ℕ} (h : Tracks env w t) (hkeeps : t.Keeps u)
    (hstore : u.store = w'.jobs) (hothers : ∀ m, m ≠ n → w'.workers m = w.workers m)
    (hself : ∀ worker, w'.workers n = some worker → worker.claim ∈ u.jobClaims ∧
      PhaseTracked env.settings worker.claim u worker.phase) : Tracks env w' u := by
  refine ⟨hstore, fun m worker hm ↦ ?_, fun m worker hm ↦ ?_⟩
  · by_cases hmn : m = n
    · subst hmn
      exact (hself worker hm).1
    · rw [hothers m hmn] at hm
      exact hkeeps.jobClaims (h.claims m worker hm)
  · by_cases hmn : m = n
    · subst hmn
      exact (hself worker hm).2
    · rw [hothers m hmn] at hm
      exact (h.phases m worker hm).mono hkeeps

theorem Tracks.apply {n : ℕ} {worker : Worker} {result : StepResult} (h : Tracks env w t)
    (hkeeps : t.Keeps u) (hstore : u.store = result.jobs) (hn : w.workers n = some worker)
    (hnext : NextTracked env.settings worker.claim u result.phase) :
    Tracks env (w.apply n worker result) u := by
  refine h.worker hkeeps hstore (fun m hmn ↦ MailWorld.apply_of_ne w hmn worker result)
    fun next hself ↦ ?_
  rw [MailWorld.apply_self] at hself
  obtain ⟨phase, hphase, rfl⟩ := Option.map_eq_some_iff.mp hself
  exact ⟨hkeeps.jobClaims (h.claims n worker hn), hnext phase hphase⟩

/-- **Every step of the workers is one call on the tables, or none.** -/
theorem Tracks.step (h : Tracks env w t) (hs : w.step env e = some (w', o)) :
    Tracks env w' t ∨
      ∃ call u reply, (call.isInsert = true → e.isEnqueue = true) ∧ Disciplined t call ∧
        t.step env.settings call = some (u, reply) ∧ Tracks env w' u := by
  have hstore := h.store
  cases e with
  | arrive | touch =>
    obtain ⟨g, -, hpair⟩ := Option.map_eq_some_iff.mp hs
    obtain ⟨rfl, -⟩ := Prod.mk.inj hpair
    -- Only the mailbox at the provider changes.
    exact Or.inl ⟨h.store, h.claims, h.phases⟩
  | remove messageId =>
    obtain ⟨rfl, -⟩ := Prod.mk.inj (Option.some.inj hs)
    exact Or.inl ⟨h.store, h.claims, h.phases⟩
  | claimWatch now =>
    obtain ⟨rfl, -⟩ := Prod.mk.inj (Option.some.inj hs)
    have hcall : t.step env.settings (.claimWatch now) = some (_, _) := rfl
    exact Or.inr ⟨.claimWatch now, _, _, (by rintro ⟨⟩), trivial, hcall,
      h.call hcall (by rw [← hstore]; rfl)⟩
  | completeWatch leaseToken historyId expiresAt =>
    obtain ⟨rfl, -⟩ := Prod.mk.inj (Option.some.inj hs)
    have hcall : t.step env.settings (.completeWatch leaseToken historyId expiresAt)
      = some (_, _) := rfl
    exact Or.inr ⟨.completeWatch leaseToken historyId expiresAt, _, _, (by rintro ⟨⟩), trivial,
      hcall,
      h.call hcall (by rw [← hstore]; rfl)⟩
  | failWatch now leaseToken errorCode =>
    obtain ⟨rfl, -⟩ := Prod.mk.inj (Option.some.inj hs)
    have hcall : t.step env.settings (.failWatch now leaseToken errorCode) = some (_, _) := rfl
    exact Or.inr ⟨.failWatch now leaseToken errorCode, _, _, (by rintro ⟨⟩), trivial, hcall,
      h.call hcall (by rw [← hstore]; rfl)⟩
  | heartbeat now =>
    obtain ⟨rfl, -⟩ := Prod.mk.inj (Option.some.inj hs)
    have hcall : t.step env.settings (.heartbeat now) = some (_, _) := rfl
    exact Or.inr ⟨.heartbeat now, _, _, (by rintro ⟨⟩), trivial, hcall,
      h.call hcall (by rw [← hstore]; rfl)⟩
  | enqueue id pubsubMessageId historyId receivedAt =>
    simp only [MailWorld.step] at hs
    split at hs
    · cases hs
    · rename_i hfree
      obtain ⟨rfl, -⟩ := Prod.mk.inj (Option.some.inj hs)
      -- A notification that is known already inserts nothing.
      rcases enqueueNotification_cases id pubsubMessageId historyId receivedAt
        with hsame | ⟨hnew, hinsert⟩
      · rw [hsame]
        exact Or.inl ⟨h.store, h.claims, h.phases⟩
      · rw [← hstore] at hfree hnew
        have hcall : t.step env.settings (.insertJob id pubsubMessageId historyId receivedAt)
            = some (_, _) := if_pos ⟨hfree, hnew⟩
        exact Or.inr ⟨.insertJob id pubsubMessageId historyId receivedAt, _, _, fun _ ↦ rfl,
          trivial,
          hcall,
          h.call hcall (by rw [hinsert, ← hstore]; rfl)⟩
  | claimJob n id clock =>
    simp only [MailWorld.step] at hs
    split at hs
    · rename_i jobs claim hfree hclaim
      obtain ⟨rfl, -⟩ := Prod.mk.inj (Option.some.inj hs)
      have hcall : t.step env.settings (.claimJob id clock)
          = some ({ t.setStore jobs with jobClaims := claim.toList ++ t.jobClaims },
            .job claim) := by
        rw [MailTables.step, hstore, hclaim]
      refine Or.inr ⟨.claimJob id clock, _, _, (by rintro ⟨⟩), trivial, hcall,
        h.worker (MailTables.keeps_of_step hcall) rfl
          (fun m hmn ↦ MailWorld.setWorker_of_ne _ hmn _) fun worker hself ↦ ?_⟩
      rw [MailWorld.setWorker_self] at hself
      obtain ⟨granted, rfl, rfl⟩ := Option.map_eq_some_iff.mp hself
      exact ⟨List.mem_cons_self, trivial⟩
    · cases hs
  | work n label =>
    simp only [MailWorld.step] at hs
    split at hs
    · cases hs
    · rename_i worker hn
      split at hs
      · cases hs
      · rename_i result hresult
        obtain ⟨rfl, -⟩ := Prod.mk.inj (Option.some.inj hs)
        -- A step of a worker is one transaction at most; no worker inserts a job.
        rcases tracked_of_workerStep hstore (h.claims n worker hn) (h.phases n worker hn) hresult
          with ⟨hjobs, hnext⟩ | ⟨clock, call, u, reply, hphase, hdisciplined, hcall, hu, hnext⟩
        · exact Or.inl (h.apply (.refl t) (by rw [hstore, hjobs]) hn hnext)
        · refine Or.inr ⟨call, u, reply, fun hinsert ↦ ?_, hdisciplined, hcall,
            h.apply (MailTables.keeps_of_step hcall) hu hn hnext⟩
          rw [isInsert_of_call hphase] at hinsert
          cases hinsert

/-- **The workers refine the tables.** -/
theorem simulation_mailTables (env : MailEnv) :
    System.Simulation (mailWorkers env) (mailTables env.settings) System.anyStep Disciplined
      (Tracks env) where
  init w hinit := by
    refine ⟨⟨w.jobs, [], []⟩, ⟨hinit.2.1, hinit.2.2.1, rfl, rfl⟩, rfl, fun n worker hn ↦ ?_,
      fun n worker hn ↦ ?_⟩
    all_goals
      rw [hinit.2.2.2.2.1 n] at hn
      cases hn
  step w t e w' o h _ hs := by
    rcases h.step hs with hstay | ⟨call, u, reply, -, hdisciplined, hcall, htracks⟩
    · exact Or.inl hstay
    · exact Or.inr ⟨call, u, reply, hdisciplined, hcall, htracks⟩

end

end Onebox.Notifications
