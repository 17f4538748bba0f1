import Onebox.Notifications.Generations
import Onebox.Notifications.JobRows
import Onebox.Notifications.MailboxRow

/-!
# Work that the cursor has covered

A pending job whose notification the cursor has reached needs no listing: a worker claims it, finds
the mailbox up to date, and completes it. The claim itself can get in the way. It counts attempts,
also those that only waited for the recovery of another job, and at the limit it starts a recovery
of the whole mailbox before anybody has looked at the cursor.
-/

namespace Onebox.Notifications

open Python Transition

/-- A pending job that the cursor of an idle mailbox has reached. -/
structure CoveredJob (s : JobStore) (id : JobId) (job : GmailNotificationJob) : Prop where
  row : s.jobs id = some job
  pending : job.state = .pending
  idle : s.recovery.state = .idle
  reached : ∃ cursor, s.historyCursor = some cursor ∧ job.historyId ≤ cursor

/-- No claim of covered work finds its attempts spent. -/
def AttemptsLeft (settings : Settings) (w : MailWorld) (e : MailLabel) : Prop :=
  ∀ n id clock job, e = .claimJob n id clock → CoveredJob w.jobs id job →
    job.attemptCount < settings.notificationMaxAttempts

/-- The steps that process a job: its claim, and those of the workers that have claimed it. -/
def Processes (w : MailWorld) (id : JobId) (e : MailLabel) : Prop :=
  (∃ n clock, e = .claimJob n id clock) ∨
    ∃ n label worker, e = .work n label ∧ w.workers n = some worker ∧ worker.claim.id = id

/-! ## The invariants at hand -/

/-- The tables under the workers, with what holds of them. -/
structure Grounded (env : MailEnv) (w : MailWorld) (t : MailTables) : Prop where
  tracks : Tracks env w t
  row : t.RowInvariant env.settings
  jobs : t.JobsInvariant
  behind : t.ClaimsBehind

section

variable {env : MailEnv} {w w' : MailWorld} {t u : MailTables} {e : MailLabel} {o : Reply}
  {tr : List (MailLabel × Reply)}

theorem grounded_of_init (hinit : (mailWorkers env).init w) : ∃ t, Grounded env w t := by
  obtain ⟨t, ht, htracks⟩ := (simulation_mailTables env).init w hinit
  refine ⟨t, htracks, MailTables.rowInvariant_of_init ht, MailTables.jobsInvariant_of_init ht,
    fun claim hmem ↦ ?_⟩
  rw [ht.2.2.1] at hmem
  cases hmem

theorem Grounded.step (h : Grounded env w t) (hs : w.step env e = some (w', o)) :
    ∃ u, Grounded env w' u := by
  rcases h.tracks.step hs with hstay | ⟨call, u, reply, -, hdisciplined, hcall, htracks⟩
  · exact ⟨t, hstay, h.row, h.jobs, h.behind⟩
  · exact ⟨u, htracks, h.row.step hcall, h.jobs.step hdisciplined hcall, h.behind.step hcall⟩

/-- The run lemma. -/
theorem grounded_of_run {C : MailWorld → MailLabel → Prop} (hinit : (mailWorkers env).init w)
    (hrun : System.Run (mailWorkers env) C w tr w') : ∃ t, Grounded env w' t := by
  refine hrun.invariant (I := fun w ↦ ∃ t, Grounded env w t) (grounded_of_init hinit) ?_
  rintro w e w' o ⟨t, ht⟩ - hs
  exact ht.step hs

/-- The stores around a step of the workers. -/
theorem Grounded.fences (h : Grounded env w t) (hs : w.step env e = some (w', o)) :
    w.jobs.Fences w'.jobs := by
  have hstore := h.tracks.store
  rcases h.tracks.step hs with hstay | ⟨call, u, reply, -, -, hcall, htracks⟩
  · rw [← hstore, hstay.store]
    exact .refl _
  · rw [← hstore, ← htracks.store]
    exact (MailTables.storeMove_of_step hcall).fences

/-- A row after a step of the workers. -/
theorem Grounded.jobRow (h : Grounded env w t) (hs : w.step env e = some (w', o)) {id : JobId}
    {job : GmailNotificationJob} (hjob : w.jobs.jobs id = some job) :
    ∃ job', w'.jobs.jobs id = some job' ∧ JobMove w.jobs w'.jobs job job' := by
  have hstore := h.tracks.store
  rcases h.tracks.step hs with hstay | ⟨call, u, reply, -, hdisciplined, hcall, htracks⟩
  · have hsame : w'.jobs = w.jobs := by rw [← hstay.store, hstore]
    rw [hsame]
    exact ⟨job, hjob, .stay⟩
  · rw [← hstore] at hjob ⊢
    rw [← htracks.store]
    exact h.jobs.row_of_step hdisciplined hcall hjob

/-- A claim that holds its job has held it before the step. -/
theorem Grounded.heldJob (h : Grounded env w t) (hs : w.step env e = some (w', o)) {n : ℕ}
    {worker : Worker} (hn : w.workers n = some worker) {job' : GmailNotificationJob}
    (hheld : w'.jobs.heldJob worker.claim = some job') :
    ∃ job, w.jobs.heldJob worker.claim = some job := by
  obtain ⟨hdrawn, job, hjob, -⟩ := h.jobs.claims _ (h.tracks.claims n worker hn)
  rw [h.tracks.store] at hdrawn hjob
  obtain ⟨job₁, hjob₁, hmove⟩ := h.jobRow hs hjob
  obtain ⟨hjob', hheld'⟩ := heldBy_of_heldJob hheld
  obtain rfl := Option.some.inj (hjob₁.symm.trans hjob')
  refine ⟨job, heldJob_eq_some hjob ?_⟩
  by_contra hlost
  exact hmove.not_heldBy hdrawn hlost hheld'

/-- The step of a worker, taken apart. -/
theorem step_work {n : ℕ} {label : WorkerEvent}
    (hs : w.step env (.work n label) = some (w', o)) :
    ∃ worker result, w.workers n = some worker ∧ w.workerStep env worker label = some result ∧
      w' = w.apply n worker result ∧ o = result.reply := by
  simp only [MailWorld.step] at hs
  split at hs
  · cases hs
  · rename_i worker hn
    split at hs
    · cases hs
    · rename_i result hresult
      obtain ⟨rfl, rfl⟩ := Prod.mk.inj (Option.some.inj hs)
      exact ⟨worker, result, hn, hresult, rfl, rfl⟩

end

/-! ## Covered work on its way -/

/-- From covered work on, while the generation stays: the mailbox is idle, the cursor has reached
the job, and the worker that holds it, by a claim of this generation, has not looked at the mailbox
yet or is about to complete the job. -/
structure Settling (w : MailWorld) (id : JobId) : Prop where
  idle : w.jobs.recovery.state = .idle
  reached : ∃ job cursor, w.jobs.jobs id = some job ∧ w.jobs.historyCursor = some cursor ∧
    job.historyId ≤ cursor
  workers : ∀ n worker job, w.workers n = some worker → worker.claim.id = id →
    w.jobs.heldJob worker.claim = some job →
    worker.claim.resyncGeneration = w.jobs.recovery.generation ∧
      (worker.phase = .claimed ∨ ∃ historyCursor, worker.phase = .completing historyCursor)

section

variable {env : MailEnv} {w w' : MailWorld} {t u : MailTables} {e : MailLabel} {o : Reply}
  {tr : List (MailLabel × Reply)} {id : JobId} {job : GmailNotificationJob}

theorem JobStore.cursor_of_historyCursor {s : JobStore} {cursor : ℕ}
    (h : s.historyCursor = some cursor) : s.cursor = cursor := by
  obtain ⟨state, hmailbox, hcursor⟩ := Option.bind_eq_some_iff.mp h
  rw [JobStore.cursor_of_mailbox hmailbox, hcursor, Option.getD_some]

/-- The cursor stays past the job. -/
theorem reached_of_fences {s s' : JobStore} {historyId cursor : ℕ} (hfences : s.Fences s')
    (hidle : s.recovery.state = .idle)
    (hsame : s'.recovery.generation = s.recovery.generation)
    (hcursor : s.historyCursor = some cursor) (hreached : historyId ≤ cursor) :
    ∃ cursor', s'.historyCursor = some cursor' ∧ historyId ≤ cursor' := by
  have hsome : s'.historyCursor.isSome = true := hfences.baseline (by rw [hcursor]; rfl)
  obtain ⟨cursor', hcursor'⟩ := Option.isSome_iff_exists.mp hsome
  refine ⟨cursor', hcursor', le_trans hreached ?_⟩
  rw [← JobStore.cursor_of_historyCursor hcursor, ← JobStore.cursor_of_historyCursor hcursor']
  exact (hfences.idle hidle hsame).2

theorem CoveredJob.settling (h : CoveredJob w.jobs id job) : Settling w id := by
  obtain ⟨cursor, hcursor, hreached⟩ := h.reached
  refine ⟨h.idle, ⟨job, cursor, h.row, hcursor, hreached⟩, ?_⟩
  rintro n worker job' - rfl hheld
  -- A pending row is held by nobody.
  obtain ⟨hjob', hstate, -⟩ := heldBy_of_heldJob hheld
  obtain rfl := Option.some.inj (h.row.symm.trans hjob')
  rw [h.pending] at hstate
  cases hstate

/-- A worker that holds the job finds the mailbox up to date. -/
theorem Settling.afterMailboxRead (h : Settling w id) (ht : Grounded env w t) {n : ℕ}
    {worker : Worker} (hn : w.workers n = some worker) (hid : worker.claim.id = id) :
    ∃ cursor, MailWorld.afterMailboxRead worker.claim w.jobs.mailbox = .completing cursor := by
  obtain ⟨job, cursor, hjob, hcursor, hreached⟩ := h.reached
  obtain ⟨state, hmailbox, hstate⟩ := Option.bind_eq_some_iff.mp hcursor
  have hrecovery := JobStore.recovery_of_mailbox hmailbox
  have hidle : state.resyncState = .idle := by
    have := h.idle
    rwa [hrecovery] at this
  have hrequired : state.resyncRequired = false := by
    have hrow := ht.row.row.required
    rw [ht.tracks.store, hrecovery] at hrow
    exact Bool.eq_false_iff.mpr fun hrequired ↦ hrow.mp hrequired hidle
  obtain ⟨-, row, hrow, hhistory⟩ := ht.jobs.claims _ (ht.tracks.claims n worker hn)
  rw [ht.tracks.store, hid] at hrow
  obtain rfl := Option.some.inj (hjob.symm.trans hrow)
  refine ⟨cursor, ?_⟩
  rw [hmailbox, MailWorld.afterMailboxRead, if_neg (by rw [hidle, hrequired]; simp), hstate]
  exact if_pos (by rw [← hhistory]; exact hreached)

/-- The worker that holds the job keeps to its way. -/
theorem Settling.workerStep (h : Settling w id) (ht : Grounded env w t) {n : ℕ} {worker : Worker}
    {label : WorkerEvent} {result : StepResult} {phase : WorkerPhase}
    (hn : w.workers n = some worker) (hid : worker.claim.id = id)
    (hphase : worker.phase = .claimed ∨
      ∃ historyCursor, worker.phase = .completing historyCursor)
    (hs : w.workerStep env worker label = some result) (hnext : result.phase = some phase) :
    ∃ historyCursor, phase = .completing historyCursor := by
  rcases hphase with hclaimed | ⟨historyCursor, hcompleting⟩
  · cases label with
    | readMailbox =>
      obtain ⟨cursor, hcursor⟩ := h.afterMailboxRead ht hn hid
      rw [MailWorld.workerStep, hclaimed] at hs
      obtain rfl := Option.some.inj hs
      exact ⟨cursor, (Option.some.inj hnext).symm.trans hcursor⟩
    | abandon =>
      obtain rfl := Option.some.inj hs
      cases hnext
    | _ =>
      rw [MailWorld.workerStep, hclaimed] at hs
      cases hs
  · cases label with
    | transact clock =>
      rw [MailWorld.workerStep, hcompleting] at hs
      obtain rfl := Option.some.inj hs
      cases hnext
    | databaseFails committed clock =>
      rw [MailWorld.workerStep, hcompleting] at hs
      obtain rfl := Option.some.inj hs
      cases hnext
    | abandon =>
      obtain rfl := Option.some.inj hs
      cases hnext
    | _ =>
      rw [MailWorld.workerStep, hcompleting] at hs
      cases hs

/-- The workers after a step: as before, newly claiming, or stepping. -/
theorem worker_of_step (hs : w.step env e = some (w', o)) {m : ℕ} {other : Worker}
    (hm : w'.workers m = some other) :
    w.workers m = some other ∨
      (other.phase = .claimed ∧ other.claim.resyncGeneration = w.jobs.recovery.generation) ∨
      ∃ label old result, w.workers m = some old ∧ w.workerStep env old label = some result ∧
        result.phase = some other.phase ∧ other.claim = old.claim := by
  cases e with
  | claimJob n id clock =>
    simp only [MailWorld.step] at hs
    split at hs
    · rename_i jobs claim hfree hclaim
      obtain ⟨rfl, -⟩ := Prod.mk.inj (Option.some.inj hs)
      by_cases hmn : m = n
      · subst hmn
        rw [MailWorld.setWorker_self] at hm
        obtain ⟨granted, rfl, rfl⟩ := Option.map_eq_some_iff.mp hm
        exact Or.inr (Or.inl ⟨rfl, claimNotificationJob_resyncGeneration hclaim⟩)
      · rw [MailWorld.setWorker_of_ne _ hmn] at hm
        exact Or.inl hm
    · cases hs
  | work n label =>
    obtain ⟨worker, result, hn, hresult, rfl, -⟩ := step_work hs
    by_cases hmn : m = n
    · subst hmn
      rw [MailWorld.apply_self] at hm
      obtain ⟨phase, hphase, rfl⟩ := Option.map_eq_some_iff.mp hm
      exact Or.inr (Or.inr ⟨label, worker, result, hn, hresult, hphase, rfl⟩)
    · rw [MailWorld.apply_of_ne _ hmn] at hm
      exact Or.inl hm
  | enqueue id pubsubMessageId historyId receivedAt =>
    simp only [MailWorld.step] at hs
    split at hs
    · cases hs
    · obtain ⟨rfl, -⟩ := Prod.mk.inj (Option.some.inj hs)
      exact Or.inl hm
  | arrive | touch =>
    obtain ⟨g, -, hpair⟩ := Option.map_eq_some_iff.mp hs
    obtain ⟨rfl, -⟩ := Prod.mk.inj hpair
    exact Or.inl hm
  | remove | claimWatch | completeWatch | failWatch | heartbeat =>
    obtain ⟨rfl, -⟩ := Prod.mk.inj (Option.some.inj hs)
    exact Or.inl hm

/-- The step lemma. -/
theorem Settling.step (h : Settling w id) (ht : Grounded env w t)
    (hs : w.step env e = some (w', o))
    (hsame : w'.jobs.recovery.generation = w.jobs.recovery.generation) : Settling w' id := by
  have hfences := ht.fences hs
  obtain ⟨job, cursor, hjob, hcursor, hreached⟩ := h.reached
  refine ⟨(hfences.idle h.idle hsame).1, ?_, ?_⟩
  · obtain ⟨job', hjob', hmove⟩ := ht.jobRow hs hjob
    obtain ⟨cursor', hcursor', hreached'⟩ :=
      reached_of_fences hfences h.idle hsame hcursor hreached
    exact ⟨job', cursor', hjob', hcursor', by rw [hmove.immutable.2]; exact hreached'⟩
  · intro m other job' hm hid hheld
    rw [hsame]
    rcases worker_of_step hs hm with hold | ⟨hclaimed, hgeneration⟩ | ⟨label, old, result, hold,
      hresult, hphase, hclaim⟩
    · obtain ⟨job₀, hheld₀⟩ := ht.heldJob hs hold hheld
      exact h.workers m other job₀ hold hid hheld₀
    · exact ⟨hgeneration, Or.inl hclaimed⟩
    · rw [hclaim] at hid hheld ⊢
      obtain ⟨job₀, hheld₀⟩ := ht.heldJob hs hold hheld
      obtain ⟨hgeneration, hold'⟩ := h.workers m old job₀ hold hid hheld₀
      exact ⟨hgeneration, Or.inr (h.workerStep ht hold hid hold' hresult hphase)⟩

/-- The run lemma: covered work settles as long as no recovery begins. -/
theorem settling_of_run {C : MailWorld → MailLabel → Prop} (ht : Grounded env w t)
    (hcovered : CoveredJob w.jobs id job) (hrun : System.Run (mailWorkers env) C w tr w')
    (hsame : w'.jobs.recovery.generation = w.jobs.recovery.generation) :
    Settling w' id ∧ ∃ u, Grounded env w' u := by
  have hI := hrun.invariant
    (I := fun v ↦ w.jobs.Fences v.jobs ∧ (∃ u, Grounded env v u) ∧
      (v.jobs.recovery.generation = w.jobs.recovery.generation → Settling v id))
    ⟨.refl _, ⟨t, ht⟩, fun _ ↦ hcovered.settling⟩ ?_
  · exact ⟨hI.2.2 hsame, hI.2.1⟩
  · rintro v e v' o ⟨hfences, ⟨u, hu⟩, hsettling⟩ - hs
    have hstep := hu.fences hs
    refine ⟨hfences.trans hstep, hu.step hs, fun hsame' ↦ ?_⟩
    -- The generation has not changed before the step either.
    have hbefore : v.jobs.recovery.generation = w.jobs.recovery.generation :=
      le_antisymm (le_trans hstep.generation (Nat.le_of_eq hsame')) hfences.generation
    exact (hsettling hbefore).step hu hs (by rw [hsame', hbefore])

/-! ## Who starts a recovery -/

/-- Of an idle mailbox, only a claim at the attempt limit and a failing job start a recovery. -/
theorem MailTables.recovery_eq_of_idle {settings : Settings} {call : TableCall}
    {reply : TableReply} (hidle : t.store.recovery.state = .idle)
    (hclaim : ∀ id clock, call ≠ .claimJob id clock)
    (hfail : ∀ claim clock args, call = .failJob claim clock args → t.store.heldJob claim = none)
    (hs : t.step settings call = some (u, reply)) : u.store.recovery = t.store.recovery := by
  -- An idle mailbox has no lease to hold, so the transactions that need one change nothing.
  have hunheld : ∀ resync, ¬t.store.recovery.HeldBy resync := by
    rintro resync ⟨hprocessing, -⟩
    rw [hidle] at hprocessing
    cases hprocessing
  cases call with
  | claimJob id clock => exact absurd rfl (hclaim id clock)
  | insertJob | readMailbox =>
    obtain ⟨-, rfl, -⟩ := eq_of_guarded hs
    rfl
  | completeJob claim clock historyCursor =>
    obtain ⟨-, rfl, -⟩ := eq_of_guarded hs
    exact completeJobAndAdvanceCursor_recovery
  | failJob claim clock args =>
    obtain ⟨-, rfl, -⟩ := eq_of_guarded hs
    change (Notifications.failJob settings t.store clock claim args).recovery = _
    rw [(changesNothing_of_heldJob (hfail claim clock args rfl)).fail]
  | requeueJob =>
    obtain ⟨-, rfl, -⟩ := eq_of_guarded hs
    change (Notifications.requeueJob _ _ _ _ _ _).recovery = _
    rw [requeueJob]
    split
    · rfl
    · rfl
  | deadLetterJob =>
    obtain ⟨-, rfl, -⟩ := eq_of_guarded hs
    change (Notifications.deadLetterJob _ _ _ _).recovery = _
    rw [deadLetterJob]
    split
    · rfl
    · rfl
  | claimResync clock =>
    obtain ⟨rfl, -⟩ := Prod.mk.inj (Option.some.inj hs)
    change (claimMailboxResync settings t.store clock).1.recovery = _
    rw [claimMailboxResync]
    split
    · rfl
    · rename_i state hmailbox
      rw [JobStore.recovery_of_mailbox hmailbox] at hidle
      change state.resyncState = .idle at hidle
      rw [hidle]
  | persistPage resync clock token processedCount =>
    rw [(eq_of_not_heldBy (.persistPage clock token processedCount) (hunheld resync) hs).1]
  | completeResync resync historyCursor =>
    rw [(eq_of_not_heldBy (.completeResync historyCursor) (hunheld resync) hs).1]
  | releaseResync resync clock errorCode =>
    rw [(eq_of_not_heldBy (.releaseResync clock errorCode) (hunheld resync) hs).1]
  | requireManual resync errorCode =>
    rw [(eq_of_not_heldBy (.requireManual errorCode) (hunheld resync) hs).1]
  | claimWatch now =>
    obtain ⟨rfl, -⟩ := Prod.mk.inj (Option.some.inj hs)
    change (claimWatchRenewal settings t.store now).1.recovery = _
    rw [claimWatchRenewal]
    split
    · rfl
    · split
      · rfl
      · split
        · rfl
        · rfl
  | completeWatch leaseToken historyId expiresAt =>
    obtain ⟨rfl, -⟩ := Prod.mk.inj (Option.some.inj hs)
    change (completeWatchRenewal t.store leaseToken historyId expiresAt).1.recovery = _
    rw [completeWatchRenewal]
    split
    · rfl
    · rename_i state hmailbox
      split
      · rw [JobStore.recovery_of_mailbox hmailbox]
        rfl
      · rfl
  | failWatch now leaseToken errorCode =>
    obtain ⟨rfl, -⟩ := Prod.mk.inj (Option.some.inj hs)
    change (failWatchRenewal settings t.store now leaseToken errorCode).recovery = _
    rw [failWatchRenewal]
    split
    · rfl
    · rename_i state hmailbox
      split
      · rw [JobStore.recovery_of_mailbox hmailbox]
        rfl
      · rfl
  | heartbeat now =>
    obtain ⟨rfl, -⟩ := Prod.mk.inj (Option.some.inj hs)
    change (recordWorkerHeartbeat t.store now).recovery = _
    rw [recordWorkerHeartbeat]
    split
    · rfl
    · rename_i state hmailbox
      rw [JobStore.recovery_of_mailbox hmailbox]
      rfl

/-- A claim of covered work that has attempts left leaves the recovery columns alone. -/
theorem claim_recovery {settings : Settings} {s s' : JobStore} {clock : ℕ → Time}
    {claim : Option ClaimedNotificationJob} (hidle : s.recovery.state = .idle)
    (hunspent : ∀ job, s.jobs id = some job → job.state = .pending →
      job.attemptCount < settings.notificationMaxAttempts)
    (hs : claimNotificationJob settings s id clock = some (s', claim)) :
    s'.recovery = s.recovery := by
  obtain ⟨job, state, hjob, hmailbox, -, houtcome⟩ := claimOutcome_of_claim hs
  rw [JobStore.recovery_of_mailbox hmailbox] at hidle ⊢
  change state.resyncState = .idle at hidle
  cases houtcome with
  | expired processing mailbox =>
    rcases mailbox with rfl | ⟨hprocessing, -⟩
    · exact JobStore.recovery_of_mailbox hmailbox
    · rw [hidle] at hprocessing
      cases hprocessing
  | manual pending manual =>
    rw [hidle] at manual
    cases manual
  | limit pending spent => exact absurd (hunspent job hjob pending) (not_lt.mpr spent)
  | granted => exact JobStore.recovery_of_mailbox hmailbox

/-- A claim of covered work without attempts left starts a recovery. -/
theorem claim_starts_recovery {settings : Settings} {s s' : JobStore} {clock : ℕ → Time}
    {claim : Option ClaimedNotificationJob} (hcovered : CoveredJob s id job)
    (hspent : settings.notificationMaxAttempts ≤ job.attemptCount)
    (hs : claimNotificationJob settings s id clock = some (s', claim)) :
    claim = none ∧ s'.recovery.state = .required ∧
      s'.recovery.generation = s.recovery.generation + 1 := by
  obtain ⟨job', state, hjob, hmailbox, -, houtcome⟩ := claimOutcome_of_claim hs
  obtain rfl := Option.some.inj (hcovered.row.symm.trans hjob)
  have hidle := hcovered.idle
  rw [JobStore.recovery_of_mailbox hmailbox] at hidle ⊢
  change state.resyncState = .idle at hidle
  cases houtcome with
  | expired processing =>
    rw [hcovered.pending] at processing
    cases processing
  | manual pending manual =>
    rw [hidle] at manual
    cases manual
  | @limit state' pending spent idle cursor recovery =>
    change none = none ∧ state'.recovery.state = .required ∧
      state'.recovery.generation = state.recovery.generation + 1
    rw [recovery]
    exact ⟨rfl, rfl, rfl⟩
  | granted pending automatic unspent => exact absurd ⟨hspent, hidle⟩ unspent

/-- **No step that processes covered work starts a recovery.** -/
theorem Settling.recovery_eq (h : Settling w id) (ht : Grounded env w t)
    (hC : AttemptsLeft env.settings w e) (hprocesses : Processes w id e)
    (hs : w.step env e = some (w', o)) : w'.jobs.recovery = w.jobs.recovery := by
  rcases hprocesses with ⟨n, clock, rfl⟩ | ⟨n, label, worker, rfl, hn, hid⟩
  · simp only [MailWorld.step] at hs
    split at hs
    · rename_i jobs claim hfree hclaim
      obtain ⟨rfl, -⟩ := Prod.mk.inj (Option.some.inj hs)
      refine claim_recovery h.idle (fun job hjob hpending ↦ ?_) hclaim
      obtain ⟨job', cursor, hjob', hcursor, hreached⟩ := h.reached
      obtain rfl := Option.some.inj (hjob.symm.trans hjob')
      exact hC n id clock job rfl ⟨hjob, hpending, h.idle, cursor, hcursor, hreached⟩
    · cases hs
  · obtain ⟨worker', result, hn', hresult, rfl, -⟩ := step_work hs
    obtain rfl := Option.some.inj (hn.symm.trans hn')
    have hstore := ht.tracks.store
    rcases tracked_of_workerStep hstore (ht.tracks.claims n worker hn)
      (ht.tracks.phases n worker hn) hresult
      with ⟨hjobs, -⟩ | ⟨clock, call, u, reply, hcall, -, hs', hu, -⟩
    · change result.jobs.recovery = _
      rw [hjobs]
    · change result.jobs.recovery = _
      rw [← hu, ← hstore]
      refine MailTables.recovery_eq_of_idle (by rw [hstore]; exact h.idle) ?_ ?_ hs'
      · rintro id clock rfl
        cases hphase : worker.phase with
        | _ =>
          rw [hphase] at hcall
          cases hcall
      -- A worker about to fail the job does not hold it.
      · rintro claim clock' args rfl
        have hfailing : ∃ args, worker.phase = .failing args ∧ worker.claim = claim := by
          cases hphase : worker.phase with
          | failing args =>
            rw [hphase] at hcall
            cases hcall
            exact ⟨args, rfl, rfl⟩
          | _ =>
            rw [hphase] at hcall
            cases hcall
        obtain ⟨args', hphase, rfl⟩ := hfailing
        rw [hstore, Option.eq_none_iff_forall_ne_some]
        intro job hheld
        rcases (h.workers n worker job hn hid hheld).2 with hclaimed | ⟨c, hcompleting⟩
        · rw [hphase] at hclaimed
          cases hclaimed
        · rw [hphase] at hcompleting
          cases hcompleting

/-- A claim of the job, while it is pending, is granted. -/
theorem Settling.granted (h : Settling w id) (hjob : w.jobs.jobs id = some job)
    (hpending : job.state = .pending) {n : ℕ} {clock : ℕ → Time}
    (hC : AttemptsLeft env.settings w (.claimJob n id clock))
    (hs : w.step env (.claimJob n id clock) = some (w', o)) :
    ∃ worker row, w'.workers n = some worker ∧ worker.claim.id = id ∧ worker.phase = .claimed ∧
      w'.jobs.heldJob worker.claim = some row := by
  obtain ⟨job', cursor, hjob', hcursor, hreached⟩ := h.reached
  obtain rfl := Option.some.inj (hjob.symm.trans hjob')
  have hunspent := hC n id clock job rfl ⟨hjob, hpending, h.idle, cursor, hcursor, hreached⟩
  simp only [MailWorld.step] at hs
  split at hs
  · rename_i jobs claim hfree hclaim
    obtain ⟨rfl, -⟩ := Prod.mk.inj (Option.some.inj hs)
    obtain ⟨job₁, state, hjob₁, hmailbox, -, houtcome⟩ := claimOutcome_of_claim hclaim
    obtain rfl := Option.some.inj (hjob.symm.trans hjob₁)
    have hidle := h.idle
    rw [JobStore.recovery_of_mailbox hmailbox] at hidle
    change state.resyncState = .idle at hidle
    rw [MailWorld.setWorker_self]
    cases houtcome with
    | expired processing =>
      rw [hpending] at processing
      cases processing
    | manual pending manual =>
      rw [hidle] at manual
      cases manual
    | limit pending spent => exact absurd hunspent (not_lt.mpr spent)
    | granted =>
      exact ⟨_, _, rfl, rfl, rfl, heldJob_eq_some (Function.update_self _ _ _) ⟨rfl, rfl⟩⟩
  · cases hs

/-- The last transaction of a worker on covered work completes the job. -/
def CompletesJob (env : MailEnv) (w : MailWorld) (n : ℕ) (id : JobId) : Prop :=
  ∀ clock, ∃ w' job before after,
    w.step env (.work n (.transact clock)) = some (w', .advanced before after) ∧
      w'.jobs.jobs id = some job ∧ job.state = .succeeded

theorem completeJobAndAdvanceCursor_of_current {settings : Settings} {s : JobStore}
    {clock : ℕ → Time} {claim : ClaimedNotificationJob} {historyCursor : ℕ}
    {state : GmailMailboxState} (hheld : s.heldJob claim = some job)
    (hmailbox : s.mailbox = some state) (hidle : state.resyncState = .idle)
    (hgeneration : state.resyncGeneration = claim.resyncGeneration) :
    (completeJobAndAdvanceCursor settings s clock claim historyCursor).2 = true := by
  have hcurrent : ¬(state.resyncState ≠ .idle ∨
      state.resyncGeneration ≠ claim.resyncGeneration) := by
    rw [hidle, hgeneration]
    simp
  rw [completeJobAndAdvanceCursor, hheld]
  dsimp only
  rw [hmailbox]
  dsimp only
  rw [if_neg hcurrent]

/-- A worker that holds the job reads the mailbox next, or completes the job. -/
theorem Settling.completes (h : Settling w id) (ht : Grounded env w t) {n : ℕ} {worker : Worker}
    (hn : w.workers n = some worker) (hid : worker.claim.id = id)
    (hheld : w.jobs.heldJob worker.claim = some job) :
    (worker.phase = .claimed ∧ ∃ w' historyCursor,
      w.step env (.work n .readMailbox) = some (w', .none) ∧ w'.jobs = w.jobs ∧
        w'.workers n = some ⟨worker.claim, .completing historyCursor⟩) ∨
      CompletesJob env w n id := by
  -- The work is covered: there is nothing to list, and the worker goes on to complete the job.
  obtain ⟨hgeneration, hclaimed | ⟨historyCursor, hcompleting⟩⟩ :=
    h.workers n worker job hn hid hheld
  · obtain ⟨cursor, hcursor⟩ := h.afterMailboxRead ht hn hid
    refine Or.inl ⟨hclaimed, w.apply n worker (w.goto (.completing cursor)), cursor, ?_, rfl,
      MailWorld.apply_self _ _ _ _⟩
    rw [MailWorld.step, hn]
    dsimp only
    rw [MailWorld.workerStep, hclaimed, hcursor]
    rfl
  · right
    intro clock
    obtain ⟨row, cursor, -, hcursor, -⟩ := h.reached
    obtain ⟨state, hmailbox, -⟩ := Option.bind_eq_some_iff.mp hcursor
    have hidle := h.idle
    rw [JobStore.recovery_of_mailbox hmailbox] at hidle hgeneration
    have hcompleted : (completeJobAndAdvanceCursor env.settings w.jobs clock worker.claim
        historyCursor).2 = true :=
      completeJobAndAdvanceCursor_of_current hheld hmailbox hidle hgeneration.symm
    obtain ⟨job', -, state', hheld', -, -, -, -, -, hstore⟩ :=
      completeJobAndAdvanceCursor_spec hcompleted
    have hstep : w.step env (.work n (.transact clock)) = some
        (w.apply n worker (w.advance env.settings clock worker.claim historyCursor),
          (w.advance env.settings clock worker.claim historyCursor).reply) := by
      rw [MailWorld.step, hn]
      dsimp only
      rw [MailWorld.workerStep, hcompleting]
      rfl
    rw [MailWorld.advance, hcompleted] at hstep
    have hrow : (completeJobAndAdvanceCursor env.settings w.jobs clock worker.claim
        historyCursor).1.jobs id = some { job' with
          state := .succeeded
          lastErrorCode := none
          processedAt := some (clock 0)
          nextAttemptAt := none } := by
      rw [hstore, ← hid]
      exact Function.update_self _ _ _
    exact ⟨_, _, _, _, hstep, hrow, rfl⟩

end

/-! ## Covered work settles -/

/-- In every run whose steps meet `C`: work that the cursor covers is completed without a recovery,
as far as no other work starts one. -/
structure CoveredWorkSettles (env : MailEnv) (C : MailWorld → MailLabel → Prop) : Prop where
  /-- No step that processes the job starts a recovery or leaves idle. -/
  quiet : ∀ {s t u v tr tr' id job e o}, (mailWorkers env).init s →
    System.Run (mailWorkers env) C s tr t → CoveredJob t.jobs id job →
    System.Run (mailWorkers env) C t tr' u →
    u.jobs.recovery.generation = t.jobs.recovery.generation → C u e → Processes u id e →
    u.step env e = some (v, o) →
    u.jobs.recovery.state = .idle ∧ v.jobs.recovery = u.jobs.recovery
  /-- While the job is pending, a claim of it is granted. -/
  granted : ∀ {s t u v tr tr' id job job' n clock o}, (mailWorkers env).init s →
    System.Run (mailWorkers env) C s tr t → CoveredJob t.jobs id job →
    System.Run (mailWorkers env) C t tr' u →
    u.jobs.recovery.generation = t.jobs.recovery.generation → u.jobs.jobs id = some job' →
    job'.state = .pending → C u (.claimJob n id clock) →
    u.step env (.claimJob n id clock) = some (v, o) →
    ∃ worker row, v.workers n = some worker ∧ worker.claim.id = id ∧ worker.phase = .claimed ∧
      v.jobs.heldJob worker.claim = some row
  /-- A worker that holds the job goes on to complete it, and does. -/
  completes : ∀ {s t u tr tr' id job row n worker}, (mailWorkers env).init s →
    System.Run (mailWorkers env) C s tr t → CoveredJob t.jobs id job →
    System.Run (mailWorkers env) C t tr' u →
    u.jobs.recovery.generation = t.jobs.recovery.generation → u.workers n = some worker →
    worker.claim.id = id → u.jobs.heldJob worker.claim = some row →
    (worker.phase = .claimed ∧ ∃ v historyCursor,
      u.step env (.work n .readMailbox) = some (v, .none) ∧ v.jobs = u.jobs ∧
        v.workers n = some ⟨worker.claim, .completing historyCursor⟩) ∨
    CompletesJob env u n id

/-- **Covered work settles when its claims find attempts left**, and a claim that finds none starts
a recovery. -/
theorem coveredWorkSettles_of_attemptsLeft (env : MailEnv) :
    CoveredWorkSettles env (AttemptsLeft env.settings) ∧
      ∀ w w' e o, w.step env e = some (w', o) → ¬AttemptsLeft env.settings w e →
        w.jobs.recovery.state = .idle ∧ w'.jobs.recovery.state = .required ∧
          w'.jobs.recovery.generation = w.jobs.recovery.generation + 1 := by
  refine ⟨⟨?_, ?_, ?_⟩, ?_⟩
  · intro s t u v tr tr' id job e o hinit hrun hcovered hrun' hsame hC hprocesses hs
    obtain ⟨x, hx⟩ := grounded_of_run hinit hrun
    obtain ⟨hsettling, y, hy⟩ := settling_of_run hx hcovered hrun' hsame
    exact ⟨hsettling.idle, hsettling.recovery_eq hy hC hprocesses hs⟩
  · intro s t u v tr tr' id job job' n clock o hinit hrun hcovered hrun' hsame hjob hpending hC hs
    obtain ⟨x, hx⟩ := grounded_of_run hinit hrun
    have hsettling := (settling_of_run hx hcovered hrun' hsame).1
    exact hsettling.granted hjob hpending hC hs
  · intro s t u tr tr' id job row n worker hinit hrun hcovered hrun' hsame hn hid hheld
    obtain ⟨x, hx⟩ := grounded_of_run hinit hrun
    obtain ⟨hsettling, y, hy⟩ := settling_of_run hx hcovered hrun' hsame
    exact hsettling.completes hy hn hid hheld
  · intro w w' e o hs hspent
    -- With no attempts left the claim starts a recovery itself.
    simp only [AttemptsLeft, not_forall, not_lt] at hspent
    obtain ⟨n, id, clock, job, rfl, hcovered, hspent⟩ := hspent
    simp only [MailWorld.step] at hs
    split at hs
    · rename_i jobs claim hfree hclaim
      obtain ⟨rfl, -⟩ := Prod.mk.inj (Option.some.inj hs)
      obtain ⟨-, hrequired, hgeneration⟩ := claim_starts_recovery hcovered hspent hclaim
      exact ⟨hcovered.idle, hrequired, hgeneration⟩
    · cases hs

/-! ### Attempts spent on waiting -/

/-- The history of the first job has expired, and its recovery is slow. The second job is claimed
five times meanwhile, each time only to wait. Then the recovery is completed, with a cursor that
covers both. -/
def slowRecoverySchedule : List MailLabel :=
  let wait (now : Time) : List MailLabel :=
    [.claimJob 1 1 fun _ ↦ now, .work 1 .readMailbox, .work 1 (.transact fun _ ↦ now),
      .work 1 (.transact fun _ ↦ now)]
  [.claimWatch 0, .completeWatch 0 10 (seconds 604800), .touch 13, .enqueue 0 "a" 12 0,
    .enqueue 1 "b" 13 0, .claimJob 0 0 fun _ ↦ 0, .work 0 .readMailbox,
    .work 0 (.listHistory [.error (.rejected (some 404))]), .work 0 (.transact fun _ ↦ 0),
    .claimJob 0 0 fun _ ↦ 0, .work 0 .readMailbox, .work 0 (.transact fun _ ↦ 0)] ++
  wait 0 ++ wait (seconds 5) ++ wait (seconds 15) ++ wait (seconds 35) ++ wait (seconds 75) ++
  [.work 0 (.listInbox 100), .work 0 .takeMessage, .work 0 .readProfile,
    .work 0 (.transact fun _ ↦ seconds 100), .work 0 (.transact fun _ ↦ seconds 100)]

/-- **The job that has waited too often**: the recovery is over and the cursor covers the job, but
its next claim starts another recovery. -/
theorem not_coveredWorkSettles : ¬CoveredWorkSettles defaultEnv System.anyStep := by
  intro h
  have hreplay : (mailWorkers defaultEnv).replay freshMail slowRecoverySchedule = some (_, _) := rfl
  have hprocesses : ∀ w, Processes w 1 (.claimJob 1 1 fun _ ↦ seconds 155) :=
    fun _ ↦ Or.inl ⟨1, _, rfl⟩
  obtain ⟨-, hsame⟩ := h.quiet init_freshMail (System.run_of_replay hreplay)
    ⟨rfl, rfl, rfl, 13, rfl, le_rfl⟩ (.nil _) rfl trivial (hprocesses _) rfl
  have hgeneration := congrArg RecoveryColumns.generation hsame
  exact absurd hgeneration (by decide)

end Onebox.Notifications
