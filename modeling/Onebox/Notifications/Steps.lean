import Onebox.Notifications.Worker

/-!
# What a worker's step does

Most steps of a worker say nothing about messages or cursors: they commit a transaction that leaves
the cursor up and adds no page token, and go on to a phase that makes no promise. They are one case
of `WorkerEffect`; the others are the steps that the coverage arguments are about.
-/

namespace Onebox.Notifications

open Python Transition

/-- The phases that promise nothing about messages or cursors. -/
def WorkerPhase.plain : WorkerPhase → Bool
  | claimed | claimingResync _ | requiringManual _ | releasing _ _ | failing _ | requeueing _ _
  | deadLettering _ => true
  | listingInbox _ _ | triagingInbox _ _ _ _ _ | readingProfile _ _ | completingResync _ _
  | checkpointing _ _ _ | listingHistory _ | triagingHistory _ _ _ _ | advancing _ _
  | completing _ => false

/-- The worker stops, or goes on to a plain phase. -/
def PlainNext (phase : Option WorkerPhase) : Prop := ∀ next, phase = some next → next.plain = true

/-- **The effect of a worker's step.** -/
inductive WorkerEffect (env : MailEnv) (w : MailWorld) (worker : Worker) (label : WorkerEvent) :
    StepResult → Prop
  | plain {result : StepResult} (steady : w.jobs.Steady result.jobs)
      (triage : result.triage = w.triage) (listed : result.listed = [])
      (next : PlainNext result.phase) : WorkerEffect env w worker label result
  /-- The mailbox is up to date for this job. -/
  | upToDate {cursor : ℕ} (at_cursor : w.jobs.cursor = cursor) :
      WorkerEffect env w worker label (w.goto (.completing cursor))
  | historyNext {cursor : ℕ} (at_cursor : w.jobs.cursor = cursor) :
      WorkerEffect env w worker label (w.goto (.listingHistory cursor))
  | historyListed {start : ℕ} {pages : List Json} {work : HistoryWork}
      (phase : worker.phase = .listingHistory start) (paged : Paged pages)
      (collected : historyMessageIds env.unicode env.settings (pages.map .ok) start
        = some (.ok work))
      (shows : w.gmail.showsHistory env.unicode start pages = true) :
      WorkerEffect env w worker label
        { w.goto (.triagingHistory start work.latestCursor work.messageIds none) with
          listed := work.messageIds }
  | historyTaken {start final : ℕ} {messageId : MessageId} {pending : List MessageId}
      (phase : worker.phase = .triagingHistory start final (messageId :: pending) none) :
      WorkerEffect env w worker label
        (w.goto (.triagingHistory start final pending (some (messageId, .claiming))))
  | historyTriage {start final : ℕ} {pending : List MessageId} {messageId : MessageId}
      {call call' : TriageCall} {event : TriageEvent} {triage : TriageStore}
      (labelled : label = .triage event)
      (phase : worker.phase = .triagingHistory start final pending (some (messageId, call)))
      (called : call.step env.settings w.triage messageId final event = some (triage, call')) :
      WorkerEffect env w worker label
        { w.goto (.triagingHistory start final pending (some (messageId, call'))) with
          triage := triage }
  | historyTriaged {start final : ℕ} {pending : List MessageId} {messageId : MessageId}
      (phase : worker.phase
        = .triagingHistory start final pending (some (messageId, .returned true))) :
      WorkerEffect env w worker label (w.goto (.triagingHistory start final pending none))
  | historyEnded {start final : ℕ}
      (phase : worker.phase = .triagingHistory start final [] none) :
      WorkerEffect env w worker label (w.goto (.advancing start final))
  | resyncClaimed {resync : ClaimedMailboxResync} {sourceHistoryId : ℕ} {jobs : JobStore}
      (steady : w.jobs.Steady jobs) (token : resync.pageToken = w.jobs.pageToken)
      (required : ∃ state, w.jobs.mailbox = some state ∧ state.resyncState = .required) :
      WorkerEffect env w worker label (w.commit jobs (some (.listingInbox resync sourceHistoryId)))
  | inboxListed {resync : ClaimedMailboxResync} {sourceHistoryId size : ℕ}
      (phase : worker.phase = .listingInbox resync sourceHistoryId) :
      WorkerEffect env w worker label
        { w.goto (.triagingInbox resync sourceHistoryId
            ⟨(w.gmail.listInbox resync.pageToken size).newest,
              usableMessageIds (inboxItems (w.gmail.listInbox resync.pageToken size)),
              (w.gmail.listInbox resync.pageToken size).nextPageToken⟩
            (usableMessageIds (inboxItems (w.gmail.listInbox resync.pageToken size))) none) with
          listed := usableMessageIds (inboxItems (w.gmail.listInbox resync.pageToken size)) }
  | inboxTaken {resync : ClaimedMailboxResync} {sourceHistoryId : ℕ} {page : ListedPage}
      {messageId : MessageId} {pending : List MessageId}
      (phase : worker.phase
        = .triagingInbox resync sourceHistoryId page (messageId :: pending) none) :
      WorkerEffect env w worker label
        (w.goto (.triagingInbox resync sourceHistoryId page pending (some (messageId, .claiming))))
  | inboxTriage {resync : ClaimedMailboxResync} {sourceHistoryId : ℕ} {page : ListedPage}
      {pending : List MessageId} {messageId : MessageId} {call call' : TriageCall}
      {event : TriageEvent} {triage : TriageStore} (labelled : label = .triage event)
      (phase : worker.phase
        = .triagingInbox resync sourceHistoryId page pending (some (messageId, call)))
      (called : call.step env.settings w.triage messageId sourceHistoryId event
        = some (triage, call')) :
      WorkerEffect env w worker label
        { w.goto (.triagingInbox resync sourceHistoryId page pending (some (messageId, call'))) with
          triage := triage }
  | inboxTriaged {resync : ClaimedMailboxResync} {sourceHistoryId : ℕ} {page : ListedPage}
      {pending : List MessageId} {messageId : MessageId}
      (phase : worker.phase
        = .triagingInbox resync sourceHistoryId page pending (some (messageId, .returned true))) :
      WorkerEffect env w worker label
        (w.goto (.triagingInbox resync sourceHistoryId page pending none))
  | inboxCheckpoints {resync : ClaimedMailboxResync} {sourceHistoryId : ℕ} {page : ListedPage}
      {token : PageToken}
      (phase : worker.phase = .triagingInbox resync sourceHistoryId page [] none)
      (next : page.nextPageToken = some token) :
      WorkerEffect env w worker label
        (w.goto (.checkpointing resync token page.messageIds.length))
  | inboxEnded {resync : ClaimedMailboxResync} {sourceHistoryId : ℕ} {page : ListedPage}
      (phase : worker.phase = .triagingInbox resync sourceHistoryId page [] none)
      (next : page.nextPageToken = none) :
      WorkerEffect env w worker label (w.goto (.readingProfile resync page.newest))
  | profileRead {resync : ClaimedMailboxResync} {newest : ℕ}
      (phase : worker.phase = .readingProfile resync newest) (labelled : label = .readProfile) :
      WorkerEffect env w worker label (w.goto (.completingResync resync w.gmail.historyId))
  | checkpointed {resync : ClaimedMailboxResync} {token : PageToken} {processedCount : ℕ}
      {clock : ℕ → Time} {next : Option WorkerPhase} {reply : Reply}
      (phase : worker.phase = .checkpointing resync token processedCount)
      (plain : PlainNext next) :
      WorkerEffect env w worker label
        ⟨(checkpointBoundedResync w.jobs clock resync token processedCount).1, w.triage, [], next,
          reply⟩
  /-- The recovery is completed, and its job next; or the worker is told that it failed. -/
  | recovered {resync : ClaimedMailboxResync} {historyCursor : ℕ} {next : Option WorkerPhase}
      {reply : Reply} (phase : worker.phase = .completingResync resync historyCursor)
      (succeeds : next = some (.completing worker.claim.historyId) ∧
          (completeBoundedResync w.jobs resync historyCursor).2 = true ∨ PlainNext next) :
      WorkerEffect env w worker label
        ⟨(completeBoundedResync w.jobs resync historyCursor).1, w.triage, [], next, reply⟩

section

variable {env : MailEnv} {w : MailWorld} {worker : Worker} {result : StepResult}
  {label : WorkerEvent}

theorem plainNext_none : PlainNext none := nofun

theorem plainNext_some {phase : WorkerPhase} (h : phase.plain = true) : PlainNext (some phase) := by
  rintro _ ⟨⟩
  exact h

/-- Moving on to a plain phase. -/
theorem workerEffect_goto {phase : WorkerPhase} (h : phase.plain = true) :
    WorkerEffect env w worker label (w.goto phase) :=
  .plain (.refl _) rfl rfl (plainNext_some h)

theorem workerEffect_commit {jobs : JobStore} {next : Option WorkerPhase}
    (hsteady : w.jobs.Steady jobs) (hnext : PlainNext next) :
    WorkerEffect env w worker label (w.commit jobs next) :=
  .plain hsteady rfl rfl hnext

theorem workerEffect_readMailbox (claim : ClaimedNotificationJob) :
    WorkerEffect env w worker label (w.goto (MailWorld.afterMailboxRead claim w.jobs.mailbox)) := by
  cases hmailbox : w.jobs.mailbox with
  | none => exact workerEffect_goto rfl
  | some state =>
    rw [MailWorld.afterMailboxRead]
    split
    · split
      · exact workerEffect_goto rfl
      · exact workerEffect_goto rfl
    · split
      · exact workerEffect_goto rfl
      · rename_i cursor hcursor
        have hat : w.jobs.cursor = cursor := by
          rw [JobStore.cursor_of_mailbox hmailbox, hcursor, Option.getD_some]
        split
        · exact .upToDate hat
        · exact .historyNext hat

/-- What the transactions of a worker do, in whatever way they are reported: `next` is where the
worker goes on, at most to the phase that the transaction leads to. -/
theorem workerEffect_transact {clock : ℕ → Time}
    (h : w.transact env.settings worker.claim clock worker.phase = some result) :
    WorkerEffect env w worker label result ∧
      ∀ next, PlainNext next → WorkerEffect env w worker label (w.commit result.jobs next) := by
  cases hphase : worker.phase with
  | claimingResync sourceHistoryId =>
    rw [hphase] at h
    simp only [MailWorld.transact] at h
    have hsteady : w.jobs.Steady (claimMailboxResync env.settings w.jobs clock).1 :=
      steady_claimMailboxResync
    split at h
    · obtain rfl := Option.some.inj h
      exact ⟨workerEffect_commit hsteady (plainNext_some rfl),
        fun next ↦ workerEffect_commit hsteady⟩
    · rename_i resync hresync
      obtain rfl := Option.some.inj h
      obtain ⟨htoken, hrequired⟩ := claimMailboxResync_pageToken hresync
      exact ⟨.resyncClaimed hsteady htoken hrequired, fun next ↦ workerEffect_commit hsteady⟩
  | completingResync resync historyCursor =>
    rw [hphase] at h
    simp only [MailWorld.transact] at h
    split at h
    · rename_i hcompleted
      obtain rfl := Option.some.inj h
      exact ⟨.recovered hphase (Or.inl ⟨rfl, hcompleted⟩),
        fun next hnext ↦ .recovered hphase (Or.inr hnext)⟩
    · obtain rfl := Option.some.inj h
      exact ⟨.recovered hphase (Or.inr (plainNext_some rfl)),
        fun next hnext ↦ .recovered hphase (Or.inr hnext)⟩
  | checkpointing resync token processedCount =>
    rw [hphase] at h
    obtain rfl := Option.some.inj h
    refine ⟨.checkpointed hphase ?_, fun next hnext ↦ .checkpointed hphase hnext⟩
    split
    · exact plainNext_some rfl
    · exact plainNext_some rfl
  | requiringManual resync =>
    rw [hphase] at h
    obtain rfl := Option.some.inj h
    have hsteady : w.jobs.Steady
        (requireManualResync w.jobs resync "resync_total_limit_reached").1 :=
      steady_requireManualResync _ _
    refine ⟨workerEffect_commit hsteady ?_, fun next ↦ workerEffect_commit hsteady⟩
    split
    · exact plainNext_some rfl
    · exact plainNext_some rfl
  | releasing resync errorCode =>
    rw [hphase] at h
    obtain rfl := Option.some.inj h
    have hsteady : w.jobs.Steady
        (releaseMailboxResync env.settings w.jobs clock resync errorCode).1 :=
      steady_releaseMailboxResync _ _
    exact ⟨workerEffect_commit hsteady (plainNext_some rfl),
      fun next ↦ workerEffect_commit hsteady⟩
  | advancing start final =>
    rw [hphase] at h
    obtain rfl := Option.some.inj h
    have hsteady : w.jobs.Steady (completeJobAndAdvanceCursor env.settings w.jobs clock
        worker.claim (max final worker.claim.historyId)).1 :=
      steady_completeJobAndAdvanceCursor _ _
    exact ⟨.plain hsteady rfl rfl plainNext_none, fun next ↦ workerEffect_commit hsteady⟩
  | completing historyCursor =>
    rw [hphase] at h
    obtain rfl := Option.some.inj h
    have hsteady : w.jobs.Steady (completeJobAndAdvanceCursor env.settings w.jobs clock
        worker.claim historyCursor).1 :=
      steady_completeJobAndAdvanceCursor _ _
    exact ⟨.plain hsteady rfl rfl plainNext_none, fun next ↦ workerEffect_commit hsteady⟩
  | failing args =>
    rw [hphase] at h
    obtain rfl := Option.some.inj h
    exact ⟨workerEffect_commit (steady_failJob _ _) plainNext_none,
      fun next ↦ workerEffect_commit (steady_failJob _ _)⟩
  | requeueing errorCode immediately =>
    rw [hphase] at h
    obtain rfl := Option.some.inj h
    exact ⟨workerEffect_commit (steady_requeueJob _ _ _) plainNext_none,
      fun next ↦ workerEffect_commit (steady_requeueJob _ _ _)⟩
  | deadLettering errorCode =>
    rw [hphase] at h
    obtain rfl := Option.some.inj h
    exact ⟨workerEffect_commit (steady_deadLetterJob _ _) plainNext_none,
      fun next ↦ workerEffect_commit (steady_deadLetterJob _ _)⟩
  | _ =>
    rw [hphase] at h
    cases h

theorem plainNext_afterDatabaseError (phase : WorkerPhase) :
    PlainNext (MailWorld.afterDatabaseError phase) := by
  cases phase with
  | completingResync | checkpointing | requiringManual => exact plainNext_some rfl
  | _ => exact plainNext_none

/-- Responses that all arrived. -/
theorem eq_map_ok_of_mapM {responses : List (Except HistoryFailure Json)} {pages : List Json}
    (h : responses.mapM Except.toOption = some pages) : responses = pages.map .ok := by
  induction responses generalizing pages with
  | nil =>
    obtain rfl := by simpa using h
    rfl
  | cons response rest ih =>
    cases response with
    | error e => simp [Except.toOption] at h
    | ok page =>
      obtain ⟨pages', hrest, rfl⟩ : ∃ pages', rest.mapM Except.toOption = some pages' ∧
          page :: pages' = pages := by
        simpa [Except.toOption, List.mapM_cons, Option.bind_eq_some_iff] using h
      rw [ih hrest, List.map_cons]

/-- **Every step of a worker has one of the effects.** -/
theorem workerEffect_of_step (h : w.workerStep env worker label = some result) :
    WorkerEffect env w worker label result := by
  cases label with
  | readMailbox =>
    simp only [MailWorld.workerStep] at h
    split at h
    · obtain rfl := Option.some.inj h
      exact workerEffect_readMailbox worker.claim
    · cases h
  | transact clock => exact (workerEffect_transact h).1
  | databaseFails committed clock =>
    simp only [MailWorld.workerStep] at h
    split at h
    · cases h
    · rename_i transacted htransact
      obtain rfl := Option.some.inj h
      -- Committed or not, the worker goes on as after an error.
      cases committed with
      | true => exact (workerEffect_transact htransact).2 _ (plainNext_afterDatabaseError _)
      | false => exact workerEffect_commit (.refl _) (plainNext_afterDatabaseError _)
  | listInbox size =>
    simp only [MailWorld.workerStep] at h
    split at h
    · rename_i resync sourceHistoryId hphase
      split at h
      · obtain rfl := Option.some.inj h
        exact workerEffect_goto rfl
      · split at h
        · obtain rfl := Option.some.inj h
          exact .inboxListed hphase
        · cases h
    · cases h
  | resyncFails failure =>
    simp only [MailWorld.workerStep] at h
    split at h
    · obtain rfl := Option.some.inj h
      exact workerEffect_goto rfl
    · obtain rfl := Option.some.inj h
      exact workerEffect_goto rfl
    · cases h
  | takeMessage =>
    simp only [MailWorld.workerStep] at h
    split at h
    · rename_i hphase
      obtain rfl := Option.some.inj h
      exact .inboxTaken hphase
    · rename_i resync sourceHistoryId page hphase
      obtain rfl := Option.some.inj h
      rw [MailWorld.afterInboxPage]
      split
      · rename_i token hnext
        split
        · exact workerEffect_goto rfl
        · exact .inboxCheckpoints hphase hnext
      · rename_i hnext
        exact .inboxEnded hphase hnext
    · rename_i hphase
      obtain rfl := Option.some.inj h
      exact .historyTaken hphase
    · rename_i hphase
      obtain rfl := Option.some.inj h
      exact .historyEnded hphase
    · cases h
  | triage event =>
    simp only [MailWorld.workerStep] at h
    split at h
    · rename_i hphase
      split at h
      · cases h
      · rename_i hcalled
        obtain rfl := Option.some.inj h
        exact .inboxTriage rfl hphase hcalled
    · rename_i hphase
      split at h
      · cases h
      · rename_i hcalled
        obtain rfl := Option.some.inj h
        exact .historyTriage rfl hphase hcalled
    · cases h
  | triaged =>
    simp only [MailWorld.workerStep] at h
    split at h
    · rename_i hphase
      obtain rfl := Option.some.inj h
      exact .inboxTriaged hphase
    · obtain rfl := Option.some.inj h
      exact workerEffect_goto rfl
    · obtain rfl := Option.some.inj h
      exact workerEffect_goto rfl
    · rename_i hphase
      obtain rfl := Option.some.inj h
      exact .historyTriaged hphase
    · obtain rfl := Option.some.inj h
      exact workerEffect_goto rfl
    · obtain rfl := Option.some.inj h
      exact workerEffect_commit (.refl _) plainNext_none
    · cases h
  | readProfile =>
    simp only [MailWorld.workerStep] at h
    split at h
    · rename_i hphase
      split at h
      · obtain rfl := Option.some.inj h
        exact .profileRead hphase rfl
      · cases h
    · cases h
  | profileInvalid =>
    simp only [MailWorld.workerStep] at h
    split at h
    · obtain rfl := Option.some.inj h
      exact workerEffect_goto rfl
    · cases h
  | listHistory responses =>
    simp only [MailWorld.workerStep] at h
    split at h
    · rename_i start hphase
      split at h
      · cases h
      · obtain rfl := Option.some.inj h
        exact workerEffect_goto rfl
      · rename_i work hcollected
        split at h
        · cases h
        · rename_i pages hpages
          split at h
          · rename_i hshows
            obtain rfl := Option.some.inj h
            refine .historyListed hphase hshows.1 ?_ hshows.2
            rw [← eq_map_ok_of_mapM hpages]
            exact hcollected
          · cases h
    · cases h
  | abandon =>
    obtain rfl := Option.some.inj h
    exact workerEffect_commit (.refl _) plainNext_none

end

/-! ## What a step of the system does -/

/-- Gmail moves on: messages are added past the current history id, and the inbox only loses
others. -/
structure Gmail.Grows (g g' : Gmail) : Prop where
  arrivals : ∃ added, g'.arrivals = g.arrivals ++ added ∧ ∀ entry ∈ added, g.historyId < entry.1
  historyId : g.historyId ≤ g'.historyId
  inbox : ∀ entry ∈ g'.inbox, entry ∈ g.inbox ∨ g.historyId < entry.1
  wellFormed : g.WellFormed → g'.WellFormed

namespace Gmail

variable {g g' : Gmail}

theorem Grows.refl (g : Gmail) : g.Grows g :=
  ⟨⟨[], by simp, by simp⟩, le_rfl, fun _ ↦ Or.inl, id⟩

theorem Grows.mem_arrivals (h : g.Grows g') {entry : ℕ × MessageId} (hmem : entry ∈ g'.arrivals) :
    entry ∈ g.arrivals ∨ g.historyId < entry.1 := by
  obtain ⟨added, hadded, hnew⟩ := h.arrivals
  rw [hadded] at hmem
  exact (List.mem_append.mp hmem).imp_right (hnew entry)

theorem grows_of_arrive {hid : ℕ} {messageId : MessageId} (h : g.arrive hid messageId = some g') :
    g.Grows g' := by
  rw [arrive] at h
  split at h
  · rename_i hnew
    obtain rfl := Option.some.inj h
    refine ⟨⟨[(hid, messageId)], rfl, by simpa using hnew.1⟩, le_of_lt hnew.1, ?_, ?_⟩
    · intro entry hmem
      rw [inbox, List.filter_append, List.mem_append] at hmem
      rcases hmem with hmem | hmem
      · exact Or.inl hmem
      · obtain rfl := List.mem_singleton.mp (List.mem_of_mem_filter hmem)
        exact Or.inr hnew.1
    · rintro ⟨hsorted, hpos, hle, hids⟩
      refine ⟨List.pairwise_append.mpr ⟨hsorted, List.pairwise_singleton _ _, ?_⟩, ?_, ?_, ?_⟩
      · intro entry hmem other hother
        obtain rfl := List.mem_singleton.mp hother
        exact lt_of_le_of_lt (hle entry hmem) hnew.1
      · intro entry hmem
        rcases List.mem_append.mp hmem with hmem | hmem
        · exact hpos entry hmem
        · obtain rfl := List.mem_singleton.mp hmem
          exact lt_of_le_of_lt (Nat.zero_le _) hnew.1
      · intro entry hmem
        rcases List.mem_append.mp hmem with hmem | hmem
        · exact le_trans (hle entry hmem) (le_of_lt hnew.1)
        · obtain rfl := List.mem_singleton.mp hmem
          exact le_rfl
      · intro entry hmem
        rcases List.mem_append.mp hmem with hmem | hmem
        · exact hids entry hmem
        · obtain rfl := List.mem_singleton.mp hmem
          exact hnew.2.1
  · cases h

theorem grows_of_touch {hid : ℕ} (h : g.touch hid = some g') : g.Grows g' := by
  rw [touch] at h
  split at h
  · rename_i hnew
    obtain rfl := Option.some.inj h
    refine ⟨⟨[], by simp, by simp⟩, le_of_lt hnew, fun _ ↦ Or.inl, ?_⟩
    rintro ⟨hsorted, hpos, hle, hids⟩
    exact ⟨hsorted, hpos, fun entry hmem ↦ le_trans (hle entry hmem) (le_of_lt hnew), hids⟩
  · cases h

theorem grows_remove (messageId : MessageId) : g.Grows (g.remove messageId) := by
  refine ⟨⟨[], by simp [remove], by simp⟩, le_rfl, fun entry hmem ↦ Or.inl ?_,
    fun h ↦ ⟨h.sorted, h.pos, h.le_historyId, h.ids⟩⟩
  rw [inbox, List.mem_filter] at hmem ⊢
  exact ⟨hmem.1, by simpa [remove] using fun hgone ↦ by simp_all [remove]⟩

end Gmail

/-- **The effect of a step of the system.** -/
inductive MailEffect (env : MailEnv) (w : MailWorld) : MailLabel → MailWorld → Prop
  | gmail (e : MailLabel) {g : Gmail} (grows : w.gmail.Grows g) :
      MailEffect env w e (w.setGmail g)
  | jobs (e : MailLabel) {jobs : JobStore} (steady : w.jobs.Steady jobs) :
      MailEffect env w e (w.setJobs jobs)
  | claimed (n : ℕ) (id : JobId) (clock : ℕ → Time) {jobs : JobStore} {worker : Option Worker}
      (steady : w.jobs.Steady jobs) (fresh : ∀ x, worker = some x → x.phase = .claimed) :
      MailEffect env w (.claimJob n id clock) ((w.setJobs jobs).setWorker n worker)
  | work (n : ℕ) (label : WorkerEvent) {worker : Worker} {result : StepResult}
      (current : w.workers n = some worker) (effect : WorkerEffect env w worker label result) :
      MailEffect env w (.work n label) (w.apply n worker result)

theorem mailEffect_of_step {env : MailEnv} {w w' : MailWorld} {e : MailLabel} {o : Reply}
    (hs : w.step env e = some (w', o)) : MailEffect env w e w' := by
  cases e with
  | arrive hid messageId =>
    obtain ⟨g, hg, hpair⟩ := Option.map_eq_some_iff.mp hs
    obtain ⟨rfl, -⟩ := Prod.mk.inj hpair
    exact .gmail _ (Gmail.grows_of_arrive hg)
  | touch hid =>
    obtain ⟨g, hg, hpair⟩ := Option.map_eq_some_iff.mp hs
    obtain ⟨rfl, -⟩ := Prod.mk.inj hpair
    exact .gmail _ (Gmail.grows_of_touch hg)
  | remove messageId =>
    obtain ⟨rfl, -⟩ := Prod.mk.inj (Option.some.inj hs)
    exact .gmail _ (Gmail.grows_remove messageId)
  | claimWatch now =>
    obtain ⟨rfl, -⟩ := Prod.mk.inj (Option.some.inj hs)
    exact .jobs _ steady_claimWatchRenewal
  | completeWatch leaseToken historyId expiresAt =>
    obtain ⟨rfl, -⟩ := Prod.mk.inj (Option.some.inj hs)
    exact .jobs _ (steady_completeWatchRenewal _ _ _)
  | failWatch now leaseToken errorCode =>
    obtain ⟨rfl, -⟩ := Prod.mk.inj (Option.some.inj hs)
    exact .jobs _ (steady_failWatchRenewal _ _)
  | heartbeat now =>
    obtain ⟨rfl, -⟩ := Prod.mk.inj (Option.some.inj hs)
    exact .jobs _ steady_recordWorkerHeartbeat
  | enqueue id pubsubMessageId historyId receivedAt =>
    simp only [MailWorld.step] at hs
    split at hs
    · cases hs
    · obtain ⟨rfl, -⟩ := Prod.mk.inj (Option.some.inj hs)
      exact .jobs _ (steady_enqueueNotification _ _ _ _)
  | claimJob n id clock =>
    simp only [MailWorld.step] at hs
    split at hs
    · rename_i jobs claim hfree hclaim
      obtain ⟨rfl, -⟩ := Prod.mk.inj (Option.some.inj hs)
      refine .claimed n id clock (steady_claimNotificationJob hclaim) fun x hx ↦ ?_
      obtain ⟨claimed, -, rfl⟩ := Option.map_eq_some_iff.mp hx
      rfl
    · cases hs
  | work n label =>
    simp only [MailWorld.step] at hs
    split at hs
    · cases hs
    · rename_i worker hcurrent
      split at hs
      · cases hs
      · rename_i result hresult
        obtain ⟨rfl, -⟩ := Prod.mk.inj (Option.some.inj hs)
        exact .work n label hcurrent (workerEffect_of_step hresult)

namespace MailWorld

theorem setWorker_self (w : MailWorld) (n : ℕ) (worker : Option Worker) :
    (w.setWorker n worker).workers n = worker := Function.update_self _ _ _

theorem setWorker_of_ne (w : MailWorld) {n m : ℕ} (h : m ≠ n) (worker : Option Worker) :
    (w.setWorker n worker).workers m = w.workers m := Function.update_of_ne h _ _

theorem apply_self (w : MailWorld) (n : ℕ) (worker : Worker) (result : StepResult) :
    (w.apply n worker result).workers n
      = result.phase.map fun phase ↦ { worker with phase := phase } := Function.update_self _ _ _

theorem apply_of_ne (w : MailWorld) {n m : ℕ} (h : m ≠ n) (worker : Worker)
    (result : StepResult) : (w.apply n worker result).workers m = w.workers m :=
  Function.update_of_ne h _ _

end MailWorld

/-! ### What everybody can rely on -/

/-- What no step of anybody takes back. -/
structure MailWorld.Grows (w w' : MailWorld) : Prop where
  triage : w.triage.Keeps w'.triage
  listed : w.listed ⊆ w'.listed
  gmail : w.gmail.Grows w'.gmail

section

variable {env : MailEnv} {w w' : MailWorld} {e : MailLabel} {worker : Worker}
  {label : WorkerEvent} {result : StepResult}

theorem WorkerEffect.keeps (h : WorkerEffect env w worker label result) :
    w.triage.Keeps result.triage := by
  cases h with
  | plain steady triage => rw [triage]; exact .refl _
  | historyTriage _ _ called => exact TriageCall.step_keeps called
  | inboxTriage _ _ called => exact TriageCall.step_keeps called
  | _ => exact .refl _

theorem MailEffect.grows (h : MailEffect env w e w') : w.Grows w' := by
  cases h with
  | gmail e grows => exact ⟨.refl _, List.Subset.refl _, grows⟩
  | jobs => exact ⟨.refl _, List.Subset.refl _, .refl _⟩
  | claimed => exact ⟨.refl _, List.Subset.refl _, .refl _⟩
  | work n label current effect =>
    exact ⟨effect.keeps, List.subset_append_left _ _, .refl _⟩

/-- The workers after a step: the ones before, the one that claims a job, and the one that
steps. -/
theorem MailEffect.worker_cases (h : MailEffect env w e w') {m : ℕ} {other : Worker}
    (hm : w'.workers m = some other) :
    w.workers m = some other ∨ other.phase = .claimed ∨
      ∃ label old result, e = .work m label ∧ w.workers m = some old ∧
        WorkerEffect env w old label result ∧ w' = w.apply m old result ∧
        result.phase = some other.phase := by
  cases h with
  | gmail => exact Or.inl hm
  | jobs => exact Or.inl hm
  | @claimed n id clock jobs worker steady fresh =>
    by_cases hmn : m = n
    · subst hmn
      rw [MailWorld.setWorker_self] at hm
      exact Or.inr (Or.inl (fresh other hm))
    · rw [MailWorld.setWorker_of_ne _ hmn] at hm
      exact Or.inl hm
  | @work n label old result current effect =>
    by_cases hmn : m = n
    · subst hmn
      rw [MailWorld.apply_self] at hm
      obtain ⟨phase, hphase, rfl⟩ := Option.map_eq_some_iff.mp hm
      exact Or.inr (Or.inr ⟨label, old, result, rfl, current, effect, rfl, hphase⟩)
    · rw [MailWorld.apply_of_ne _ hmn] at hm
      exact Or.inl hm

end

/-! ### Replies -/

section

variable {env : MailEnv} {w w' : MailWorld} {e : MailLabel} {o : Reply}

theorem reply_of_workerStep {worker : Worker} {label : WorkerEvent} {result : StepResult}
    (h : w.workerStep env worker label = some result) :
    result.reply = .none ∨ ∃ clock, label = .transact clock ∧
      w.transact env.settings worker.claim clock worker.phase = some result := by
  cases label with
  | transact clock => exact Or.inr ⟨clock, rfl, h⟩
  | abandon =>
    obtain rfl := Option.some.inj h
    exact Or.inl rfl
  | _ =>
    left
    simp only [MailWorld.workerStep] at h
    repeat' split at h
    all_goals
      first
      | obtain rfl := Option.some.inj h
        rfl
      | cases h

/-- Only the transactions of workers report anything. -/
theorem reply_of_step (hs : w.step env e = some (w', o)) :
    o = .none ∨ ∃ n clock worker result, e = .work n (.transact clock) ∧
      w.workers n = some worker ∧
      w.transact env.settings worker.claim clock worker.phase = some result ∧
      w' = w.apply n worker result ∧ o = result.reply := by
  cases e with
  | work n label =>
    simp only [MailWorld.step] at hs
    split at hs
    · cases hs
    · rename_i worker hworker
      split at hs
      · cases hs
      · rename_i result hresult
        obtain ⟨rfl, rfl⟩ := Prod.mk.inj (Option.some.inj hs)
        refine (reply_of_workerStep hresult).imp_right ?_
        rintro ⟨clock, rfl, htransact⟩
        exact ⟨n, clock, worker, result, rfl, hworker, htransact, rfl, rfl⟩
  | arrive | touch =>
    obtain ⟨g, hg, hpair⟩ := Option.map_eq_some_iff.mp hs
    exact Or.inl (Prod.mk.inj hpair).2.symm
  | enqueue =>
    simp only [MailWorld.step] at hs
    split at hs
    · cases hs
    · exact Or.inl (Prod.mk.inj (Option.some.inj hs)).2.symm
  | claimJob =>
    simp only [MailWorld.step] at hs
    split at hs
    · exact Or.inl (Prod.mk.inj (Option.some.inj hs)).2.symm
    · cases hs
  | remove | claimWatch | completeWatch | failWatch | heartbeat =>
    exact Or.inl (Prod.mk.inj (Option.some.inj hs)).2.symm

end

/-! ### Triage inside a worker -/

/-- The message that a worker is triaging. -/
def WorkerPhase.currentTriage : WorkerPhase → CurrentTriage
  | triagingInbox _ _ _ _ current => current
  | triagingHistory _ _ _ current => current
  | _ => none

/-- The message is to be triaged by this worker. -/
def Outstanding (pending : List MessageId) (current : CurrentTriage) (messageId : MessageId) :
    Prop :=
  messageId ∈ pending ∨ ∃ call, current = some (messageId, call)

/-- The call in progress is in order. -/
def CurrentInvariant (triage : TriageStore) (current : CurrentTriage) : Prop :=
  ∀ messageId call, current = some (messageId, call) → CallInvariant triage messageId call

section

variable {env : MailEnv} {triage triage' : TriageStore} {current : CurrentTriage}
  {pending : List MessageId} {message messageId : MessageId} {call call' : TriageCall}

theorem currentInvariant_of_keeps (hkeeps : triage.Keeps triage')
    (h : CurrentInvariant triage current) : CurrentInvariant triage' current :=
  fun messageId call hcurrent ↦ (h messageId call hcurrent).mono hkeeps

theorem currentInvariant_claiming : CurrentInvariant triage (some (message, .claiming)) := by
  rintro messageId call ⟨⟩
  trivial

theorem CurrentInvariant.called {sourceHistoryId : ℕ} {event : TriageEvent}
    (h : CurrentInvariant triage (some (message, call)))
    (hunsuperseded : ∀ now, event = .transact now → call.Unsuperseded triage)
    (hcalled : call.step env.settings triage message sourceHistoryId event
      = some (triage', call')) : CurrentInvariant triage' (some (message, call')) := by
  rintro messageId other ⟨⟩
  exact (h _ _ rfl).step hunsuperseded hcalled

/-- The next message is taken up. -/
theorem Outstanding.taken (h : Outstanding (message :: pending) none messageId) :
    Outstanding pending (some (message, call)) messageId := by
  rcases h with hmem | ⟨other, hother⟩
  · rcases List.mem_cons.mp hmem with rfl | hmem
    · exact Or.inr ⟨call, rfl⟩
    · exact Or.inl hmem
  · cases hother

/-- The call in progress moves on. -/
theorem Outstanding.called (h : Outstanding pending (some (message, call)) messageId) :
    Outstanding pending (some (message, call')) messageId := by
  rcases h with hmem | ⟨other, hother⟩
  · exact Or.inl hmem
  · cases hother
    exact Or.inr ⟨call', rfl⟩

/-- A call that reports its message done leaves it terminal. -/
theorem Outstanding.triaged (h : Outstanding pending (some (message, .returned true)) messageId)
    (hcurrent : CurrentInvariant triage (some (message, .returned true))) :
    triage.Terminal messageId ∨ Outstanding pending none messageId := by
  rcases h with hmem | ⟨other, hother⟩
  · exact Or.inr (Or.inl hmem)
  · cases hother
    exact Or.inl (hcurrent _ _ rfl rfl)

theorem not_outstanding_nil : ¬Outstanding [] none messageId := by
  rintro (hmem | ⟨other, hother⟩)
  · cases hmem
  · cases hother

end

/-- No finalization of the step finds its message taken over and unfinished. -/
def TriageUnsuperseded (w : MailWorld) (e : MailLabel) : Prop :=
  ∀ n now worker messageId call, e = .work n (.triage (.transact now)) →
    w.workers n = some worker → worker.phase.currentTriage = some (messageId, call) →
    call.Unsuperseded w.triage

end Onebox.Notifications
