import Onebox.Notifications.JobRows

/-!
# Push deliveries

The mail service as a whole: the workers, and any number of calls of `enqueue_notification`, whose
database steps (reading the mailbox, the insert, and the lookup after a conflict) interleave with
them and with each other. A notification becomes one job, and the job is pending, leased or over
until it has either been covered by the cursor or its mailbox is out of the service's hands.
-/

namespace Onebox.Notifications

open Python Transition

/-! ## The system -/

/-- Where a call of `enqueue_notification` is. -/
inductive DeliveryPhase
  | reading
  | inserting
  /-- The insert has raised `IntegrityError`. -/
  | lookingUp

/-- A call of `enqueue_notification`, for an envelope of this mailbox and owner. -/
structure Delivery where
  pubsubMessageId : String
  historyId : ℕ
  phase : DeliveryPhase

/-- The workers and the calls in progress. -/
structure MailService where
  mail : MailWorld
  deliveries : ℕ → Option Delivery

inductive ServiceLabel
  | mail (e : MailLabel)
  | deliver (n : ℕ) (pubsubMessageId : String) (historyId : ℕ)
  /-- The next database step of a call; `id` and `receivedAt` are for the row that it inserts. -/
  | enqueue (n : ℕ) (id : JobId) (receivedAt : Time)
  /-- The call is cancelled. -/
  | drop (n : ℕ)

inductive ServiceReply
  | none
  | mail (reply : Reply)
  /-- `enqueue_notification` returns. -/
  | enqueued (pubsubMessageId : String) (added : Bool)
  /-- `enqueue_notification` raises. -/
  | raised

namespace MailService

def setDelivery (d : MailService) (n : ℕ) (delivery : Option Delivery) : MailService :=
  { d with deliveries := Function.update d.deliveries n delivery }

def setJobs (d : MailService) (jobs : JobStore) : MailService :=
  { d with mail := d.mail.setJobs jobs }

/-- The next database step of `enqueue_notification`. -/
def enqueue (d : MailService) (n : ℕ) (delivery : Delivery) (id : JobId) (receivedAt : Time) :
    Option (MailService × ServiceReply) :=
  match delivery.phase with
  | .reading =>
    if (d.mail.jobs.mailbox.bind (·.historyCursor)).isNone then
      some (d.setDelivery n none, .raised)
    else some (d.setDelivery n (some { delivery with phase := .inserting }), .none)
  | .inserting =>
    if d.mail.jobs.jobs id = none then
      match d.mail.jobs.pubsubIndex delivery.pubsubMessageId with
      | some _ => some (d.setDelivery n (some { delivery with phase := .lookingUp }), .none)
      | none =>
        some ((d.setJobs (insertNotificationJob d.mail.jobs id delivery.pubsubMessageId
          delivery.historyId receivedAt)).setDelivery n none,
          .enqueued delivery.pubsubMessageId true)
    else none
  | .lookingUp =>
    match d.mail.jobs.pubsubIndex delivery.pubsubMessageId with
    | some _ => some (d.setDelivery n none, .enqueued delivery.pubsubMessageId false)
    | none => some (d.setDelivery n none, .raised)

def step (env : MailEnv) (d : MailService) : ServiceLabel → Option (MailService × ServiceReply)
  | .mail e =>
    if e.isEnqueue then none
    else (d.mail.step env e).map fun result ↦ ({ d with mail := result.1 }, .mail result.2)
  | .deliver n pubsubMessageId historyId =>
    match d.deliveries n with
    | some _ => none
    | none => some (d.setDelivery n (some ⟨pubsubMessageId, historyId, .reading⟩), .none)
  | .enqueue n id receivedAt =>
    match d.deliveries n with
    | none => none
    | some delivery => d.enqueue n delivery id receivedAt
  | .drop n => some (d.setDelivery n none, .none)

end MailService

/-- The mail service, from empty tables on. -/
def mailService (env : MailEnv) : System MailService ServiceLabel ServiceReply where
  init d := (mailWorkers env).init d.mail ∧
    (∀ pubsubMessageId, d.mail.jobs.pubsubIndex pubsubMessageId = none) ∧
    ∀ n, d.deliveries n = none
  step := MailService.step env

/-! ## The invariant -/

/-- The tables under the service, and the index of its jobs. -/
structure Follows (env : MailEnv) (d : MailService) (t : MailTables) : Prop where
  tracks : Tracks env d.mail t
  jobs : t.JobsInvariant
  indexed : ∀ pubsubMessageId id, d.mail.jobs.pubsubIndex pubsubMessageId = some id →
    ∃ job, d.mail.jobs.jobs id = some job ∧ job.pubsubMessageId = pubsubMessageId

/-- What a step does to the job table: the rows move, or one is inserted. -/
inductive ServiceEffect (d : MailService) : ServiceLabel → ServiceReply → MailService → Prop
  | moved {d' : MailService} (e : ServiceLabel) {o : ServiceReply}
      (move : JobsMove d.mail.jobs d'.mail.jobs)
      (silent : ∀ pubsubMessageId, o ≠ .enqueued pubsubMessageId true) : ServiceEffect d e o d'
  | inserted {d' : MailService} {delivery : Delivery} (n : ℕ) (id : JobId) (receivedAt : Time)
      (current : d.deliveries n = some delivery) (free : d.mail.jobs.jobs id = none)
      (new : d.mail.jobs.pubsubIndex delivery.pubsubMessageId = none)
      (jobs : d'.mail.jobs = insertNotificationJob d.mail.jobs id delivery.pubsubMessageId
        delivery.historyId receivedAt) :
      ServiceEffect d (.enqueue n id receivedAt) (.enqueued delivery.pubsubMessageId true) d'

section

variable {env : MailEnv} {d d' d'' : MailService} {t u : MailTables} {e : ServiceLabel}
  {o : ServiceReply} {tr : List (ServiceLabel × ServiceReply)}

theorem indexed_of_jobsMove {s s' : JobStore} (hmove : JobsMove s s')
    (h : ∀ pubsubMessageId id, s.pubsubIndex pubsubMessageId = some id →
      ∃ job, s.jobs id = some job ∧ job.pubsubMessageId = pubsubMessageId)
    {pubsubMessageId : String} {id : JobId} (hindex : s'.pubsubIndex pubsubMessageId = some id) :
    ∃ job, s'.jobs id = some job ∧ job.pubsubMessageId = pubsubMessageId := by
  rw [hmove.index] at hindex
  obtain ⟨job, hjob, hpubsub⟩ := h pubsubMessageId id hindex
  obtain ⟨job', hjob', hjobMove⟩ := hmove.row id job hjob
  exact ⟨job', hjob', hjobMove.immutable.1.trans hpubsub⟩

/-- The tables do not change. -/
theorem Follows.of_mail_eq (h : Follows env d t) (hmail : d'.mail = d.mail) : Follows env d' t := by
  obtain ⟨htracks, hjobs, hindexed⟩ := h
  rw [← hmail] at htracks hindexed
  exact ⟨htracks, hjobs, hindexed⟩

/-- A step of the workers. -/
theorem Follows.mail (h : Follows env d t) {e : MailLabel} {w : MailWorld} {reply : Reply}
    (he : e.isEnqueue = false) (hs : d.mail.step env e = some (w, reply)) :
    ∃ u, Follows env { d with mail := w } u ∧ t.jobClaims ⊆ u.jobClaims ∧
      JobsMove d.mail.jobs w.jobs := by
  have hstore := h.tracks.store
  rcases h.tracks.step hs with hstay | ⟨call, u, o, hinsert, hdisciplined, hcall, htracks⟩
  · have hjobs : d.mail.jobs = w.jobs := by rw [← hstore, hstay.store]
    have hmove : JobsMove d.mail.jobs w.jobs := by
      rw [hjobs]
      exact .refl _
    exact ⟨t, ⟨hstay, h.jobs, fun _ _ ↦ indexed_of_jobsMove hmove h.indexed⟩,
      List.Subset.refl _, hmove⟩
  · have hcallMoves : call.isInsert = false := by
      by_contra hne
      rw [hinsert (Bool.not_eq_false _ ▸ hne)] at he
      cases he
    have hmove : JobsMove d.mail.jobs w.jobs := by
      rw [← hstore, ← htracks.store]
      exact MailTables.jobsMove_of_step h.jobs hdisciplined hcallMoves hcall
    exact ⟨u, ⟨htracks, h.jobs.step hdisciplined hcall,
      fun _ _ ↦ indexed_of_jobsMove hmove h.indexed⟩, (MailTables.keeps_of_step hcall).jobClaims,
      hmove⟩

/-- The insert of a delivery. -/
theorem Follows.insert (h : Follows env d t) {id : JobId} {pubsubMessageId : String}
    (historyId : ℕ) (receivedAt : Time) (hfree : d.mail.jobs.jobs id = none)
    (hnew : d.mail.jobs.pubsubIndex pubsubMessageId = none) :
    ∃ u, Follows env (d.setJobs (insertNotificationJob d.mail.jobs id pubsubMessageId historyId
      receivedAt)) u ∧ t.jobClaims ⊆ u.jobClaims := by
  have hstore := h.tracks.store
  rw [← hstore] at hfree hnew
  have hcall : t.step env.settings (.insertJob id pubsubMessageId historyId receivedAt)
      = some (_, _) := if_pos ⟨hfree, hnew⟩
  refine ⟨_, ⟨h.tracks.call hcall (by rw [← hstore]; rfl), h.jobs.insert hfree hnew, ?_⟩,
    List.Subset.refl _⟩
  rw [hstore] at hfree hnew
  intro other otherId hindex
  change (insertNotificationJob d.mail.jobs id pubsubMessageId historyId
    receivedAt).pubsubIndex other = some otherId at hindex
  by_cases hsame : other = pubsubMessageId
  · subst hsame
    rw [insertNotificationJob_index_self] at hindex
    obtain rfl := Option.some.inj hindex
    obtain ⟨job, hjob, hpubsub, -⟩ :=
      insertNotificationJob_self d.mail.jobs id other historyId receivedAt
    exact ⟨job, hjob, hpubsub⟩
  · rw [insertNotificationJob_index_of_ne hsame] at hindex
    obtain ⟨job, hjob, hpubsub⟩ := h.indexed other otherId hindex
    have hne : otherId ≠ id := by
      rintro rfl
      rw [hfree] at hjob
      cases hjob
    exact ⟨job, (insertNotificationJob_of_ne hne).trans hjob, hpubsub⟩

/-- **Every step of the service moves the rows or inserts one.** -/
theorem Follows.step (h : Follows env d t) (hs : d.step env e = some (d', o)) :
    ServiceEffect d e o d' ∧ ∃ u, Follows env d' u ∧ t.jobClaims ⊆ u.jobClaims := by
  -- The handling of a delivery that does not reach the table leaves the mail as it is.
  have hstays : ∀ {d' : MailService} {o : ServiceReply}, d'.mail = d.mail →
      (∀ pubsubMessageId, o ≠ .enqueued pubsubMessageId true) →
      ServiceEffect d e o d' ∧ ∃ u, Follows env d' u ∧ t.jobClaims ⊆ u.jobClaims := by
    intro d' o hmail hsilent
    refine ⟨.moved e ?_ hsilent, t, h.of_mail_eq hmail, List.Subset.refl _⟩
    rw [hmail]
    exact .refl _
  cases e with
  | mail e =>
    simp only [MailService.step] at hs
    split at hs
    · cases hs
    · rename_i he
      obtain ⟨⟨w, reply⟩, hw, hpair⟩ := Option.map_eq_some_iff.mp hs
      obtain ⟨rfl, rfl⟩ := Prod.mk.inj hpair
      obtain ⟨u, hfollows, hclaims, hmove⟩ := h.mail (Bool.not_eq_true _ ▸ he) hw
      exact ⟨.moved _ hmove nofun, u, hfollows, hclaims⟩
  | deliver n pubsubMessageId historyId =>
    simp only [MailService.step] at hs
    split at hs
    · cases hs
    · obtain ⟨rfl, rfl⟩ := Prod.mk.inj (Option.some.inj hs)
      exact hstays rfl nofun
  | drop n =>
    obtain ⟨rfl, rfl⟩ := Prod.mk.inj (Option.some.inj hs)
    exact hstays rfl nofun
  | enqueue n id receivedAt =>
    simp only [MailService.step] at hs
    split at hs
    · cases hs
    · rename_i delivery hcurrent
      rw [MailService.enqueue] at hs
      split at hs
      · split at hs
        · obtain ⟨rfl, rfl⟩ := Prod.mk.inj (Option.some.inj hs)
          exact hstays rfl nofun
        · obtain ⟨rfl, rfl⟩ := Prod.mk.inj (Option.some.inj hs)
          exact hstays rfl nofun
      · split at hs
        · rename_i hfree
          split at hs
          · obtain ⟨rfl, rfl⟩ := Prod.mk.inj (Option.some.inj hs)
            exact hstays rfl nofun
          · rename_i hnew
            obtain ⟨rfl, rfl⟩ := Prod.mk.inj (Option.some.inj hs)
            obtain ⟨u, hfollows, hclaims⟩ := h.insert delivery.historyId receivedAt hfree hnew
            exact ⟨.inserted n id receivedAt hcurrent hfree hnew rfl, u,
              hfollows.of_mail_eq rfl, hclaims⟩
        · cases hs
      · split at hs
        · obtain ⟨rfl, rfl⟩ := Prod.mk.inj (Option.some.inj hs)
          exact hstays rfl (by rintro _ ⟨⟩)
        · obtain ⟨rfl, rfl⟩ := Prod.mk.inj (Option.some.inj hs)
          exact hstays rfl nofun

theorem follows_of_init (hinit : (mailService env).init d) : ∃ t, Follows env d t := by
  obtain ⟨t, ht, htracks⟩ := (simulation_mailTables env).init d.mail hinit.1
  refine ⟨t, htracks, MailTables.jobsInvariant_of_init ht, fun pubsubMessageId id hindex ↦ ?_⟩
  rw [hinit.2.1 pubsubMessageId] at hindex
  cases hindex

/-- The run lemma. -/
theorem follows_of_run (hinit : (mailService env).init d)
    (hrun : System.Run (mailService env) System.anyStep d tr d') : ∃ t, Follows env d' t := by
  refine hrun.invariant (I := fun d ↦ ∃ t, Follows env d t) (follows_of_init hinit) ?_
  rintro d e d' o ⟨t, ht⟩ - hs
  obtain ⟨-, u, hu, -⟩ := ht.step hs
  exact ⟨u, hu⟩

/-! ### Answers of `enqueue_notification` -/

/-- An event in which `enqueue_notification` returns `True` for the Pub/Sub id. -/
def addition (pubsubMessageId : String) (event : ServiceLabel × ServiceReply) : ℕ :=
  match event.2 with
  | .enqueued other true => if other = pubsubMessageId then 1 else 0
  | _ => 0

/-- How often `enqueue_notification` has returned `True` for the Pub/Sub id. -/
def additions (pubsubMessageId : String) (tr : List (ServiceLabel × ServiceReply)) : ℕ :=
  (tr.map (addition pubsubMessageId)).sum

/-- The jobs in the unique index with the Pub/Sub id. -/
def MailService.indexCount (pubsubMessageId : String) (d : MailService) : ℕ :=
  if (d.mail.jobs.pubsubIndex pubsubMessageId).isSome then 1 else 0

theorem addition_eq_zero {pubsubMessageId : String}
    (h : ∀ other, o ≠ .enqueued other true) : addition pubsubMessageId (e, o) = 0 := by
  rw [addition]
  split
  · rename_i other hreply
    exact absurd hreply (h other)
  · rfl

theorem ServiceEffect.indexCount (h : ServiceEffect d e o d') (pubsubMessageId : String) :
    d'.indexCount pubsubMessageId
      = d.indexCount pubsubMessageId + addition pubsubMessageId (e, o) := by
  cases h with
  | moved e move silent =>
    rw [MailService.indexCount, MailService.indexCount, move.index, addition_eq_zero silent,
      Nat.add_zero]
  | @inserted d' delivery n id receivedAt current free new jobs =>
    rw [MailService.indexCount, MailService.indexCount, jobs, addition]
    dsimp only
    by_cases hsame : pubsubMessageId = delivery.pubsubMessageId
    · rw [hsame, insertNotificationJob_index_self, new]
      simp
    · rw [insertNotificationJob_index_of_ne hsame, if_neg (Ne.symm hsame), Nat.add_zero]

theorem additions_eq_indexCount (hinit : (mailService env).init d)
    (hrun : System.Run (mailService env) System.anyStep d tr d') (pubsubMessageId : String) :
    additions pubsubMessageId tr = d'.indexCount pubsubMessageId := by
  have hzero : d.indexCount pubsubMessageId = 0 := by
    rw [MailService.indexCount, hinit.2.1 pubsubMessageId]
    rfl
  have hcount : d'.indexCount pubsubMessageId
      = d.indexCount pubsubMessageId + (tr.map (addition pubsubMessageId)).sum :=
    hrun.measure_eq (I := fun d ↦ ∃ t, Follows env d t) (follows_of_init hinit)
      fun d e d' o ⟨t, ht⟩ _ hs ↦ by
        obtain ⟨heffect, u, hu, -⟩ := ht.step hs
        exact ⟨⟨u, hu⟩, heffect.indexCount pubsubMessageId⟩
  rw [hcount, hzero, Nat.zero_add, additions]

/-! ### Rows -/

/-- A row after a step. -/
theorem ServiceEffect.row (h : ServiceEffect d e o d') {id : JobId} {job : GmailNotificationJob}
    (hjob : d.mail.jobs.jobs id = some job) :
    ∃ job', d'.mail.jobs.jobs id = some job' ∧ JobMove d.mail.jobs d'.mail.jobs job job' := by
  cases h with
  | moved e move => exact move.row id job hjob
  | inserted n id' receivedAt current free new jobs =>
    refine ⟨job, ?_, .stay⟩
    have hne : id ≠ id' := by
      rintro rfl
      rw [free] at hjob
      cases hjob
    rw [jobs, insertNotificationJob_of_ne hne, hjob]

/-- A row that appears is inserted by a call that returns `True`. -/
theorem ServiceEffect.created (h : ServiceEffect d e o d') {id : JobId}
    {job : GmailNotificationJob} (hnone : d.mail.jobs.jobs id = none)
    (hjob : d'.mail.jobs.jobs id = some job) :
    ∃ n receivedAt delivery, e = .enqueue n id receivedAt ∧ d.deliveries n = some delivery ∧
      delivery.pubsubMessageId = job.pubsubMessageId ∧
      o = .enqueued job.pubsubMessageId true := by
  cases h with
  | moved e move =>
    rw [move.absent id hnone] at hjob
    cases hjob
  | @inserted d' delivery n id' receivedAt current free new jobs =>
    rw [jobs] at hjob
    by_cases hsame : id = id'
    · subst hsame
      obtain ⟨job', hjob', hpubsub, -⟩ := insertNotificationJob_self d.mail.jobs id
        delivery.pubsubMessageId delivery.historyId receivedAt
      obtain rfl := Option.some.inj (hjob'.symm.trans hjob)
      exact ⟨n, receivedAt, delivery, rfl, current, hpubsub.symm, by rw [hpubsub]⟩
    · rw [insertNotificationJob_of_ne hsame, hnone] at hjob
      cases hjob

/-- A claim that has lost its job. -/
def LostJob (d : MailService) (claim : ClaimedNotificationJob) : Prop :=
  d.mail.jobs.heldJob claim = none

/-- A lost claim stays lost. -/
theorem LostJob.step {claim : ClaimedNotificationJob} (h : LostJob d claim)
    (ht : Follows env d t) (hgranted : claim ∈ t.jobClaims)
    (heffect : ServiceEffect d e o d') : LostJob d' claim := by
  obtain ⟨hdrawn, job, hjob, -⟩ := ht.jobs.claims claim hgranted
  rw [ht.tracks.store] at hdrawn hjob
  obtain ⟨job', hjob', hmove⟩ := heffect.row hjob
  refine heldJob_eq_none hjob' (hmove.not_heldBy hdrawn fun hheld ↦ ?_)
  rw [LostJob, heldJob_eq_some hjob hheld] at h
  cases h

/-- The run lemma. -/
theorem LostJob.run {claim : ClaimedNotificationJob} (h : LostJob d claim) (ht : Follows env d t)
    (hgranted : claim ∈ t.jobClaims)
    (hrun : System.Run (mailService env) System.anyStep d tr d') : LostJob d' claim := by
  have hI := hrun.invariant
    (I := fun d ↦ LostJob d claim ∧ ∃ t, Follows env d t ∧ claim ∈ t.jobClaims)
    ⟨h, t, ht, hgranted⟩ ?_
  · exact hI.1
  · rintro d e d' o ⟨hlost, t, ht, hgranted⟩ - hs
    obtain ⟨heffect, u, hu, hclaims⟩ := ht.step hs
    exact ⟨hlost.step ht hgranted heffect, u, hu, hclaims hgranted⟩

end

/-! ## No job is lost or finished twice -/

/-- What holds in every interleaving of deliveries, workers and watch renewals. -/
structure JobsNeverLost (env : MailEnv) : Prop where
  /-- A Pub/Sub id has at most one job. -/
  unique : ∀ {s d tr}, (mailService env).init s →
    System.Run (mailService env) System.anyStep s tr d →
    ∀ id id' job job', d.mail.jobs.jobs id = some job → d.mail.jobs.jobs id' = some job' →
      job.pubsubMessageId = job'.pubsubMessageId → id = id'
  /-- A job appears in a step in which its own delivery returns `True`. -/
  created : ∀ {s d d' tr e o}, (mailService env).init s →
    System.Run (mailService env) System.anyStep s tr d → d.step env e = some (d', o) →
    ∀ id job, d.mail.jobs.jobs id = none → d'.mail.jobs.jobs id = some job →
      ∃ n receivedAt delivery, e = .enqueue n id receivedAt ∧ d.deliveries n = some delivery ∧
        delivery.pubsubMessageId = job.pubsubMessageId ∧
        o = .enqueued job.pubsubMessageId true
  /-- `True` has been returned once for a Pub/Sub id that has a job, and for no other. -/
  answers : ∀ {s d tr}, (mailService env).init s →
    System.Run (mailService env) System.anyStep s tr d →
    ∀ pubsubMessageId, additions pubsubMessageId tr ≤ 1 ∧
      (additions pubsubMessageId tr = 1 ↔
        ∃ id job, d.mail.jobs.jobs id = some job ∧ job.pubsubMessageId = pubsubMessageId)
  /-- A job stays, its state moves along the edges, and a job that is over does not change. -/
  edges : ∀ {s d d' tr e o}, (mailService env).init s →
    System.Run (mailService env) System.anyStep s tr d → d.step env e = some (d', o) →
    ∀ id job, d.mail.jobs.jobs id = some job → ∃ job', d'.mail.jobs.jobs id = some job' ∧
      (job'.state = job.state ∨ JobState.Next job.state job'.state) ∧
      (job.state.Terminal → job' = job)
  /-- The lease and the processing time agree with the state. -/
  columns : ∀ {s d tr}, (mailService env).init s →
    System.Run (mailService env) System.anyStep s tr d →
    ∀ id job, d.mail.jobs.jobs id = some job →
      (job.state = .pending →
        job.leaseToken = none ∧ job.leaseExpiresAt = none ∧ job.processedAt = none) ∧
      (job.state = .processing →
        job.leaseToken.isSome = true ∧ job.leaseExpiresAt.isSome = true) ∧
      (job.state.Terminal → job.processedAt.isSome = true)
  /-- A worker whose claim has once lost its job changes nothing by it, then or later. -/
  fenced : ∀ {s d d' tr tr'}, (mailService env).init s →
    System.Run (mailService env) System.anyStep s tr d →
    ∀ n worker, d.mail.workers n = some worker → d.mail.jobs.heldJob worker.claim = none →
      System.Run (mailService env) System.anyStep d tr' d' →
      ChangesNothing env.settings d'.mail.jobs worker.claim
  /-- When a job succeeds, the cursor has reached it. -/
  succeeded : ∀ {s d d' tr e o}, (mailService env).init s →
    System.Run (mailService env) System.anyStep s tr d → d.step env e = some (d', o) →
    ∀ id job job', d.mail.jobs.jobs id = some job → d'.mail.jobs.jobs id = some job' →
      job.state ≠ .succeeded → job'.state = .succeeded → job'.historyId ≤ d'.mail.jobs.cursor
  /-- A job is buried only while its mailbox is missing or with an operator. -/
  buried : ∀ {s d d' tr e o}, (mailService env).init s →
    System.Run (mailService env) System.anyStep s tr d → d.step env e = some (d', o) →
    ∀ id job job', d.mail.jobs.jobs id = some job → d'.mail.jobs.jobs id = some job' →
      job.state ≠ .deadLetter → job'.state = .deadLetter →
      ∀ state, d.mail.jobs.mailbox = some state → state.resyncState = .manualRequired

/-- **Notification jobs are neither lost nor finished twice.** -/
theorem jobsNeverLost (env : MailEnv) : JobsNeverLost env where
  unique hinit hrun id id' job job' hjob hjob' hpubsub := by
    obtain ⟨t, ht⟩ := follows_of_run hinit hrun
    rw [← ht.tracks.store] at hjob hjob'
    -- Both rows are the one that the index has for the message.
    have hindex := (ht.jobs.rows id job hjob).2
    have hindex' := (ht.jobs.rows id' job' hjob').2
    rw [hpubsub, hindex'] at hindex
    exact (Option.some.inj hindex).symm
  created hinit hrun hs id job hnone hjob := by
    obtain ⟨t, ht⟩ := follows_of_run hinit hrun
    exact (ht.step hs).1.created hnone hjob
  answers {s d tr} hinit hrun pubsubMessageId := by
    obtain ⟨t, ht⟩ := follows_of_run hinit hrun
    rw [additions_eq_indexCount hinit hrun, MailService.indexCount]
    cases hindex : d.mail.jobs.pubsubIndex pubsubMessageId with
    | none =>
      refine ⟨Nat.zero_le 1, iff_of_false Nat.zero_ne_one ?_⟩
      rintro ⟨id, job, hjob, rfl⟩
      rw [← ht.tracks.store] at hjob hindex
      rw [(ht.jobs.rows id job hjob).2] at hindex
      cases hindex
    | some id => exact ⟨le_rfl, iff_of_true rfl ⟨id, ht.indexed pubsubMessageId id hindex⟩⟩
  edges hinit hrun hs id job hjob := by
    obtain ⟨t, ht⟩ := follows_of_run hinit hrun
    obtain ⟨job', hjob', hmove⟩ := (ht.step hs).1.row hjob
    exact ⟨job', hjob', hmove.state_eq_or_next, hmove.eq_of_terminal⟩
  columns hinit hrun id job hjob := by
    obtain ⟨t, ht⟩ := follows_of_run hinit hrun
    rw [← ht.tracks.store] at hjob
    have hrow := (ht.jobs.rows id job hjob).1
    refine ⟨fun hp ↦ ?_, hrow.processing, hrow.processedAt.mpr⟩
    have hunprocessed : job.processedAt = none := by
      rw [← Option.not_isSome_iff_eq_none, hrow.processedAt, hp]
      exact JobState.not_terminal_pending
    exact ⟨(hrow.pending hp).1, (hrow.pending hp).2, hunprocessed⟩
  fenced hinit hrun n worker hworker hlost hrun' := by
    obtain ⟨t, ht⟩ := follows_of_run hinit hrun
    have hgranted := ht.tracks.claims n worker hworker
    exact changesNothing_of_heldJob (LostJob.run hlost ht hgranted hrun')
  succeeded hinit hrun hs id job job' hjob hjob' hbefore hafter := by
    obtain ⟨t, ht⟩ := follows_of_run hinit hrun
    -- Rows are kept, so the row after the step is the one that the move gives.
    obtain ⟨job₁, hjob₁, hmove⟩ := (ht.step hs).1.row hjob
    obtain rfl := Option.some.inj (hjob₁.symm.trans hjob')
    rw [hmove.immutable.2]
    exact hmove.succeeded hbefore hafter
  buried hinit hrun hs id job job' hjob hjob' hbefore hafter state hmailbox := by
    obtain ⟨t, ht⟩ := follows_of_run hinit hrun
    obtain ⟨job₁, hjob₁, hmove⟩ := (ht.step hs).1.row hjob
    obtain rfl := Option.some.inj (hjob₁.symm.trans hjob')
    rcases hmove.buried hbefore hafter with hnone | hmanual
    · rw [hmailbox] at hnone
      cases hnone
    · rwa [JobStore.recovery_of_mailbox hmailbox] at hmanual

end Onebox.Notifications
