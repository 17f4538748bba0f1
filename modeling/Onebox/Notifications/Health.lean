import Onebox.Notifications.PushRequests

/-!
# Health and readiness

`automation_status`, the health report made of it for the operator, and the readiness probe. The
status is read by three queries, between which the service goes on. What a healthy report vouches
for, and which alarms cannot go away by themselves.
-/

namespace Onebox.Notifications

open Python Transition

/-! ## Status -/

/-- The answer of `automation_status`, apart from the name of the mailbox. -/
structure AutomationStatus where
  historyCursor : Option ℕ
  watchExpiresAt : Option Time
  watchValid : Bool
  resyncRequired : Bool
  resyncState : ResyncState
  resyncGeneration : ℕ
  resyncMessageCount : ℕ
  resyncNextAttemptAt : Option Time
  lastErrorCode : Option String
  watchLastErrorCode : Option String
  watchLeaseExpiresAt : Option Time
  workerHeartbeatAt : Option Time
  queueDepth : ℕ
  failureCount : ℕ

/-- `ids` are the rows of the job table. -/
def JobStore.Lists (s : JobStore) (ids : List JobId) : Prop :=
  ids.Nodup ∧ ∀ id, id ∈ ids ↔ (s.jobs id).isSome = true

/-- `select(func.count())` over the rows of the job table. -/
def JobStore.count (s : JobStore) (ids : List JobId) (p : JobState → Bool) : ℕ :=
  ids.countP fun id ↦ (s.jobs id).any fun job ↦ p job.state

/-- `state in ("pending", "processing")`. -/
def JobState.queued : JobState → Bool
  | .pending | .processing => true
  | .succeeded | .deadLetter => false

/-- `watch_valid`. -/
def GmailMailboxState.watchValid (state : GmailMailboxState) (now : Time) : Bool :=
  state.watchHistoryId.isSome && state.watchExpiresAt.any (now < ·)

/-- The tables as the three queries see them, each with the rows it goes through. -/
structure StatusReads where
  mailbox : JobStore
  queue : JobStore
  queueRows : List JobId
  failures : JobStore
  failureRows : List JobId

/-- `automation_status`. -/
def automationStatus (reads : StatusReads) (now : Time) : Option AutomationStatus :=
  reads.mailbox.mailbox.map fun state ↦
    { historyCursor := state.historyCursor
      watchExpiresAt := state.watchExpiresAt
      watchValid := state.watchValid now
      resyncRequired := state.resyncRequired
      resyncState := state.resyncState
      resyncGeneration := state.resyncGeneration
      resyncMessageCount := state.resyncMessageCount
      resyncNextAttemptAt := state.resyncNextAttemptAt
      lastErrorCode := state.lastErrorCode
      watchLastErrorCode := state.watchLastErrorCode
      watchLeaseExpiresAt := state.watchLeaseExpiresAt
      workerHeartbeatAt := state.workerHeartbeatAt
      queueDepth := reads.queue.count reads.queueRows JobState.queued
      failureCount := reads.failures.count reads.failureRows (· = .deadLetter) }

/-! ## Reports -/

/-- `GlobalGmailHealthResponse`. -/
structure HealthResponse where
  status : String
  detail : String
  gmailServiceStatus : String
  deriving DecidableEq

/-- `(now - heartbeat).total_seconds() <= settings.GMAIL_WORKER_LIVENESS_SECONDS`. -/
def heartbeatFresh (livenessSeconds : ℕ) (now : Time) (heartbeat : Option Time) : Bool :=
  heartbeat.any fun at' ↦ now ≤ at' + seconds livenessSeconds

/-- The `healthy` of `health_check`. -/
def AutomationStatus.healthy (livenessSeconds : ℕ) (now : Time) (status : AutomationStatus) :
    Bool :=
  status.watchValid && status.watchLastErrorCode.isNone &&
    heartbeatFresh livenessSeconds now status.workerHeartbeatAt &&
    decide (status.resyncState = .idle) && status.failureCount == 0

/-- The `detail` of `health_check`. -/
def AutomationStatus.detail (livenessSeconds : ℕ) (now : Time) (status : AutomationStatus) :
    String :=
  if status.healthy livenessSeconds now then
    "Durable Gmail automation watch and worker are healthy."
  else if status.watchValid = false then "Gmail watch is missing or expired."
  else if status.watchLastErrorCode.isSome = true then "Gmail watch renewal is failing."
  else if heartbeatFresh livenessSeconds now status.workerHeartbeatAt = false then
    "Gmail automation worker heartbeat is stale."
  else if status.resyncState = .manualRequired then
    "Gmail recovery requires operator intervention."
  else if status.resyncState ≠ .idle then "Gmail recovery is in progress or deferred."
  else "Gmail notification queue has terminal failures."

/-- `health_check`. -/
def healthCheck (livenessSeconds : ℕ) (now : Time) : Option AutomationStatus → HealthResponse
  | none => ⟨"unavailable", "No durable Gmail mailbox state exists yet.", "unavailable"⟩
  | some status =>
    if status.healthy livenessSeconds now then
      ⟨"healthy", status.detail livenessSeconds now, "ready"⟩
    else ⟨"degraded", status.detail livenessSeconds now, "degraded"⟩

/-- What the probe finds apart from the status. -/
structure ProbeEnv where
  schemaReady : Bool
  requiresRedis : Bool
  /-- The answer of `ping`, or none where it raises `RedisAdapterError`. -/
  ping : Option Bool
  runsAutomationWorker : Bool

/-- The last part of `readiness_status`. -/
def automationReadiness (livenessSeconds : ℕ) (now : Time) :
    Option AutomationStatus → Bool × String
  | none => (false, "automation_watch_unavailable")
  | some status =>
    if status.watchValid = false ∨ status.watchLastErrorCode.isSome = true then
      (false, "automation_watch_unavailable")
    else if heartbeatFresh livenessSeconds now status.workerHeartbeatAt = false then
      (false, "automation_worker_stale")
    else if status.resyncState ≠ .idle ∨ status.failureCount ≠ 0 then
      (false, "automation_recovery_required")
    else (true, "ready")

/-- `readiness_status`; `none` is a status that cannot be read. -/
def readinessStatus (probe : ProbeEnv) (livenessSeconds : ℕ) (now : Time)
    (status : Option (Option AutomationStatus)) : Bool × String :=
  if probe.schemaReady = false then (false, "database_or_schema_unavailable")
  else if probe.requiresRedis = true ∧ probe.ping ≠ some true then (false, "redis_unavailable")
  else if probe.runsAutomationWorker = false then (true, "ready")
  else
    match status with
    | none => (false, "database_or_schema_unavailable")
    | some status => automationReadiness livenessSeconds now status

/-- The reason of the probe that goes with a detail of the report. -/
def reasonOf (response : HealthResponse) : String :=
  if response.detail = "Durable Gmail automation watch and worker are healthy." then "ready"
  else if response.detail = "Gmail automation worker heartbeat is stale." then
    "automation_worker_stale"
  else if response.detail = "No durable Gmail mailbox state exists yet." ∨
      response.detail = "Gmail watch is missing or expired." ∨
      response.detail = "Gmail watch renewal is failing." then "automation_watch_unavailable"
  else "automation_recovery_required"

section

variable {livenessSeconds : ℕ} {now : Time} {status : AutomationStatus}

theorem healthy_eq_true_iff : status.healthy livenessSeconds now = true ↔
    status.watchValid = true ∧ status.watchLastErrorCode = none ∧
      heartbeatFresh livenessSeconds now status.workerHeartbeatAt = true ∧
      status.resyncState = .idle ∧ status.failureCount = 0 := by
  simp only [AutomationStatus.healthy, Bool.and_eq_true, Option.isNone_iff_eq_none,
    decide_eq_true_eq, beq_iff_eq, and_assoc]

theorem healthCheck_healthy_iff {status : Option AutomationStatus} :
    (healthCheck livenessSeconds now status).status = "healthy" ↔
      ∃ s, status = some s ∧ s.healthy livenessSeconds now = true := by
  have hunavailable : "unavailable" ≠ "healthy" := by decide
  have hdegraded : "degraded" ≠ "healthy" := by decide
  rcases status with _ | s
  · constructor
    · intro h
      exact absurd h hunavailable
    · rintro ⟨s, ⟨⟩, -⟩
  · rw [healthCheck]
    by_cases hs : s.healthy livenessSeconds now = true
    · rw [if_pos hs]
      exact iff_of_true rfl ⟨s, rfl, hs⟩
    · rw [if_neg hs]
      refine iff_of_false hdegraded ?_
      rintro ⟨s', hs', h⟩
      obtain rfl := Option.some.inj hs'
      exact hs h

/-- **The probe and the report agree on every status.** -/
theorem automationReadiness_eq (status : Option AutomationStatus) :
    automationReadiness livenessSeconds now status =
      (decide ((healthCheck livenessSeconds now status).status = "healthy"),
        reasonOf (healthCheck livenessSeconds now status)) := by
  rcases status with _ | s
  · rfl
  · rw [healthCheck, AutomationStatus.detail, automationReadiness]
    by_cases hhealthy : s.healthy livenessSeconds now = true
    · obtain ⟨hvalid, herror, hfresh, hidle, hfailures⟩ := healthy_eq_true_iff.mp hhealthy
      rw [if_pos hhealthy, if_neg (by rw [hvalid, herror]; decide), if_neg (by rw [hfresh]; decide),
        if_neg (not_or.mpr ⟨not_not.mpr hidle, not_not.mpr hfailures⟩), if_pos hhealthy]
      rfl
    · rw [if_neg hhealthy, if_neg hhealthy]
      by_cases hvalid : s.watchValid = false
      · rw [if_pos (Or.inl hvalid), if_pos hvalid]
        rfl
      · rw [if_neg hvalid]
        by_cases herror : s.watchLastErrorCode.isSome = true
        · rw [if_pos (Or.inr herror), if_pos herror]
          rfl
        · rw [if_neg (not_or.mpr ⟨hvalid, herror⟩), if_neg herror]
          by_cases hfresh : heartbeatFresh livenessSeconds now s.workerHeartbeatAt = false
          · rw [if_pos hfresh, if_pos hfresh]
            rfl
          · rw [if_neg hfresh, if_neg hfresh]
            have hstuck : s.resyncState ≠ .idle ∨ s.failureCount ≠ 0 := by
              by_contra hnot
              rw [not_or, not_not, not_not] at hnot
              refine hhealthy (healthy_eq_true_iff.mpr ⟨?_, ?_, ?_, hnot⟩)
              · exact Bool.not_eq_false _ ▸ hvalid
              · exact Option.not_isSome_iff_eq_none.mp herror
              · exact Bool.not_eq_false _ ▸ hfresh
            rw [if_pos hstuck]
            by_cases hmanual : s.resyncState = .manualRequired
            · rw [if_pos hmanual]
              rfl
            · rw [if_neg hmanual]
              by_cases hidle : s.resyncState = .idle
              · rw [if_neg (not_not.mpr hidle)]
                rfl
              · rw [if_pos hidle]
                rfl

/-! ## Counting -/

variable {s : JobStore} {ids : List JobId} {p : JobState → Bool}

theorem JobStore.Lists.count_eq_zero_iff (h : s.Lists ids) :
    s.count ids p = 0 ↔ ∀ id job, s.jobs id = some job → p job.state = false := by
  rw [JobStore.count, List.countP_eq_zero]
  constructor
  · intro hnone id job hjob
    have hid : id ∈ ids := (h.2 id).mpr (by rw [hjob]; rfl)
    have hany := hnone id hid
    rw [hjob] at hany
    exact Bool.not_eq_true _ ▸ hany
  · intro hnone id _ hany
    cases hjob : s.jobs id with
    | none =>
      rw [hjob] at hany
      cases hany
    | some job =>
      rw [hjob, Option.any_some, hnone id job hjob] at hany
      cases hany

end

/-! ## Runs -/

section

variable {env : MailEnv} {d d' : MailService} {t : MailTables} {e : ServiceLabel}
  {o : ServiceReply} {tr : List (ServiceLabel × ServiceReply)} {id : JobId}

theorem recovery_insertNotificationJob (s : JobStore) (id : JobId) (pubsubMessageId : String)
    (historyId : ℕ) (receivedAt : Time) :
    (insertNotificationJob s id pubsubMessageId historyId receivedAt).recovery = s.recovery := rfl

/-- A mailbox that is handed to an operator stays with it. -/
theorem Follows.manual (h : Follows env d t) (hs : d.step env e = some (d', o))
    (hmanual : d.mail.jobs.recovery.state = .manualRequired) :
    d'.mail.jobs.recovery.state = .manualRequired := by
  cases e with
  | mail e =>
    rw [MailService.step] at hs
    split at hs
    · cases hs
    · obtain ⟨⟨w, reply⟩, hw, hpair⟩ := Option.map_eq_some_iff.mp hs
      obtain ⟨rfl, -⟩ := Prod.mk.inj hpair
      have hstore := h.tracks.store
      rw [← hstore] at hmanual
      rcases h.tracks.step hw with hstay | ⟨call, u, reply, -, -, hcall, htracks⟩
      · rwa [← hstay.store]
      · rw [← htracks.store]
        exact (MailTables.keeps_of_step hcall).manual hmanual
  | deliver n pubsubMessageId historyId =>
    rw [MailService.step] at hs
    split at hs
    · cases hs
    · obtain ⟨rfl, -⟩ := Prod.mk.inj (Option.some.inj hs)
      exact hmanual
  | enqueue n id receivedAt =>
    obtain ⟨delivery, -, heffect⟩ := enqueueEffect_of_step hs
    cases heffect with
    | added free new => exact hmanual
    | _ => exact hmanual
  | drop n =>
    obtain ⟨rfl, -⟩ := Prod.mk.inj (Option.some.inj hs)
    exact hmanual

/-- What does not go away: a buried job, and an operator who is required. -/
structure Alarmed (d d' : MailService) : Prop where
  buried : ∀ id job, d.mail.jobs.jobs id = some job → job.state = .deadLetter →
    d'.mail.jobs.jobs id = some job
  manual : d.mail.jobs.recovery.state = .manualRequired →
    d'.mail.jobs.recovery.state = .manualRequired

theorem Alarmed.refl (d : MailService) : Alarmed d d := ⟨fun _ _ hjob _ ↦ hjob, id⟩

theorem Alarmed.trans {d'' : MailService} (h : Alarmed d d') (h' : Alarmed d' d'') :
    Alarmed d d'' :=
  ⟨fun id job hjob hdead ↦ h'.buried id job (h.buried id job hjob hdead) hdead,
    fun hmanual ↦ h'.manual (h.manual hmanual)⟩

theorem Follows.alarmed (h : Follows env d t) (hs : d.step env e = some (d', o)) :
    Alarmed d d' := by
  refine ⟨fun id job hjob hdead ↦ ?_, h.manual hs⟩
  obtain ⟨job', hjob', hmove⟩ := (h.step hs).1.row hjob
  rw [hjob', hmove.eq_of_terminal (Or.inr hdead)]

/-- The run lemma. -/
theorem alarmed_of_run (ht : Follows env d t)
    (hrun : System.Run (mailService env) System.anyStep d tr d') : Alarmed d d' := by
  refine (hrun.relates (I := fun d ↦ ∃ t, Follows env d t) (R := Alarmed) .refl
    (fun _ _ _ ↦ Alarmed.trans) ⟨t, ht⟩ ?_).2
  rintro d e d' o ⟨t, ht⟩ - hs
  obtain ⟨-, u, hu, -⟩ := ht.step hs
  exact ⟨⟨u, hu⟩, ht.alarmed hs⟩

theorem follows_after (ht : Follows env d t)
    (hrun : System.Run (mailService env) System.anyStep d tr d') : ∃ u, Follows env d' u := by
  refine hrun.invariant (I := fun d ↦ ∃ t, Follows env d t) ⟨t, ht⟩ ?_
  rintro d e d' o ⟨t, ht⟩ - hs
  obtain ⟨-, u, hu, -⟩ := ht.step hs
  exact ⟨u, hu⟩

/-! ### The rows can be listed -/

theorem ServiceEffect.exists_lists (h : ServiceEffect d e o d') {ids : List JobId}
    (hids : d.mail.jobs.Lists ids) : ∃ ids', d'.mail.jobs.Lists ids' := by
  cases h with
  | moved e move silent =>
    refine ⟨ids, hids.1, fun id ↦ ?_⟩
    rw [hids.2 id]
    cases hjob : d.mail.jobs.jobs id with
    | none => rw [move.absent id hjob]
    | some job =>
      obtain ⟨job', hjob', -⟩ := move.row id job hjob
      rw [hjob']
      rfl
  | @inserted d' delivery n new receivedAt current free fresh jobs =>
    have hnew : new ∉ ids := fun hmem ↦ by
      have hsome := (hids.2 new).mp hmem
      rw [free] at hsome
      cases hsome
    refine ⟨new :: ids, List.nodup_cons.mpr ⟨hnew, hids.1⟩, fun id ↦ ?_⟩
    rw [List.mem_cons, hids.2 id, jobs]
    by_cases hsame : id = new
    · obtain ⟨job, hjob, -⟩ := insertNotificationJob_self d.mail.jobs new delivery.pubsubMessageId
        delivery.historyId receivedAt
      rw [hsame, hjob]
      exact iff_of_true (Or.inl rfl) rfl
    · rw [insertNotificationJob_of_ne hsame, or_iff_right hsame]

theorem exists_lists_of_run (hinit : (mailService env).init d)
    (hrun : System.Run (mailService env) System.anyStep d tr d') :
    ∃ ids, d'.mail.jobs.Lists ids := by
  have hempty : d.mail.jobs.Lists [] := by
    refine ⟨List.nodup_nil, fun id ↦ ?_⟩
    rw [hinit.1.2.2.1 id]
    exact iff_of_false List.not_mem_nil Bool.false_ne_true
  refine (hrun.invariant (I := fun d ↦ (∃ t, Follows env d t) ∧ ∃ ids, d.mail.jobs.Lists ids)
    ⟨follows_of_init hinit, [], hempty⟩ ?_).2
  rintro d e d' o ⟨⟨t, ht⟩, ids, hids⟩ - hs
  obtain ⟨heffect, u, hu, -⟩ := ht.step hs
  exact ⟨⟨u, hu⟩, heffect.exists_lists hids⟩

end

/-! ## Reports over runs -/

/-- The status is read in a run: the mailbox first, then the two counts. -/
structure ReadInRun (env : MailEnv) (d : MailService) (reads : StatusReads) : Prop where
  exists_run : ∃ d₁ d₂ d₃ tr₁ tr₂ tr₃,
    System.Run (mailService env) System.anyStep d tr₁ d₁ ∧
    System.Run (mailService env) System.anyStep d₁ tr₂ d₂ ∧
    System.Run (mailService env) System.anyStep d₂ tr₃ d₃ ∧
    reads.mailbox = d₁.mail.jobs ∧ reads.queue = d₂.mail.jobs ∧ reads.failures = d₃.mail.jobs
  queueRows : reads.queue.Lists reads.queueRows
  failureRows : reads.failures.Lists reads.failureRows

/-- The report is healthy. -/
def ReportsHealthy (livenessSeconds : ℕ) (reads : StatusReads) (now now' : Time) : Prop :=
  (healthCheck livenessSeconds now' (automationStatus reads now)).status = "healthy"

section

variable {env : MailEnv} {d : MailService} {t : MailTables} {reads : StatusReads}
  {livenessSeconds : ℕ} {now now' : Time}

/-- What a healthy report says about the columns that are read. -/
theorem ReportsHealthy.columns (h : ReportsHealthy livenessSeconds reads now now') :
    ∃ state, reads.mailbox.mailbox = some state ∧ state.watchValid now = true ∧
      state.watchLastErrorCode = none ∧
      heartbeatFresh livenessSeconds now' state.workerHeartbeatAt = true ∧
      state.resyncState = .idle ∧
      reads.failures.count reads.failureRows (· = .deadLetter) = 0 := by
  obtain ⟨status, hstatus, hhealthy⟩ := healthCheck_healthy_iff.mp h
  obtain ⟨state, hstate, rfl⟩ := Option.map_eq_some_iff.mp hstatus
  obtain ⟨hvalid, herror, hfresh, hidle, hfailures⟩ := healthy_eq_true_iff.mp hhealthy
  exact ⟨state, hstate, hvalid, herror, hfresh, hidle, hfailures⟩

/-- No job is buried where a healthy report has looked, or before. -/
theorem ReportsHealthy.not_buried (h : ReportsHealthy livenessSeconds reads now now')
    (ht : Follows env d t) (hread : ReadInRun env d reads) {id : JobId}
    {job : GmailNotificationJob} (hjob : d.mail.jobs.jobs id = some job ∨
      reads.queue.jobs id = some job ∨ reads.failures.jobs id = some job) :
    job.state ≠ .deadLetter := by
  intro hdead
  obtain ⟨-, -, -, -, -, -, hfailures⟩ := h.columns
  obtain ⟨d₁, d₂, d₃, tr₁, tr₂, tr₃, hrun₁, hrun₂, hrun₃, -, hqueue, hlast⟩ := hread.exists_run
  obtain ⟨u₂, hu₂⟩ := follows_after ht (hrun₁.append hrun₂)
  have hfinal : reads.failures.jobs id = some job := by
    rw [hqueue, hlast] at hjob
    rw [hlast]
    rcases hjob with hjob | hjob | hjob
    · exact (alarmed_of_run ht ((hrun₁.append hrun₂).append hrun₃)).buried id job hjob hdead
    · exact (alarmed_of_run hu₂ hrun₃).buried id job hjob hdead
    · exact hjob
  have hnone := hread.failureRows.count_eq_zero_iff.mp hfailures id job hfinal
  exact of_decide_eq_false hnone hdead

/-- No operator is required when a healthy report begins to look. -/
theorem ReportsHealthy.not_manual (h : ReportsHealthy livenessSeconds reads now now')
    (ht : Follows env d t) (hread : ReadInRun env d reads) :
    d.mail.jobs.recovery.state ≠ .manualRequired := by
  intro hmanual
  obtain ⟨state, hstate, -, -, -, hidle, -⟩ := h.columns
  obtain ⟨d₁, d₂, d₃, tr₁, tr₂, tr₃, hrun₁, -, -, hmailbox, -⟩ := hread.exists_run
  have hlater := (alarmed_of_run ht hrun₁).manual hmanual
  rw [← hmailbox, JobStore.recovery_of_mailbox hstate] at hlater
  rw [GmailMailboxState.recovery] at hlater
  rw [hidle] at hlater
  cases hlater

end

/-- What the reports tell, in every interleaving of deliveries, workers and watch renewals. -/
structure HealthTells (env : MailEnv) : Prop where
  /-- The rows of the job table can be gone through. -/
  listed : ∀ {s d tr}, (mailService env).init s →
    System.Run (mailService env) System.anyStep s tr d → ∃ ids, d.mail.jobs.Lists ids
  /-- A healthy report vouches for the watch, the worker and the mailbox, and for every job: none
  is buried, and if the queue is empty all are done. -/
  vouches : ∀ {s d tr}, (mailService env).init s →
    System.Run (mailService env) System.anyStep s tr d →
    ∀ livenessSeconds reads now now', ReadInRun env d reads →
      ReportsHealthy livenessSeconds reads now now' →
      (∃ state watchExpiresAt heartbeat, reads.mailbox.mailbox = some state ∧
        state.watchExpiresAt = some watchExpiresAt ∧ now < watchExpiresAt ∧
        state.watchLastErrorCode = none ∧ state.workerHeartbeatAt = some heartbeat ∧
        now' ≤ heartbeat + seconds livenessSeconds ∧ state.resyncState = .idle) ∧
      (∀ id job, reads.failures.jobs id = some job → job.state ≠ .deadLetter) ∧
      (reads.queue.count reads.queueRows JobState.queued = 0 →
        ∀ id job, reads.queue.jobs id = some job → job.state = .succeeded)
  /-- After a job has been buried, no report is healthy and no probe is ready. -/
  buried : ∀ {s d tr}, (mailService env).init s →
    System.Run (mailService env) System.anyStep s tr d →
    ∀ id job, d.mail.jobs.jobs id = some job → job.state = .deadLetter →
    ∀ livenessSeconds reads now now', ReadInRun env d reads →
      ¬ReportsHealthy livenessSeconds reads now now' ∧
        (automationReadiness livenessSeconds now' (automationStatus reads now)).1 = false
  /-- After a mailbox has been handed to an operator, no report is healthy and no probe is ready. -/
  manual : ∀ {s d tr}, (mailService env).init s →
    System.Run (mailService env) System.anyStep s tr d →
    d.mail.jobs.recovery.state = .manualRequired →
    ∀ livenessSeconds reads now now', ReadInRun env d reads →
      ¬ReportsHealthy livenessSeconds reads now now' ∧
        (automationReadiness livenessSeconds now' (automationStatus reads now)).1 = false
  /-- The probe and the report agree, also in their reasons. -/
  agree : ∀ probe livenessSeconds now status, probe.schemaReady = true →
    (probe.requiresRedis = true → probe.ping = some true) → probe.runsAutomationWorker = true →
    readinessStatus probe livenessSeconds now (some status) =
      (decide ((healthCheck livenessSeconds now status).status = "healthy"),
        reasonOf (healthCheck livenessSeconds now status))

end Onebox.Notifications
