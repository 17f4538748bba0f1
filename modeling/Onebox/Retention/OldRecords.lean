import Onebox.Retention.Sweep

/-!
# Old records are deleted, and nothing else

A cleanup deletes a record by its state and its age. So it never reaches an action that is still
open, nor one that it has just expired itself; and since every record that is over says since when,
each becomes old enough in the end.
-/

namespace Onebox.Retention

open Python Transition Tables PendingActions Notifications

/-! ## What a cleanup is for -/

/-- The record was processed more than `n` days ago. -/
def Old (n : ℕ) (current : Time) (processedAt : Option Time) : Prop :=
  ∃ time, processedAt = some time ∧ time + days n < current

/-- So many keys have the property. -/
def Counts {ι : Type} (p : ι → Prop) (n : ℕ) : Prop :=
  ∃ keys : List ι, keys.Nodup ∧ (∀ i, i ∈ keys ↔ p i) ∧ keys.length = n

/-- **What a cleanup does** to the database `d`, with the rows `locked` by others. -/
structure CleanedUp (settings : RetentionSettings) (locked : ActionId → Bool) (current : Time)
    (d d' : Database) (result : RetentionCleanupResult) : Prop where
  /-- A stale action is marked and audited once; it stays. -/
  expired : ∀ id row, d.actions.rows id = some row → Stale locked current row →
    d'.actions.rows id = some { row with status := .expired, processedAt := some current } ∧
      d'.actions.trail id = d.actions.trail id ++ [sweptEvent id]
  /-- An action that has been resolved for long enough goes, with its audit events. -/
  deleted : ∀ id row, d.actions.rows id = some row → row.status.Resolved →
    Old settings.pendingActionRetentionDays current row.processedAt →
    d'.actions.rows id = none ∧ d'.actions.trail id = []
  /-- All other actions, and their audit events, are as they were. -/
  kept : ∀ id row, d.actions.rows id = some row → ¬Stale locked current row →
    ¬(row.status.Resolved ∧ Old settings.pendingActionRetentionDays current row.processedAt) →
    d'.actions.rows id = some row ∧ d'.actions.trail id = d.actions.trail id
  absent : ∀ id, d.actions.rows id = none →
    d'.actions.rows id = none ∧ d'.actions.trail id = d.actions.trail id
  /-- No action that is pending, processing or awaiting reconciliation is deleted. -/
  unresolved : ∀ id row, d.actions.rows id = some row → ¬row.status.Resolved →
    (d'.actions.rows id).isSome = true
  jobs : ∀ id job, d'.mail.store.jobs id = some job ↔ d.mail.store.jobs id = some job ∧
    ¬(job.state.Terminal ∧ Old settings.gmailJobRetentionDays current job.processedAt)
  /-- The unique index forgets exactly the jobs that are deleted. -/
  index : ∀ pubsubMessageId id, d'.mail.store.pubsubIndex pubsubMessageId = some id ↔
    d.mail.store.pubsubIndex pubsubMessageId = some id ∧
      ¬∃ job, d.mail.store.jobs id = some job ∧ job.state.Terminal ∧
        Old settings.gmailJobRetentionDays current job.processedAt
  triage : ∀ record, record ∈ d'.triage.table.records ↔ record ∈ d.triage.table.records ∧
    ¬(record.work.state.terminal = true ∧
      Old settings.gmailTriageRetentionDays current record.work.processedAt)
  order : d'.triage.table.records.Sublist d.triage.table.records
  /-- Nothing else changes: not the mailbox, the claims, the tokens or the calls in progress. -/
  mail : d'.mail = d.mail.setStore { d.mail.store with
    jobs := d'.mail.store.jobs, pubsubIndex := d'.mail.store.pubsubIndex }
  calls : d'.triage = { d.triage with
    table := { d.triage.table with records := d'.triage.table.records } }
  expiredActions : Counts (fun id ↦ ∃ row, d.actions.rows id = some row ∧ Stale locked current row)
    result.expiredActions
  pendingActions : Counts (fun id ↦ ∃ row, d.actions.rows id = some row ∧ row.status.Resolved ∧
    Old settings.pendingActionRetentionDays current row.processedAt) result.pendingActions
  notificationJobs : Counts (fun id ↦ ∃ job, d.mail.store.jobs id = some job ∧
    job.state.Terminal ∧ Old settings.gmailJobRetentionDays current job.processedAt)
    result.notificationJobs
  triageWork : d'.triage.table.records.length + result.triageWork = d.triage.table.records.length

/-! ## The `where` clauses -/

theorem deletable_iff {σ : Type} [DecidableEq σ] {states : List σ} {n : ℕ} {current : Time}
    {state : σ} {processedAt : Option Time} :
    deletable states (current - days n) state processedAt = true ↔
      state ∈ states ∧ Old n current processedAt := by
  rw [deletable, Bool.and_eq_true, decide_eq_true_iff, any_eq_true_iff]
  simp only [Old, decide_eq_true_iff, Nat.lt_sub_iff_add_lt]

theorem mem_resolvedActionStatuses {status : ActionStatus} :
    status ∈ resolvedActionStatuses ↔ status.Resolved := by
  constructor
  · intro h
    cases status with
    | succeeded => exact .succeeded
    | failed => exact .failed
    | rejected => exact .rejected
    | expired => exact .expired
    | pending | processing | reconciliationRequired => exact absurd h (by decide)
  · rintro ⟨⟩ <;> decide

theorem mem_terminalJobStates {state : JobState} :
    state ∈ terminalJobStates ↔ state.Terminal := by
  simp [terminalJobStates, JobState.Terminal]

theorem deletableAction_iff {n : ℕ} {current : Time} {row : PendingAction} :
    deletableAction (current - days n) row = true ↔
      row.status.Resolved ∧ Old n current row.processedAt := by
  rw [deletableAction, deletable_iff, mem_resolvedActionStatuses]

theorem deletableJob_iff {n : ℕ} {current : Time} {job : GmailNotificationJob} :
    deletableJob (current - days n) job = true ↔
      job.state.Terminal ∧ Old n current job.processedAt := by
  rw [deletableJob, deletable_iff, mem_terminalJobStates]

theorem deletableTriage_iff {n : ℕ} {current : Time} {record : TriageRecord} :
    deletableTriage (current - days n) record = true ↔
      record.work.state.terminal = true ∧ Old n current record.work.processedAt := by
  rw [deletableTriage, deletable_iff, mem_terminalTriageStates]

/-- A record that was processed just now is not old. -/
theorem not_old_now {n : ℕ} {current : Time} : ¬Old n current (some current) := by
  rintro ⟨time, htime, hlt⟩
  obtain rfl := Option.some.inj htime
  exact Nat.not_lt.mpr (Nat.le_add_right _ _) hlt

/-- A record that says when it was processed is old at some time, and from then on. -/
theorem exists_old {processedAt : Option Time} (h : processedAt.isSome = true) (n : ℕ) :
    ∃ due, ∀ current, due < current → Old n current processedAt := by
  obtain ⟨time, rfl⟩ := Option.isSome_iff_exists.mp h
  exact ⟨time + days n, fun current hlt ↦ ⟨time, rfl, hlt⟩⟩

theorem counts_keysWhere {ι α : Type} {rows : ι → Option α} {keys : List ι} {p : α → Bool}
    {P : α → Prop} (h : KeysOf rows keys) (hp : ∀ a, p a = true ↔ P a) :
    Counts (fun i ↦ ∃ a, rows i = some a ∧ P a) (keysWhere rows keys p).length := by
  refine ⟨_, h.nodup_keysWhere, fun i ↦ ?_, rfl⟩
  rw [h.mem_keysWhere]
  simp only [hp]

/-! ## The deletions -/

section

variable {d : Database} {cutoff : Time} {id : ActionId} {s : ActionStore}

/-- The trail of an action after some actions have been deleted with their events. -/
theorem trail_filter (rows : ActionId → Option PendingAction) (ids : List ActionId) :
    ActionStore.trail ⟨rows, s.audit.filter (·.actionId ∉ ids)⟩ id =
      if id ∈ ids then [] else s.trail id := by
  rw [ActionStore.trail, ActionStore.trail, List.filter_filter]
  split
  · rename_i hmem
    refine List.filter_eq_nil_iff.mpr fun event _ h ↦ ?_
    simp only [Bool.and_eq_true, decide_eq_true_iff] at h
    exact h.2 (h.1 ▸ hmem)
  · rename_i hmem
    refine List.filter_congr fun event _ ↦ ?_
    by_cases hid : event.actionId = id
    · simp [hid, hmem]
    · simp [hid]

variable {row : PendingAction}

theorem Database.deleteActions_of_old (hkeys : KeysOf d.actions.rows d.actionIds)
    (hrow : d.actions.rows id = some row) (hold : deletableAction cutoff row = true) :
    (d.deleteActions cutoff).1.actions.rows id = none ∧
      (d.deleteActions cutoff).1.actions.trail id = [] := by
  refine ⟨(deleteWhere_of_some hrow).trans (if_pos hold), (trail_filter _ _).trans (if_pos ?_)⟩
  exact hkeys.mem_keysWhere.mpr ⟨row, hrow, hold⟩

/-- An action that is not deleted, and an id without one. -/
theorem Database.deleteActions_of_kept (id : ActionId) (cutoff : Time)
    (hkeys : KeysOf d.actions.rows d.actionIds)
    (hkept : ∀ row, d.actions.rows id = some row → deletableAction cutoff row = false) :
    (d.deleteActions cutoff).1.actions.rows id = d.actions.rows id ∧
      (d.deleteActions cutoff).1.actions.trail id = d.actions.trail id := by
  constructor
  · cases hrow : d.actions.rows id with
    | none => exact deleteWhere_of_none hrow
    | some row =>
      refine (deleteWhere_of_some hrow).trans (if_neg ?_)
      rw [hkept row hrow]
      exact Bool.false_ne_true
  · refine (trail_filter _ _).trans (if_neg fun hmem ↦ ?_)
    obtain ⟨row, hrow, hold⟩ := hkeys.mem_keysWhere.mp hmem
    rw [hkept row hrow] at hold
    cases hold

/-- Nothing is old. -/
theorem Database.deleteOld_eq_self {settings : RetentionSettings} {current : Time}
    (hactions : ∀ id row, d.actions.rows id = some row →
      ¬(row.status.Resolved ∧ Old settings.pendingActionRetentionDays current row.processedAt))
    (hjobs : ∀ id job, d.mail.store.jobs id = some job →
      ¬(job.state.Terminal ∧ Old settings.gmailJobRetentionDays current job.processedAt))
    (htriage : ∀ record ∈ d.triage.table.records, ¬(record.work.state.terminal = true ∧
      Old settings.gmailTriageRetentionDays current record.work.processedAt)) :
    d.deleteOld settings current = (d, 0, 0, 0) := by
  have hactions' : ∀ id row, d.actions.rows id = some row →
      deletableAction (current - days settings.pendingActionRetentionDays) row = false :=
    fun id row hrow ↦ Bool.eq_false_iff.mpr (mt deletableAction_iff.mp (hactions id row hrow))
  have hjobs' : ∀ id job, d.mail.store.jobs id = some job →
      deletableJob (current - days settings.gmailJobRetentionDays) job = false :=
    fun id job hjob ↦ Bool.eq_false_iff.mpr (mt deletableJob_iff.mp (hjobs id job hjob))
  have htriage' : ∀ record ∈ d.triage.table.records,
      deletableTriage (current - days settings.gmailTriageRetentionDays) record = false :=
    fun record hmem ↦ Bool.eq_false_iff.mpr (mt deletableTriage_iff.mp (htriage record hmem))
  have hdeleteActions : d.deleteActions (current - days settings.pendingActionRetentionDays) =
      (d, 0) := by
    simp only [deleteActions, deleteWhere_eq_self hactions', keysWhere_eq_nil hactions',
      keysLeft_eq_self hactions', List.not_mem_nil, not_false_eq_true, decide_true,
      List.filter_true, List.length_nil]
  have hindex : ∀ found : Option JobId, found.filter (fun _ ↦ true) = found := fun found ↦ by
    cases found <;> rfl
  have hdeleteJobs : d.deleteJobs (current - days settings.gmailJobRetentionDays) = (d, 0) := by
    simp only [deleteJobs, deleteWhere_eq_self hjobs', keysWhere_eq_nil hjobs',
      keysLeft_eq_self hjobs', List.not_mem_nil, not_false_eq_true, decide_true,
      hindex, List.length_nil, MailTables.setStore]
  have hdeleteTriage : d.deleteTriage (current - days settings.gmailTriageRetentionDays) =
      (d, 0) := by
    have hfilter : d.triage.table.records.filter (fun record ↦
        !deletableTriage (current - days settings.gmailTriageRetentionDays) record) =
          d.triage.table.records :=
      List.filter_eq_self.mpr fun record hmem ↦ by rw [htriage' record hmem]; rfl
    have hcount : d.triage.table.records.countP
        (deletableTriage (current - days settings.gmailTriageRetentionDays)) = 0 :=
      List.countP_eq_zero.mpr fun record hmem h ↦ by rw [htriage' record hmem] at h; cases h
    simp only [deleteTriage, hfilter, hcount]
  simp only [deleteOld, hdeleteActions, hdeleteJobs, hdeleteTriage]

/-! ## A cleanup -/

variable {settings : RetentionSettings} {locked : ActionId → Bool} {current : Time}
  {swept : List ActionId}

/-- A cleanup that has swept some actions. -/
def afterSweep (settings : RetentionSettings) (current : Time) (d : Database)
    (swept : List ActionId) : Database × RetentionCleanupResult :=
  let deleted :=
    { d with actions := d.actions.sweep current swept }.deleteOld settings current
  (deleted.1, ⟨deleted.2.1, deleted.2.2.1, deleted.2.2.2, swept.length⟩)

variable (settings) in
/-- **A cleanup ends**, and it has swept the stale actions that are not locked. -/
theorem exists_cleanupRetainedRecords (plan : QueryPlan) (locked : ActionId → Bool)
    (now : Option Time) (clock : Clock) (hkeys : KeysOf d.actions.rows d.actionIds)
    (hkeyed : d.actions.Keyed) :
    ∃ swept, AllStale d.actions locked (now.getD (clock 0)) swept ∧
      ∀ fuel, swept.length < fuel →
        cleanupRetainedRecords settings plan locked now clock fuel d =
          some (afterSweep settings (now.getD (clock 0)) d swept) := by
  obtain ⟨swept, hstale, hexpire⟩ := exists_expireStaleActions plan locked
    (some (now.getD (clock 0))) clock settings.batch_pos hkeys hkeyed
  refine ⟨swept, hstale, fun fuel hfuel ↦ ?_⟩
  rw [cleanupRetainedRecords]
  dsimp only
  rw [hexpire fuel hfuel]
  rfl

/-- More fuel changes nothing. -/
theorem cleanupRetainedRecords_mono {plan : QueryPlan} {now : Option Time} {clock : Clock}
    {fuel fuel' : ℕ} {r : Database × RetentionCleanupResult} (hle : fuel ≤ fuel')
    (h : cleanupRetainedRecords settings plan locked now clock fuel d = some r) :
    cleanupRetainedRecords settings plan locked now clock fuel' d = some r := by
  rw [cleanupRetainedRecords] at h ⊢
  dsimp only at h ⊢
  split at h
  · cases h
  · rename_i actions expiredActions hexpire
    rw [expireStaleActions, drain_mono hle hexpire]
    exact h

theorem not_deletableAction_iff {n : ℕ} {row : PendingAction} :
    deletableAction (current - days n) row = false ↔
      ¬(row.status.Resolved ∧ Old n current row.processedAt) := by
  rw [← deletableAction_iff, Bool.not_eq_true]

/-- The actions that are old after the sweep were old before. -/
theorem AllStale.old_iff {n : ℕ} (h : AllStale d.actions locked current swept)
    (hkeyed : d.actions.Keyed) :
    (∃ row, (d.actions.sweep current swept).rows id = some row ∧ row.status.Resolved ∧
        Old n current row.processedAt) ↔
      ∃ row, d.actions.rows id = some row ∧ row.status.Resolved ∧
        Old n current row.processedAt := by
  by_cases hstale : ∃ row, d.actions.rows id = some row ∧ Stale locked current row
  · obtain ⟨row, hrow, hrowStale⟩ := hstale
    have hswept := (h.sweep_of_stale hkeyed hrow hrowStale).1
    constructor
    · rintro ⟨row', hrow', -, hold⟩
      obtain rfl := Option.some.inj (hswept.symm.trans hrow')
      exact absurd hold not_old_now
    · rintro ⟨row', hrow', hresolved, -⟩
      obtain rfl := Option.some.inj (hrow.symm.trans hrow')
      rw [hrowStale.1] at hresolved
      cases hresolved
  · rw [(h.sweep_of_fresh hkeyed fun row hrow hrowStale ↦ hstale ⟨row, hrow, hrowStale⟩).1]

variable (settings) in
/-- What a cleanup has done when it has swept exactly the stale actions. -/
theorem cleanedUp_afterSweep (hkeys : KeysOf d.actions.rows d.actionIds)
    (hkeyed : d.actions.Keyed) (hjobs : KeysOf d.mail.store.jobs d.jobIds)
    (hstale : AllStale d.actions locked current swept) :
    CleanedUp settings locked current d (afterSweep settings current d swept).1
      (afterSweep settings current d swept).2 := by
  have hkeys' : KeysOf (d.actions.sweep current swept).rows d.actionIds :=
    hkeys.rewrite (rewrites_sweep d.actions current swept)
  -- What has just been swept is resolved, but not yet old: the deletion leaves it.
  have hexpired : ∀ id row, d.actions.rows id = some row → Stale locked current row →
      (afterSweep settings current d swept).1.actions.rows id =
          some { row with status := .expired, processedAt := some current } ∧
        (afterSweep settings current d swept).1.actions.trail id =
          d.actions.trail id ++ [sweptEvent id] := by
    intro id row hrow hrowStale
    obtain ⟨hmarked, haudited⟩ := hstale.sweep_of_stale hkeyed hrow hrowStale
    obtain ⟨hkept, htrail⟩ := Database.deleteActions_of_kept
      (d := { d with actions := d.actions.sweep current swept }) id
      (current - days settings.pendingActionRetentionDays) hkeys' fun row' hrow' ↦ by
        obtain rfl := Option.some.inj (hmarked.symm.trans hrow')
        exact not_deletableAction_iff.mpr fun hold ↦ not_old_now hold.2
    exact ⟨hkept.trans hmarked, htrail.trans haudited⟩
  have hkept : ∀ id, (∀ row, d.actions.rows id = some row → ¬Stale locked current row) →
      (∀ row, d.actions.rows id = some row → ¬(row.status.Resolved ∧
        Old settings.pendingActionRetentionDays current row.processedAt)) →
      (afterSweep settings current d swept).1.actions.rows id = d.actions.rows id ∧
        (afterSweep settings current d swept).1.actions.trail id = d.actions.trail id := by
    intro id hfresh hyoung
    obtain ⟨hsame, htrail⟩ := hstale.sweep_of_fresh hkeyed hfresh
    obtain ⟨hsame', htrail'⟩ := Database.deleteActions_of_kept
      (d := { d with actions := d.actions.sweep current swept }) id
      (current - days settings.pendingActionRetentionDays) hkeys' fun row hrow ↦
        not_deletableAction_iff.mpr (hyoung row (hsame.symm.trans hrow))
    exact ⟨hsame'.trans hsame, htrail'.trans htrail⟩
  refine
    { expired := hexpired
      deleted := fun id row hrow hresolved hold ↦ ?_
      kept := fun id row hrow hfresh hyoung ↦ ?_
      absent := fun id hnone ↦ ?_
      unresolved := fun id row hrow hopen ↦ ?_
      jobs := fun id job ↦ ?_
      index := fun pubsubMessageId id ↦ ?_
      triage := fun record ↦ ?_
      order := List.filter_sublist
      mail := rfl
      calls := rfl
      expiredActions := ⟨swept, hstale.nodup, hstale.mem_iff, rfl⟩
      pendingActions := ?_
      notificationJobs := counts_keysWhere hjobs fun _ ↦ deletableJob_iff
      triageWork := ?_ }
  -- A resolved action is not stale, so the sweep has left it to the deletion.
  · have hfresh : ∀ row', d.actions.rows id = some row' → ¬Stale locked current row' := by
      intro row' hrow' hrowStale
      obtain rfl := Option.some.inj (hrow.symm.trans hrow')
      rw [hrowStale.1] at hresolved
      cases hresolved
    have hsame := (hstale.sweep_of_fresh hkeyed hfresh).1
    exact Database.deleteActions_of_old hkeys' (hsame.trans hrow)
      (deletableAction_iff.mpr ⟨hresolved, hold⟩)
  · rw [← hrow]
    refine hkept id (fun row' hrow' ↦ ?_) fun row' hrow' ↦ ?_
    · obtain rfl := Option.some.inj (hrow.symm.trans hrow')
      exact hfresh
    · obtain rfl := Option.some.inj (hrow.symm.trans hrow')
      exact hyoung
  · rw [← hnone]
    refine hkept id (fun row' hrow' ↦ ?_) fun row' hrow' ↦ ?_
    · rw [hnone] at hrow'
      cases hrow'
    · rw [hnone] at hrow'
      cases hrow'
  · by_cases hrowStale : Stale locked current row
    · rw [(hexpired id row hrow hrowStale).1]
      rfl
    · rw [(hkept id _ _).1, hrow]
      · rfl
      · intro row' hrow'
        obtain rfl := Option.some.inj (hrow.symm.trans hrow')
        exact hrowStale
      · intro row' hrow' hold
        obtain rfl := Option.some.inj (hrow.symm.trans hrow')
        exact hopen hold.1
  · rw [← deletableJob_iff, Bool.not_eq_true]
    exact deleteWhere_eq_some_iff
  · simp only [← deletableJob_iff]
    rw [← hjobs.mem_keysWhere]
    exact Option.filter_eq_some_iff.trans (and_congr Iff.rfl decide_eq_true_iff)
  · rw [← deletableTriage_iff, Bool.not_eq_true, ← Bool.not_eq_true']
    exact List.mem_filter
  · obtain ⟨keys, hnodup, hmem, hlength⟩ := counts_keysWhere
      (p := deletableAction (current - days settings.pendingActionRetentionDays)) hkeys'
      fun _ ↦ deletableAction_iff
    exact ⟨keys, hnodup, fun id ↦ (hmem id).trans (hstale.old_iff hkeyed), hlength⟩
  · have hparts := (List.filter_append_perm
      (deletableTriage (current - days settings.gmailTriageRetentionDays))
      d.triage.table.records).length_eq
    rw [List.length_append, Nat.add_comm] at hparts
    rw [← hparts]
    exact congrArg _ List.countP_eq_length_filter

/-! ## Doing it again -/

variable {d' : Database} {result : RetentionCleanupResult} {locked' : ActionId → Bool}

/-- No action that a cleanup leaves is stale or old. -/
theorem CleanedUp.action_cases (h : CleanedUp settings locked current d d' result)
    (hrow : d'.actions.rows id = some row) : ¬Stale locked current row ∧
      ¬(row.status.Resolved ∧ Old settings.pendingActionRetentionDays current row.processedAt) := by
  cases hbefore : d.actions.rows id with
  | none =>
    rw [(h.absent id hbefore).1] at hrow
    cases hrow
  | some before =>
    by_cases hstale : Stale locked current before
    · rw [(h.expired id before hbefore hstale).1] at hrow
      obtain rfl := Option.some.inj hrow
      exact ⟨fun hagain ↦ (nomatch hagain.1), fun hold ↦ not_old_now hold.2⟩
    · by_cases hold : before.status.Resolved ∧
          Old settings.pendingActionRetentionDays current before.processedAt
      · rw [(h.deleted id before hbefore hold.1 hold.2).1] at hrow
        cases hrow
      · rw [(h.kept id before hbefore hstale hold).1] at hrow
        obtain rfl := Option.some.inj hrow
        exact ⟨hstale, hold⟩

/-- **A second cleanup at the same time does nothing**, if at least the same rows are locked. -/
theorem CleanedUp.again (h : CleanedUp settings locked current d d' result)
    (hkeys : KeysOf d'.actions.rows d'.actionIds) (hkeyed : d'.actions.Keyed) (plan : QueryPlan)
    (hlocked : ∀ id, locked id = true → locked' id = true) (now : Option Time) (clock : Clock)
    (hnow : now.getD (clock 0) = current) {fuel : ℕ} (hfuel : 0 < fuel) :
    cleanupRetainedRecords settings plan locked' now clock fuel d' = some (d', ⟨0, 0, 0, 0⟩) := by
  obtain ⟨swept, hstale, hcleanup⟩ :=
    exists_cleanupRetainedRecords settings plan locked' now clock hkeys hkeyed
  have hnil : swept = [] := by
    refine List.eq_nil_iff_forall_not_mem.mpr fun id hmem ↦ ?_
    obtain ⟨row, hrow, hstatus, hexpires, hunlocked⟩ := (hstale.mem_iff id).mp hmem
    refine (h.action_cases hrow).1 ⟨hstatus, hnow ▸ hexpires, ?_⟩
    cases hrowLocked : locked row.id with
    | false => rfl
    | true =>
      rw [hlocked row.id hrowLocked] at hunlocked
      cases hunlocked
  subst hnil
  rw [hcleanup fuel hfuel, hnow, afterSweep, sweep_nil,
    Database.deleteOld_eq_self (fun id row hrow ↦ (h.action_cases hrow).2)
      (fun id job hjob ↦ ((h.jobs id job).mp hjob).2)
      fun record hmem ↦ ((h.triage record).mp hmem).2]
  rfl

end

end Onebox.Retention
