import Onebox.Retention.OldRecords

/-!
# Retention over whole runs

Whatever calls the three services and earlier cleanups have answered, in whatever order: the ids of
the rows are known, the audit trails replay, and every record that is over says when it was
processed. So every cleanup ends, deletes what is old and nothing else, and leaves no record behind
that will never be old.
-/

namespace Onebox.Retention

open Python Transition Tables PendingActions Notifications

/-- What holds of the database after every run. -/
structure Database.Invariant (d : Database) : Prop where
  actionIds : KeysOf d.actions.rows d.actionIds
  chronicled : d.actions.Chronicled
  actions : Every StampedAction d.actions.rows
  jobIds : KeysOf d.mail.store.jobs d.jobIds
  jobs : Every StampedJob d.mail.store.jobs
  triage : ∀ record ∈ d.triage.table.records, StampedTriage record
  /-- Some time is not earlier than the readings of the calls in progress. -/
  readings : ∃ time, d.triage.ReadingsBy time

/-- The audit trails outlive a deletion that takes the events of its actions along. -/
theorem chronicled_delete {s : ActionStore} {p : PendingAction → Bool} {deleted : List ActionId}
    (h : s.Chronicled)
    (hmem : ∀ id, id ∈ deleted ↔ ∃ row, s.rows id = some row ∧ p row = true) :
    ActionStore.Chronicled ⟨deleteWhere s.rows p, s.audit.filter (·.actionId ∉ deleted)⟩ where
  keyed id row hrow := h.keyed id row (deleteWhere_eq_some_iff.mp hrow).1
  absent id hnone := by
    rw [trail_filter]
    split
    · rfl
    · rename_i hkept
      cases hrow : s.rows id with
      | none => exact h.absent id hrow
      | some row =>
        have hdeleted : p row = true := by
          by_contra hp
          have hstays := (deleteWhere_of_some hrow).trans (if_neg hp)
          cases hstays.symm.trans hnone
        exact absurd ((hmem id).mpr ⟨row, hrow, hdeleted⟩) hkept
  replays id row hrow := by
    obtain ⟨hbefore, hp⟩ := deleteWhere_eq_some_iff.mp hrow
    have hkept : id ∉ deleted := fun hdeleted ↦ by
      obtain ⟨row', hrow', hp'⟩ := (hmem id).mp hdeleted
      obtain rfl := Option.some.inj (hbefore.symm.trans hrow')
      rw [hp] at hp'
      cases hp'
    rw [trail_filter, if_neg hkept]
    exact h.replays id row hbefore

section

variable {rules : PayloadRules} {settings : Settings} {retention : RetentionSettings}
  {d d' : Database} {result : RetentionCleanupResult} {call : DatabaseCall} {o : DatabaseReply}
  {tr : List (DatabaseCall × DatabaseReply)}

namespace Database

theorem Invariant.action {call : StoreCall} {store : ActionStore} {reply : PendingActions.Reply}
    (hI : d.Invariant) (hs : d.actions.step rules call = some (store, reply)) :
    Invariant { d with
      actions := store
      actionIds := keysAfter store.rows d.actionIds (insertedAction call) } := by
  have hrows : KeysOf store.rows (keysAfter store.rows d.actionIds (insertedAction call)) ∧
      Every StampedAction store.rows := by
    cases hcall : insertedAction call with
    | none =>
      have hrewrites := rewrites_of_step hcall hs
      exact ⟨hI.actionIds.rewrite hrewrites, hI.actions.rewrite hrewrites⟩
    | some id =>
      obtain ⟨hfree, hinserted⟩ := insert_of_step hcall hs
      refine ⟨hI.actionIds.after hfree (hinserted.imp_right fun ⟨row, _, hrow⟩ ↦ ⟨row, hrow⟩), ?_⟩
      rcases hinserted with hsame | ⟨row, hstamped, hrow⟩
      · rw [hsame]
        exact hI.actions
      · rw [hrow]
        exact hI.actions.insert hstamped
  exact ⟨hrows.1, hI.chronicled.step hs, hrows.2, hI.jobIds, hI.jobs, hI.triage, hI.readings⟩

theorem Invariant.job {call : TableCall} {mail : MailTables} {reply : TableReply}
    (hI : d.Invariant) (hs : d.mail.step settings call = some (mail, reply)) :
    Invariant { d with
      mail := mail
      jobIds := keysAfter mail.store.jobs d.jobIds (insertedJob call) } := by
  have hrows : KeysOf mail.store.jobs (keysAfter mail.store.jobs d.jobIds (insertedJob call)) ∧
      Every StampedJob mail.store.jobs := by
    cases hcall : call.isInsert with
    | false =>
      have hnone : insertedJob call = none := by
        cases call with
        | insertJob => cases hcall
        | _ => rfl
      have hrewrites := rewritesJobs_of_step hcall hs
      rw [hnone]
      exact ⟨hI.jobIds.rewrite hrewrites, hI.jobs.rewrite hrewrites⟩
    | true =>
      cases call with
      | insertJob id pubsubMessageId historyId receivedAt =>
        obtain ⟨⟨hfree, -⟩, rfl, -⟩ := MailTables.eq_of_guarded hs
        exact ⟨hI.jobIds.after hfree (Or.inr ⟨_, rfl⟩),
          hI.jobs.insert (stampedJob_of_state .pending rfl (by decide))⟩
      | _ => cases hcall
  exact ⟨hI.actionIds, hI.chronicled, hI.actions, hrows.1, hrows.2, hI.triage, hI.readings⟩

theorem Invariant.triageCall {call : TriageTableCall} {triage : TriageTableWorld}
    {answer : TriageTableAnswer} (hI : d.Invariant)
    (hs : d.triage.step settings call = some (triage, answer)) :
    Invariant { d with triage := triage } := by
  obtain ⟨time, hreadings⟩ := hI.readings
  -- The call brings at most one more reading.
  have hreadings' : d.triage.ReadingsBy (time + call.reading.getD 0) := fun n p hp ↦
    Nat.le_trans (hreadings n p hp) (Nat.le_add_right _ _)
  have hreading : ∀ now, call.reading = some now → now ≤ time + call.reading.getD 0 := by
    intro now hnow
    rw [hnow]
    exact Nat.le_add_left _ _
  exact ⟨hI.actionIds, hI.chronicled, hI.actions, hI.jobIds, hI.jobs,
    stampedTriage_of_effect (effect_of_step hreadings' hreading hs) hI.triage,
    _, hreadings'.step hreading hs⟩

theorem Invariant.afterSweep (retention : RetentionSettings) (rules : PayloadRules)
    {current : Time} {locked : ActionId → Bool} {swept : List ActionId}
    (hI : d.Invariant) (hstale : AllStale d.actions locked current swept) :
    (afterSweep retention current d swept).1.Invariant := by
  have hrewrites := rewrites_sweep d.actions current swept
  have hkeys := hI.actionIds.rewrite hrewrites
  have hs : d.actions.step rules (.expireStale current swept) =
      some (d.actions.sweep current swept, .swept swept) := if_pos hstale.nodup
  exact
    { actionIds := hkeys.delete
      chronicled := chronicled_delete (hI.chronicled.step hs) fun _ ↦ hkeys.mem_keysWhere
      actions := (hI.actions.rewrite hrewrites).delete
      jobIds := hI.jobIds.delete
      jobs := hI.jobs.delete
      triage := fun record hmem ↦ hI.triage record (List.mem_filter.mp hmem).1
      readings := hI.readings }

/-- A cleanup, also one that was given little fuel. -/
theorem Invariant.cleanup (rules : PayloadRules) {plan : QueryPlan} {locked : ActionId → Bool}
    {now : Option Time} {clock : Clock} {fuel : ℕ} (hI : d.Invariant)
    (h : cleanupRetainedRecords retention plan locked now clock fuel d = some (d', result)) :
    d'.Invariant := by
  obtain ⟨swept, hstale, hcleanup⟩ :=
    exists_cleanupRetainedRecords retention plan locked now clock hI.actionIds
      hI.chronicled.keyed
  have hmore := hcleanup (max fuel (swept.length + 1)) (by omega)
  rw [cleanupRetainedRecords_mono (Nat.le_max_left _ _) h] at hmore
  obtain rfl := (Prod.mk.inj (Option.some.inj hmore)).1
  exact Invariant.afterSweep retention rules hI hstale

/-- The step lemma. -/
theorem Invariant.step (hI : d.Invariant)
    (hs : d.step rules settings retention call = some (d', o)) : d'.Invariant := by
  cases call with
  | action call =>
    simp only [Database.step] at hs
    split at hs
    · cases hs
    · rename_i store reply hstep
      obtain ⟨rfl, -⟩ := Prod.mk.inj (Option.some.inj hs)
      exact hI.action hstep
  | job call =>
    simp only [Database.step] at hs
    split at hs
    · cases hs
    · rename_i mail reply hstep
      obtain ⟨rfl, -⟩ := Prod.mk.inj (Option.some.inj hs)
      exact hI.job hstep
  | triage call =>
    simp only [Database.step] at hs
    split at hs
    · cases hs
    · rename_i triage answer hstep
      obtain ⟨rfl, -⟩ := Prod.mk.inj (Option.some.inj hs)
      exact hI.triageCall hstep
  | cleanup plan locked now clock fuel =>
    simp only [Database.step] at hs
    split at hs
    · cases hs
    · rename_i store result hcleanup
      obtain ⟨rfl, -⟩ := Prod.mk.inj (Option.some.inj hs)
      exact hI.cleanup rules hcleanup

end Database

theorem invariant_of_init (hinit : (database rules settings retention).init d) : d.Invariant := by
  obtain ⟨hactions, haudit, hactionIds, ⟨-, hjobs, -⟩, hjobIds, hrecords, hpending⟩ := hinit
  have hfresh : d.actions.FreshlyStaged := by
    refine ⟨fun id row hrow ↦ ?_, fun id row hrow ↦ ?_, haudit⟩
    · rw [hactions id] at hrow
      cases hrow
    · rw [hactions id] at hrow
      cases hrow
  exact
    { actionIds := ⟨by rw [hactionIds]; exact List.nodup_nil, fun id ↦ by
        rw [hactionIds, hactions id]
        exact ⟨nofun, nofun⟩⟩
      chronicled := hfresh.chronicled
      actions := fun id row hrow ↦ by
        rw [hactions id] at hrow
        cases hrow
      jobIds := ⟨by rw [hjobIds]; exact List.nodup_nil, fun id ↦ by
        rw [hjobIds, hjobs id]
        exact ⟨nofun, nofun⟩⟩
      jobs := fun id job hjob ↦ by
        rw [hjobs id] at hjob
        cases hjob
      triage := fun record hmem ↦ by
        rw [hrecords] at hmem
        cases hmem
      readings := ⟨0, fun n p hp ↦ by
        rw [hpending n] at hp
        cases hp⟩ }

/-- **What holds of cleanups, and of the records that they leave.** -/
structure CleanupSound (retention : RetentionSettings) (d : Database) : Prop where
  /-- Every cleanup ends, does what it is for, and can be repeated without effect. -/
  cleans : ∀ (plan : QueryPlan) (locked : ActionId → Bool) (now : Option Time) (clock : Clock),
    ∃ d' result, (∀ fuel, d.actionIds.length < fuel →
        cleanupRetainedRecords retention plan locked now clock fuel d = some (d', result)) ∧
      CleanedUp retention locked (now.getD (clock 0)) d d' result ∧
      ∀ (plan' : QueryPlan) (locked' : ActionId → Bool) (now' : Option Time) (clock' : Clock)
        (fuel' : ℕ), now'.getD (clock' 0) = now.getD (clock 0) →
        (∀ id, locked id = true → locked' id = true) → 0 < fuel' →
        cleanupRetainedRecords retention plan' locked' now' clock' fuel' d' =
          some (d', ⟨0, 0, 0, 0⟩)
  /-- No record that is over is kept forever. -/
  actions : ∀ id row, d.actions.rows id = some row → row.status.Resolved →
    row.processedAt.isSome = true ∧ ∃ due, ∀ current, due < current →
      Old retention.pendingActionRetentionDays current row.processedAt
  jobs : ∀ id job, d.mail.store.jobs id = some job → job.state.Terminal →
    job.processedAt.isSome = true ∧ ∃ due, ∀ current, due < current →
      Old retention.gmailJobRetentionDays current job.processedAt
  triage : ∀ record ∈ d.triage.table.records, record.work.state.terminal = true →
    record.work.processedAt.isSome = true ∧ ∃ due, ∀ current, due < current →
      Old retention.gmailTriageRetentionDays current record.work.processedAt

/-- **Retention deletes exactly the old records that are over, and each of them in the end.** -/
theorem cleanupSound_of_run {d₀ : Database} (hinit : (database rules settings retention).init d₀)
    (hrun : System.Run (database rules settings retention) System.anyStep d₀ tr d) :
    CleanupSound retention d := by
  have hI : d.Invariant :=
    hrun.invariant (invariant_of_init hinit) fun _ _ _ _ hI _ hs ↦ hI.step hs
  refine ⟨fun plan locked now clock ↦ ?_, fun id row hrow hresolved ↦ ?_,
    fun id job hjob hterminal ↦ ?_, fun record hmem hterminal ↦ ?_⟩
  · obtain ⟨swept, hstale, hcleanup⟩ := exists_cleanupRetainedRecords retention plan locked now
      clock hI.actionIds hI.chronicled.keyed
    have hcleaned :=
      cleanedUp_afterSweep retention hI.actionIds hI.chronicled.keyed hI.jobIds hstale
    have hI' := Database.Invariant.afterSweep retention rules hI hstale
    refine ⟨_, _, fun fuel hfuel ↦ hcleanup fuel ?_, hcleaned,
      fun plan' locked' now' clock' fuel' hnow hlocked hfuel ↦
        hcleaned.again hI'.actionIds hI'.chronicled.keyed plan' hlocked now' clock' hnow hfuel⟩
    have hsubset : swept ⊆ d.actionIds := fun id hmem ↦ by
      obtain ⟨row, hrow, -⟩ := (hstale.mem_iff id).mp hmem
      exact hI.actionIds.mem_of_some hrow
    exact Nat.lt_of_le_of_lt (List.subperm_of_subset hstale.nodup hsubset).length_le hfuel
  · have hstamped := hI.actions id row hrow (mem_resolvedActionStatuses.mpr hresolved)
    exact ⟨hstamped, exists_old hstamped _⟩
  · have hstamped := hI.jobs id job hjob (mem_terminalJobStates.mpr hterminal)
    exact ⟨hstamped, exists_old hstamped _⟩
  · have hstamped := hI.triage record hmem (mem_terminalTriageStates.mpr hterminal)
    exact ⟨hstamped, exists_old hstamped _⟩

end

/-! ### Two cleanups -/

def emptyDatabase : Database where
  actions := ⟨fun _ ↦ none, []⟩
  actionIds := []
  mail :=
    { store :=
        { jobs := fun _ ↦ none, pubsubIndex := fun _ ↦ none, mailbox := none, nextToken := 0 }
      jobClaims := []
      resyncClaims := [] }
  jobIds := []
  triage := ⟨⟨[], 0, 0⟩, fun _ ↦ none⟩

/-- Payloads are taken as they are. -/
def plainRules : PayloadRules := ⟨fun _ payload ↦ some payload, fun _ ↦ "hash"⟩

theorem terminal_noop : TriageState.noop.terminal = true := rfl

/-- Three actions, of which one is rejected; a job, and a message that is triaged. The first cleanup
finds the second action locked. -/
def agingCalls : List DatabaseCall :=
  [.action (.create 1 7 .createTask (.str "review") "key-1" fun _ ↦ 0),
    .action (.create 2 7 .createTask (.str "review") "key-2" fun _ ↦ 0),
    .action (.create 3 7 .createTask (.str "review") "key-3" fun _ ↦ 0),
    .action (.reject 3 7 fun _ ↦ 1),
    .job (.insertJob 1 "pubsub-1" 10 0),
    .triage (.claim 0 "owner@example.com" "message-1" 10 0), .triage (.insert 0),
    .triage (.finalize ⟨0, 0⟩ ⟨.noop, terminal_noop, none, none⟩ 2),
    .cleanup .stable (fun id ↦ id == 2) (some (days 1)) (fun _ ↦ 0) 3,
    .cleanup .stable (fun _ ↦ false) none (fun _ ↦ days 40) 3]

def cleanupResult : DatabaseReply → Option RetentionCleanupResult
  | .cleanup result => some result
  | _ => none

theorem cleanupSound_of_run_aging : ∃ tr d,
    System.Run (database plainRules .default { expirySweepBatch := 1 }) System.anyStep emptyDatabase
      tr d ∧
      tr.filterMap (fun event ↦ cleanupResult event.2) = [⟨0, 0, 0, 1⟩, ⟨2, 0, 1, 1⟩] ∧
      d.actionIds = [2] ∧ CleanupSound { expirySweepBatch := 1 } d := by
  have hreplay : ∃ d os,
      (database plainRules .default { expirySweepBatch := 1 }).replay emptyDatabase agingCalls =
        some (d, os) ∧ (agingCalls.zip os).filterMap (fun event ↦ cleanupResult event.2) =
          [⟨0, 0, 0, 1⟩, ⟨2, 0, 1, 1⟩] ∧ d.actionIds = [2] := ⟨_, _, rfl, rfl, rfl⟩
  obtain ⟨d, os, hreplay, hresults, hids⟩ := hreplay
  have hrun := System.run_of_replay hreplay
  exact ⟨_, d, hrun, hresults, hids, cleanupSound_of_run
    ⟨fun _ ↦ rfl, rfl, rfl, ⟨rfl, fun _ ↦ rfl, rfl, rfl⟩, rfl, rfl, fun _ ↦ rfl⟩ hrun⟩

end Onebox.Retention
