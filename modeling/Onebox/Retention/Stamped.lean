import Onebox.Notifications.JobRows
import Onebox.PendingActions.AuditTrail
import Onebox.Retention.Cleanup

/-!
# Records that are over

A record becomes deletable by its `processed_at` alone, so every place that ends an action, a job or
a triage row has to set it. Here each transaction is shown to write only rows on which it is set, or
which are not over.
-/

namespace Onebox.Retention

open Python Transition Tables PendingActions Notifications

/-- A record that is over says when it was processed. -/
def Stamped {σ : Type} (states : List σ) (state : σ) (processedAt : Option Time) : Prop :=
  state ∈ states → processedAt.isSome = true

theorem Stamped.of_not_mem {σ : Type} {states : List σ} {state : σ} {processedAt : Option Time}
    (h : state ∉ states) : Stamped states state processedAt := fun hmem ↦ absurd hmem h

theorem Stamped.of_some {σ : Type} {states : List σ} {state : σ} {now : Time} :
    Stamped states state (some now) := fun _ ↦ rfl

/-! ## Actions -/

def StampedAction (row : PendingAction) : Prop :=
  Stamped resolvedActionStatuses row.status row.processedAt

section

variable {rules : PayloadRules} {clock : Clock} {token : String} {userId : UserId}
  {row : PendingAction} {change : Change} {s t : ActionStore} {call : StoreCall}
  {o : PendingActions.Reply}

theorem stampedAction_of_status (status : ActionStatus) (h : row.status = status)
    (hopen : status ∉ resolvedActionStatuses) : StampedAction row :=
  .of_not_mem (h ▸ hopen)

theorem stampedAction_markReconciliationRequired (requiredAt processedAt : Time) (reason : String)
    (evidence : Evidence) (actor : Option UserId) (event : EventType) :
    StampedAction
      (markReconciliationRequired requiredAt processedAt row reason evidence actor event).row :=
  stampedAction_of_status _ (markReconciliationRequired_status ..) (by decide)

variable (rules clock token userId row) in
theorem stampedAction_claimPendingAction :
    (claimPendingAction rules clock token userId row).1.row = row ∨
      StampedAction (claimPendingAction rules clock token userId row).1.row := by
  rw [claimPendingAction]
  dsimp only
  split
  · exact Or.inr (stampedAction_markReconciliationRequired _ _ _ _ _ _)
  · split
    · exact Or.inr .of_some
    · split
      · exact Or.inl rfl
      · split
        · exact Or.inr (stampedAction_markReconciliationRequired _ _ _ _ _ _)
        · exact Or.inr (stampedAction_of_status .processing rfl (by decide))

theorem stampedAction_rejectPendingAction (h : rejectPendingAction clock userId row = .ok change) :
    change.row = row ∨ StampedAction change.row := by
  rw [rejectPendingAction] at h
  split at h
  · obtain rfl := by simpa using h
    exact Or.inr .of_some
  · split at h
    · cases h
    · obtain rfl := by simpa using h
      exact Or.inl rfl

theorem stampedAction_sweepRow (current : Time) (row : PendingAction) :
    (ActionStore.sweepRow current row).row = row ∨
      StampedAction (ActionStore.sweepRow current row).row := by
  rw [ActionStore.sweepRow, expireStaleAction]
  split
  · exact Or.inr .of_some
  · exact Or.inl rfl

variable (clock token row) in
theorem stampedAction_finalizeClaimedAction (args : FinalizeArgs) :
    (finalizeClaimedAction clock token args row).row = row ∨
      StampedAction (finalizeClaimedAction clock token args row).row := by
  rw [finalizeClaimedAction]
  split
  · split
    · exact Or.inr (stampedAction_markReconciliationRequired _ _ _ _ _ _)
    · split
      · exact Or.inr (stampedAction_markReconciliationRequired _ _ _ _ _ _)
      · exact Or.inr .of_some
      · exact Or.inr .of_some
  · exact Or.inl rfl

theorem stampedAction_reconcilePromote (h : reconcilePromote clock userId row = .ok change) :
    change.row = row ∨ StampedAction change.row := by
  rw [reconcilePromote] at h
  split at h
  · obtain rfl := by simpa using h
    exact Or.inr (stampedAction_markReconciliationRequired _ _ _ _ _ _)
  · split at h
    · cases h
    · obtain rfl := by simpa using h
      exact Or.inl rfl

variable (clock userId row) in
theorem stampedAction_reconcileFinish (outcome : ReconciliationResult) :
    (reconcileFinish clock userId outcome row).row = row ∨
      StampedAction (reconcileFinish clock userId outcome row).row := by
  rw [reconcileFinish]
  split
  · rename_i hstatus
    dsimp only
    split
    · exact Or.inr .of_some
    · exact Or.inr .of_some
    · exact Or.inr (stampedAction_of_status _ hstatus (by decide))
  · exact Or.inl rfl

theorem rewrites_sweep (s : ActionStore) (current : Time) (ids : List ActionId) :
    Rewrites StampedAction s.rows (s.sweep current ids).rows where
  keys id := by
    rw [ActionStore.sweep]
    dsimp only
    split
    · exact Option.isSome_map
    · rfl
  row id row' hrow' := by
    rw [ActionStore.sweep] at hrow'
    dsimp only at hrow'
    split at hrow'
    · obtain ⟨row, hrow, rfl⟩ := Option.map_eq_some_iff.mp hrow'
      rcases stampedAction_sweepRow current row with hsame | hstamped
      · exact Or.inl (hsame.symm ▸ hrow)
      · exact Or.inr hstamped
    · exact Or.inl hrow'

/-- A transaction on one row. -/
theorem rewrites_put {id : ActionId} (hrow : s.rows id = some row)
    (hwritten : change.row = row ∨ StampedAction change.row) :
    Rewrites StampedAction s.rows (s.put id change).rows := .update hrow hwritten

/-- **Every call but a creation rewrites rows**, and stamps those that are over. -/
theorem rewrites_of_step (hcall : insertedAction call = none)
    (hs : s.step rules call = some (t, o)) : Rewrites StampedAction s.rows t.rows := by
  cases call with
  | create => cases hcall
  | claim id userId token clock =>
    rw [ActionStore.step] at hs
    split at hs
    · obtain ⟨rfl, -⟩ := by simpa using hs
      exact .refl _ _
    · rename_i row hlocked
      obtain ⟨rfl, -⟩ := by simpa using hs
      exact rewrites_put (lockedForOwner_eq_ok hlocked) (stampedAction_claimPendingAction ..)
  | reject id userId clock =>
    rw [ActionStore.step] at hs
    split at hs
    · obtain ⟨rfl, -⟩ := by simpa using hs
      exact .refl _ _
    · rename_i row hlocked
      split at hs
      · obtain ⟨rfl, -⟩ := by simpa using hs
        exact .refl _ _
      · rename_i change hchange
        obtain ⟨rfl, -⟩ := by simpa using hs
        exact rewrites_put (lockedForOwner_eq_ok hlocked)
          (stampedAction_rejectPendingAction hchange)
  | expireStale current ids =>
    rw [ActionStore.step] at hs
    split at hs
    · obtain ⟨rfl, -⟩ := by simpa using hs
      exact rewrites_sweep s current ids
    · cases hs
  | finalize id token args clock =>
    rw [ActionStore.step] at hs
    split at hs
    · obtain ⟨rfl, -⟩ := by simpa using hs
      exact .refl _ _
    · rename_i row hrow
      obtain ⟨rfl, -⟩ := by simpa using hs
      exact rewrites_put hrow (stampedAction_finalizeClaimedAction ..)
  | reconcilePromote id operatorUserId clock =>
    rw [ActionStore.step] at hs
    split at hs
    · obtain ⟨rfl, -⟩ := by simpa using hs
      exact .refl _ _
    · rename_i row hrow
      split at hs
      · obtain ⟨rfl, -⟩ := by simpa using hs
        exact .refl _ _
      · rename_i change hchange
        obtain ⟨rfl, -⟩ := by simpa using hs
        exact rewrites_put hrow (stampedAction_reconcilePromote hchange)
  | reconcileFinish id operatorUserId outcome clock =>
    rw [ActionStore.step] at hs
    split at hs
    · obtain ⟨rfl, -⟩ := by simpa using hs
      exact .refl _ _
    · rename_i row hrow
      obtain ⟨rfl, -⟩ := by simpa using hs
      exact rewrites_put hrow (stampedAction_reconcileFinish ..)

/-- A creation inserts a pending row under a free id, or nothing. -/
theorem insert_of_step {id : ActionId} (hcall : insertedAction call = some id)
    (hs : s.step rules call = some (t, o)) :
    s.rows id = none ∧
      (t.rows = s.rows ∨
        ∃ row, StampedAction row ∧ t.rows = Function.update s.rows id (some row)) := by
  cases call with
  | create id' userId actionType payload commandKey clock =>
    obtain rfl := Option.some.inj hcall
    rw [ActionStore.step] at hs
    split at hs
    · cases hs
    · rename_i hfree
      refine ⟨hfree, ?_⟩
      split at hs
      · obtain ⟨rfl, -⟩ := by simpa using hs
        exact Or.inl rfl
      · obtain ⟨rfl, -⟩ := by simpa using hs
        exact Or.inr ⟨_, stampedAction_of_status .pending rfl (by decide), rfl⟩
  | _ => cases hcall

end

/-! ## Jobs -/

def StampedJob (job : GmailNotificationJob) : Prop :=
  Stamped terminalJobStates job.state job.processedAt

section

variable {settings : Settings} {s s' : JobStore} {clock : ℕ → Time}
  {job job' : GmailNotificationJob}
  {claim : ClaimedNotificationJob} {t u : MailTables} {call : TableCall} {o : TableReply}

theorem stampedJob_of_state (state : JobState) (h : job.state = state)
    (hopen : state ∉ terminalJobStates) : StampedJob job := .of_not_mem (h ▸ hopen)

theorem stampedJob_of_move (h : JobMove s s' job job') : job' = job ∨ StampedJob job' := by
  cases h with
  | stay => exact Or.inl rfl
  | mark pending => exact Or.inr (stampedJob_of_state .pending pending (by decide))
  | grant => exact Or.inr (stampedJob_of_state .processing rfl (by decide))
  | back => exact Or.inr (stampedJob_of_state .pending rfl (by decide))
  | succeed => exact Or.inr .of_some
  | bury => exact Or.inr .of_some

theorem rewrites_of_jobsMove (h : JobsMove s s') : Rewrites StampedJob s.jobs s'.jobs where
  keys id := by
    cases hjob : s.jobs id with
    | none => rw [h.absent id hjob]
    | some job =>
      obtain ⟨job', hjob', -⟩ := h.row id job hjob
      rw [hjob']
      rfl
  row id job' hjob' := by
    cases hjob : s.jobs id with
    | none =>
      rw [h.absent id hjob] at hjob'
      cases hjob'
    | some job =>
      obtain ⟨job₁, hjob₁, hmove⟩ := h.row id job hjob
      obtain rfl := Option.some.inj (hjob₁.symm.trans hjob')
      rcases stampedJob_of_move hmove with rfl | hstamped
      · exact Or.inl rfl
      · exact Or.inr hstamped

theorem rewrites_completeJobAndAdvanceCursor (historyCursor : ℕ) :
    Rewrites StampedJob s.jobs
      (completeJobAndAdvanceCursor settings s clock claim historyCursor).1.jobs := by
  rw [completeJobAndAdvanceCursor]
  split
  · exact .refl _ _
  · rename_i job hlocked
    obtain ⟨hjob, -⟩ := heldBy_of_heldJob hlocked
    split
    · exact .update hjob (Or.inr .of_some)
    · split
      · exact .update hjob (Or.inr (stampedJob_of_state .pending rfl (by decide)))
      · exact .update hjob (Or.inr .of_some)

theorem rewrites_deadLetterJob (errorCode : String) :
    Rewrites StampedJob s.jobs (deadLetterJob s clock claim errorCode).jobs := by
  rw [deadLetterJob]
  split
  · exact .refl _ _
  · rename_i job hlocked
    exact .update (heldBy_of_heldJob hlocked).1 (Or.inr .of_some)

/-- **Every call but an insert rewrites jobs**, whether its cursor and its reasons are right or
not. -/
theorem rewritesJobs_of_step (hcall : call.isInsert = false)
    (hs : t.step settings call = some (u, o)) :
    Rewrites StampedJob t.store.jobs u.store.jobs := by
  cases hsettles : call.settlesJob with
  | false => exact rewrites_of_jobsMove (MailTables.jobsMove_of_unsettling hcall hsettles hs)
  | true =>
    cases call with
    | completeJob claim clock historyCursor =>
      obtain ⟨-, rfl, -⟩ := MailTables.eq_of_guarded hs
      exact rewrites_completeJobAndAdvanceCursor historyCursor
    | deadLetterJob claim clock errorCode =>
      obtain ⟨-, rfl, -⟩ := MailTables.eq_of_guarded hs
      exact rewrites_deadLetterJob errorCode
    | _ => cases hsettles

end

/-! ## Triage -/

def StampedTriage (record : TriageRecord) : Prop :=
  Stamped terminalTriageStates record.work.state record.work.processedAt

section

variable {settings : Settings} {t t' : TriageTable} {time : Time} {call : TriageTableCall}
  {answer : TriageTableAnswer} {record : TriageRecord}

theorem mem_terminalTriageStates {state : TriageState} :
    state ∈ terminalTriageStates ↔ state.terminal = true := by
  cases state <;> decide

theorem stampedTriage_of_processing (h : record.work.state = .processing) :
    StampedTriage record := .of_not_mem (by rw [h]; decide)

/-- An update of a row leaves the others as they were. -/
theorem mem_setWork {id : RowId} {work : GmailTriageWork}
    (h : record ∈ (t.setWork id work).records) : record ∈ t.records ∨ record.work = work := by
  obtain ⟨old, hold, rfl⟩ := List.mem_map.mp h
  split
  · exact Or.inr rfl
  · exact Or.inl hold

/-- **Every call stamps the triage rows that it ends.** -/
theorem stampedTriage_of_effect (h : TriageEffect settings t time call t' answer)
    (hstamped : ∀ record ∈ t.records, StampedTriage record) :
    ∀ record ∈ t'.records, StampedTriage record := by
  intro record hmem
  cases h with
  | nothing => exact hstamped record hmem
  | inserted =>
    rcases List.mem_append.mp hmem with hold | hnew
    · exact hstamped record hold
    · obtain rfl := List.mem_singleton.mp hnew
      exact stampedTriage_of_processing rfl
  | reclaimed row now hrow hrefuses =>
    rcases mem_setWork hmem with hold | hwork
    · exact hstamped record hold
    · refine .of_not_mem ?_
      rw [mem_terminalTriageStates, hwork, Bool.not_eq_true]
      exact (GmailTriageWork.refuses_eq_false hrefuses).1
  | finalized row claim args now hcall hrow =>
    rcases mem_setWork hmem with hold | hwork
    · exact hstamped record hold
    · rw [StampedTriage, hwork]
      exact .of_some
  | released row claim errorCode now hcall hrow hid hheld =>
    rcases mem_setWork hmem with hold | hwork
    · exact hstamped record hold
    · refine stampedTriage_of_processing ?_
      rw [hwork]
      exact hheld.1

end

end Onebox.Retention
