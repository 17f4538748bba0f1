import Onebox.PendingActions.Lifecycle
import Onebox.Transition.Journal

/-!
# The audit trail

The status of an action is written in several places, and each of them adds its own audit event:
some through `_audit` after the row has been changed, one helper for several callers, and the sweep
by hand for the rows that its update returns. The trail of an action is complete if each transaction
leaves in it what it did to the row; then the trail replays the row's life from `pending` to its
current status.
-/

namespace Onebox.PendingActions

open Python Transition

/-! ## One transaction -/

/-- A transaction on a row leaves a single event when it changes the status, or when it is an
inconclusive reconciliation, and none otherwise. -/
inductive Audited (inconclusive : Prop) (row : PendingAction) : Change → Prop
  | silent {row' : PendingAction} (id : row'.id = row.id) (status : row'.status = row.status) :
      Audited inconclusive row ⟨row', []⟩
  | recorded {row' : PendingAction} {event : PendingActionAuditEvent} (id : row'.id = row.id)
      (actionId : event.actionId = row.id) (oldStatus : event.oldStatus = row.status)
      (newStatus : event.newStatus = row'.status)
      (change : row'.status ≠ row.status ∨ inconclusive) :
      Audited inconclusive row ⟨row', [event]⟩

section

variable {inconclusive : Prop} {rules : PayloadRules} {clock : Clock} {token : String}
  {userId : UserId} {row : PendingAction}

theorem Audited.unchanged : Audited inconclusive row (.unchanged row) := .silent rfl rfl

/-- The helper audits a row that did not yet await reconciliation. -/
theorem audited_markReconciliationRequired (requiredAt processedAt : Time) (reason : String)
    (evidence : Evidence) (actor : Option UserId) (event : EventType) {status : ActionStatus}
    (hstatus : row.status = status) (hne : status ≠ .reconciliationRequired) :
    Audited inconclusive row
      (markReconciliationRequired requiredAt processedAt row reason evidence actor event) := by
  refine .recorded rfl rfl rfl rfl (Or.inl ?_)
  rw [hstatus]
  exact hne.symm

variable (rules clock token userId row) in
theorem audited_claimPendingAction :
    Audited inconclusive row (claimPendingAction rules clock token userId row).1 := by
  rw [claimPendingAction]
  dsimp only
  split
  · rename_i hlost
    exact audited_markReconciliationRequired _ _ _ _ _ _ hlost.1 (by rintro ⟨⟩)
  · split
    · rename_i hdue
      refine .recorded rfl rfl rfl rfl (Or.inl ?_)
      rw [hdue.1]
      rintro ⟨⟩
    · split
      · exact .unchanged
      · rename_i hne
        have hstatus : row.status = .pending := not_not.mp hne
        split
        · exact audited_markReconciliationRequired _ _ _ _ _ _ hstatus (by rintro ⟨⟩)
        · refine .recorded rfl rfl rfl rfl (Or.inl ?_)
          rw [hstatus]
          rintro ⟨⟩

theorem audited_rejectPendingAction {change : Change}
    (h : rejectPendingAction clock userId row = .ok change) : Audited inconclusive row change := by
  rw [rejectPendingAction] at h
  split at h
  · rename_i hstatus
    obtain rfl := by simpa using h
    refine .recorded rfl rfl rfl rfl (Or.inl ?_)
    rw [hstatus]
    rintro ⟨⟩
  · split at h
    · cases h
    · obtain rfl := by simpa using h
      exact .unchanged

theorem audited_sweepRow (inconclusive : Prop) (current : Time) (row : PendingAction) :
    Audited inconclusive row (ActionStore.sweepRow current row) := by
  rw [ActionStore.sweepRow, expireStaleAction]
  split
  · rename_i hdue
    refine .recorded rfl rfl hdue.1.symm rfl (Or.inl ?_)
    rw [hdue.1]
    rintro ⟨⟩
  · exact .unchanged

variable (clock token row) in
theorem audited_finalizeClaimedAction (args : FinalizeArgs) :
    Audited inconclusive row (finalizeClaimedAction clock token args row) := by
  rw [finalizeClaimedAction]
  split
  · rename_i hheld
    split
    · exact audited_markReconciliationRequired _ _ _ _ _ _ hheld.1 (by rintro ⟨⟩)
    · split
      · exact audited_markReconciliationRequired _ _ _ _ _ _ hheld.1 (by rintro ⟨⟩)
      · refine .recorded rfl rfl rfl rfl (Or.inl ?_)
        rw [hheld.1]
        rintro ⟨⟩
      · refine .recorded rfl rfl rfl rfl (Or.inl ?_)
        rw [hheld.1]
        rintro ⟨⟩
  · exact .unchanged

theorem audited_reconcilePromote {change : Change}
    (h : reconcilePromote clock userId row = .ok change) : Audited inconclusive row change := by
  rw [reconcilePromote] at h
  split at h
  · rename_i hexpired
    obtain rfl := by simpa using h
    exact audited_markReconciliationRequired _ _ _ _ _ _ hexpired.1 (by rintro ⟨⟩)
  · split at h
    · cases h
    · obtain rfl := by simpa using h
      exact .unchanged

/-- The one transaction that may leave an event without a change of status. -/
theorem audited_reconcileFinish (clock : Clock) (userId : UserId) (row : PendingAction)
    (outcome : ReconciliationResult) :
    Audited (outcome.status = .reconciliationRequired) row
      (reconcileFinish clock userId outcome row) := by
  rw [reconcileFinish]
  split
  · rename_i hstatus
    refine .recorded ?_ ?_ rfl rfl ?_
    · split
      · rfl
      · rfl
      · rfl
    · simp only [audit]
      split
      · rfl
      · rfl
      · rfl
    · split
      · refine Or.inl ?_
        rw [hstatus]
        rintro ⟨⟩
      · refine Or.inl ?_
        rw [hstatus]
        rintro ⟨⟩
      · rename_i hinconclusive
        exact Or.inr hinconclusive
  · exact .unchanged

end

/-! ## The trail of an action -/

/-- The events of an action, in commit order. -/
def ActionStore.trail (s : ActionStore) (id : ActionId) : List PendingActionAuditEvent :=
  s.audit.filter (·.actionId = id)

/-- The changes of status that events record. -/
def statusChanges (events : List PendingActionAuditEvent) : List (ActionStatus × ActionStatus) :=
  events.map fun event ↦ (event.oldStatus, event.newStatus)

/-- The call finishes an operator's reconciliation of the action without a result. -/
def StoreCall.Inconclusive (id : ActionId) : StoreCall → Prop
  | .reconcileFinish id' _ outcome _ => id' = id ∧ outcome.status = .reconciliationRequired
  | _ => False

/-- The rows are stored under their own ids. -/
def ActionStore.Keyed (s : ActionStore) : Prop := ∀ id row, s.rows id = some row → row.id = id

/-- What a call does to an action and to its trail. -/
inductive TrailStep (s t : ActionStore) (call : StoreCall) (id : ActionId) : Prop
  | absent (before : s.rows id = none)
      (staged : ∀ row, t.rows id = some row → row.id = id ∧ row.status = .pending)
      (trail : t.trail id = s.trail id)
  | audited (row : PendingAction) (change : Change) (before : s.rows id = some row)
      (after : t.rows id = some change.row) (trail : t.trail id = s.trail id ++ change.events)
      (audited : Audited (call.Inconclusive id) row change)

section

variable {rules : PayloadRules} {s t : ActionStore} {call : StoreCall} {o : Reply}
  {id other : ActionId} {row : PendingAction} {change : Change}

/-- A call that leaves the action and its trail alone. -/
theorem TrailStep.of_frame (hrows : t.rows id = s.rows id) (htrail : t.trail id = s.trail id) :
    TrailStep s t call id := by
  cases hrow : s.rows id with
  | none =>
    refine .absent hrow (fun row hsome ↦ ?_) htrail
    rw [hrows, hrow] at hsome
    cases hsome
  | some row =>
    refine .audited row (.unchanged row) hrow (hrows.trans hrow) ?_ .unchanged
    rw [htrail]
    exact (List.append_nil _).symm

theorem ActionStore.trail_put (s : ActionStore) (id other : ActionId) (change : Change) :
    (s.put id change).trail other =
      s.trail other ++ change.events.filter (·.actionId = other) := List.filter_append ..

/-- The events of a transaction are all about its row. -/
theorem Audited.filter_events {inconclusive : Prop} (h : Audited inconclusive row change) :
    change.events.filter (·.actionId = id) = if row.id = id then change.events else [] := by
  cases h with
  | silent => simp
  | recorded hid hactionId =>
    by_cases heq : row.id = id
    · simp [hactionId, heq]
    · simp [hactionId, heq]

/-- A transaction on one row. -/
theorem trailStep_put (hkeyed : s.Keyed) (hrow : s.rows id = some row)
    (haudited : Audited (call.Inconclusive id) row change) :
    TrailStep s (s.put id change) call other := by
  have hid := hkeyed id row hrow
  have htrail := s.trail_put id other change
  rw [haudited.filter_events, hid] at htrail
  by_cases heq : other = id
  · subst heq
    rw [if_pos rfl] at htrail
    exact .audited row change hrow (s.put_rows_self other change) htrail haudited
  · rw [if_neg (Ne.symm heq), List.append_nil] at htrail
    exact .of_frame (s.put_rows_of_ne heq change) htrail

/-- The insertion of an action. -/
theorem trailStep_stage (habsent : s.rows id = none) (hid : row.id = id)
    (hpending : row.status = .pending) : TrailStep s (s.put id (.unchanged row)) call other := by
  have htrail : (s.put id (.unchanged row)).trail other = s.trail other := by
    rw [s.trail_put]
    exact List.append_nil _
  by_cases heq : other = id
  · subst heq
    refine .absent habsent (fun row' hrow' ↦ ?_) htrail
    rw [s.put_rows_self] at hrow'
    obtain rfl := Option.some.inj hrow'
    exact ⟨hid, hpending⟩
  · exact .of_frame (s.put_rows_of_ne heq (.unchanged row)) htrail

/-- The events that a sweep of a row adds. -/
def ActionStore.sweptEvents (s : ActionStore) (current : Time) (id : ActionId) :
    List PendingActionAuditEvent :=
  match s.rows id with
  | none => []
  | some row => (sweepRow current row).events

theorem Audited.actionId_eq {inconclusive : Prop} (h : Audited inconclusive row change) :
    ∀ event ∈ change.events, event.actionId = row.id := by
  intro event hevent
  cases h with
  | silent => cases hevent
  | recorded _ hactionId =>
    obtain rfl := List.mem_singleton.mp hevent
    exact hactionId

/-- The sweep writes the events of its rows by hand, one for each. -/
theorem ActionStore.trail_sweep (hkeyed : s.Keyed) (current : Time) {ids : List ActionId}
    (hids : ids.Nodup) (id : ActionId) :
    (s.sweep current ids).trail id =
      s.trail id ++ if id ∈ ids then s.sweptEvents current id else [] := by
  have hown : ∀ id', ∀ event ∈ s.sweptEvents current id', event.actionId = id' := by
    intro id' event hevent
    rw [sweptEvents] at hevent
    split at hevent
    · cases hevent
    · rename_i row hrow
      rw [← hkeyed id' row hrow]
      exact (audited_sweepRow False current row).actionId_eq event hevent
  have haudit : (s.sweep current ids).audit = s.audit ++ ids.flatMap (s.sweptEvents current) := rfl
  rw [trail, haudit, List.filter_append, filter_flatMap_of_nodup hown hids]
  rfl

theorem trailStep_sweep (hkeyed : s.Keyed) (current : Time) {ids : List ActionId}
    (hids : ids.Nodup) : TrailStep s (s.sweep current ids) call id := by
  have htrail := ActionStore.trail_sweep hkeyed current hids id
  by_cases hmem : id ∈ ids
  · rw [if_pos hmem, ActionStore.sweptEvents] at htrail
    cases hrow : s.rows id with
    | none =>
      rw [hrow, List.append_nil] at htrail
      refine .of_frame ?_ htrail
      simp [ActionStore.sweep, hrow]
    | some row =>
      rw [hrow] at htrail
      refine .audited row (ActionStore.sweepRow current row) hrow ?_ htrail
        (audited_sweepRow _ current row)
      simp [ActionStore.sweep, hmem, hrow]
  · rw [if_neg hmem, List.append_nil] at htrail
    exact .of_frame (if_neg hmem) htrail

theorem Audited.mono {p q : Prop} (hpq : p → q) (h : Audited p row change) :
    Audited q row change := by
  cases h with
  | silent hid hstatus => exact .silent hid hstatus
  | recorded hid hactionId hold hnew hchange =>
    exact .recorded hid hactionId hold hnew (hchange.imp id hpq)

/-- **The step lemma of the trail.** -/
theorem trailStep_of_step (hkeyed : s.Keyed) (hs : s.step rules call = some (t, o))
    (id : ActionId) : TrailStep s t call id := by
  cases call with
  | create id' userId actionType payload commandKey clock =>
    rw [ActionStore.step] at hs
    split at hs
    · cases hs
    · rename_i habsent
      split at hs
      · obtain ⟨rfl, -⟩ := by simpa using hs
        exact .of_frame rfl rfl
      · obtain ⟨rfl, -⟩ := by simpa using hs
        exact trailStep_stage habsent rfl rfl
  | claim id' userId token clock =>
    rw [ActionStore.step] at hs
    split at hs
    · obtain ⟨rfl, -⟩ := by simpa using hs
      exact .of_frame rfl rfl
    · rename_i locked hlocked
      obtain ⟨rfl, -⟩ := by simpa using hs
      exact trailStep_put hkeyed (lockedForOwner_eq_ok hlocked)
        (audited_claimPendingAction rules clock token userId locked)
  | reject id' userId clock =>
    rw [ActionStore.step] at hs
    split at hs
    · obtain ⟨rfl, -⟩ := by simpa using hs
      exact .of_frame rfl rfl
    · rename_i locked hlocked
      split at hs
      · obtain ⟨rfl, -⟩ := by simpa using hs
        exact .of_frame rfl rfl
      · rename_i change hchange
        obtain ⟨rfl, -⟩ := by simpa using hs
        exact trailStep_put hkeyed (lockedForOwner_eq_ok hlocked)
          (audited_rejectPendingAction hchange)
  | expireStale current ids =>
    rw [ActionStore.step] at hs
    split at hs
    · rename_i hids
      obtain ⟨rfl, -⟩ := by simpa using hs
      exact trailStep_sweep hkeyed current hids
    · cases hs
  | finalize id' token args clock =>
    rw [ActionStore.step] at hs
    split at hs
    · obtain ⟨rfl, -⟩ := by simpa using hs
      exact .of_frame rfl rfl
    · rename_i locked hlocked
      obtain ⟨rfl, -⟩ := by simpa using hs
      exact trailStep_put hkeyed hlocked (audited_finalizeClaimedAction clock token locked args)
  | reconcilePromote id' operatorUserId clock =>
    rw [ActionStore.step] at hs
    split at hs
    · obtain ⟨rfl, -⟩ := by simpa using hs
      exact .of_frame rfl rfl
    · rename_i locked hlocked
      split at hs
      · obtain ⟨rfl, -⟩ := by simpa using hs
        exact .of_frame rfl rfl
      · rename_i change hchange
        obtain ⟨rfl, -⟩ := by simpa using hs
        exact trailStep_put hkeyed hlocked (audited_reconcilePromote hchange)
  | reconcileFinish id' operatorUserId outcome clock =>
    rw [ActionStore.step] at hs
    split at hs
    · obtain ⟨rfl, -⟩ := by simpa using hs
      exact .of_frame rfl rfl
    · rename_i locked hlocked
      obtain ⟨rfl, -⟩ := by simpa using hs
      refine trailStep_put hkeyed hlocked ?_
      exact (audited_reconcileFinish clock operatorUserId locked outcome).mono fun h ↦ ⟨rfl, h⟩

end

/-! ## The trail replays the life of the action -/

/-- The trail of each action replays its life; there is none of an action that is not there. -/
structure ActionStore.Chronicled (s : ActionStore) : Prop where
  keyed : s.Keyed
  absent : ∀ id, s.rows id = none → s.trail id = []
  replays : ∀ id row, s.rows id = some row →
    Replays .pending (statusChanges (s.trail id)) row.status

section

variable {rules : PayloadRules} {s t : ActionStore} {call : StoreCall} {o : Reply}
  {tr : List (StoreCall × Reply)} {id : ActionId} {row : PendingAction}

theorem replays_audited {inconclusive : Prop} {change : Change}
    {events : List PendingActionAuditEvent}
    (h : Replays .pending (statusChanges events) row.status)
    (haudited : Audited inconclusive row change) :
    Replays .pending (statusChanges (events ++ change.events)) change.row.status := by
  cases haudited with
  | silent _ hstatus =>
    rw [hstatus, List.append_nil]
    exact h
  | recorded _ _ hold hnew =>
    rw [statusChanges, List.map_append, List.map_singleton, hold, hnew]
    exact h.snoc

theorem Audited.id_eq {inconclusive : Prop} {change : Change}
    (h : Audited inconclusive row change) : change.row.id = row.id := by
  cases h with
  | silent hid => exact hid
  | recorded hid => exact hid

/-- The step lemma. -/
theorem ActionStore.Chronicled.step (hI : s.Chronicled) (hs : s.step rules call = some (t, o)) :
    t.Chronicled where
  keyed id row hrow := by
    rcases trailStep_of_step hI.keyed hs id with ⟨-, hstaged, -⟩ |
      ⟨row', change, hbefore, hafter, -, haudited⟩
    · exact (hstaged row hrow).1
    · obtain rfl := Option.some.inj (hafter.symm.trans hrow)
      exact haudited.id_eq.trans (hI.keyed id row' hbefore)
  absent id hnone := by
    rcases trailStep_of_step hI.keyed hs id with ⟨hbefore, -, htrail⟩ |
      ⟨row', change, -, hafter, -, -⟩
    · rw [htrail]
      exact hI.absent id hbefore
    · rw [hnone] at hafter
      cases hafter
  replays id row hrow := by
    rcases trailStep_of_step hI.keyed hs id with ⟨hbefore, hstaged, htrail⟩ |
      ⟨row', change, hbefore, hafter, htrail, haudited⟩
    · rw [htrail, hI.absent id hbefore, (hstaged row hrow).2]
      rfl
    · obtain rfl := Option.some.inj (hafter.symm.trans hrow)
      rw [htrail]
      exact replays_audited (hI.replays id row' hbefore) haudited

/-- The trail of an action replays, also before the action is there. -/
theorem ActionStore.Chronicled.exists_replays (hI : s.Chronicled) (id : ActionId) :
    ∃ status, Replays .pending (statusChanges (s.trail id)) status := by
  cases hrow : s.rows id with
  | none =>
    rw [hI.absent id hrow]
    exact ⟨.pending, rfl⟩
  | some row => exact ⟨row.status, hI.replays id row hrow⟩

/-- A table on which the service starts: the actions that are there are pending, and the log is
empty. -/
structure ActionStore.FreshlyStaged (s : ActionStore) : Prop where
  keyed : s.Keyed
  pending : ∀ id row, s.rows id = some row → row.status = .pending
  audit : s.audit = []

theorem ActionStore.FreshlyStaged.chronicled (h : s.FreshlyStaged) : s.Chronicled where
  keyed := h.keyed
  absent id _ := by
    rw [trail, h.audit]
    rfl
  replays id row hrow := by
    rw [trail, h.audit, h.pending id row hrow]
    rfl

/-- The run lemma. -/
theorem chronicled_of_run (hinit : s.FreshlyStaged)
    (hrun : System.Run (actionService rules) System.anyStep s tr t) : t.Chronicled :=
  hrun.invariant hinit.chronicled fun _ _ _ _ hI _ hs ↦ hI.step hs

/-- An event that records no change was written by an inconclusive reconciliation. -/
theorem inconclusive_of_run (hinit : s.FreshlyStaged)
    (hrun : System.Run (actionService rules) System.anyStep s tr t) (id : ActionId) :
    ∀ event ∈ t.trail id, event.oldStatus = event.newStatus →
      ∃ call o, (call, o) ∈ tr ∧ call.Inconclusive id := by
  induction hrun with
  | nil =>
    intro event hevent
    rw [ActionStore.trail, hinit.audit] at hevent
    cases hevent
  | @snoc t u tr call o hprefix _ hs ih =>
    intro event hevent hsame
    have hstep := trailStep_of_step (chronicled_of_run hinit hprefix).keyed hs id
    have hearlier : event ∈ t.trail id →
        ∃ call' o', (call', o') ∈ tr ++ [(call, o)] ∧ call'.Inconclusive id := by
      intro hold
      obtain ⟨call', o', hmem, hinconclusive⟩ := ih event hold hsame
      exact ⟨call', o', List.mem_append_left _ hmem, hinconclusive⟩
    rcases hstep with ⟨-, -, htrail⟩ | ⟨row, change, -, -, htrail, haudited⟩
    · exact hearlier (htrail ▸ hevent)
    · rw [htrail] at hevent
      rcases List.mem_append.mp hevent with hold | hnew
      · exact hearlier hold
      · cases haudited with
        | silent => cases hnew
        | recorded _ _ hold' hnew' hchange =>
          obtain rfl := List.mem_singleton.mp hnew
          rw [hold', hnew'] at hsame
          have hinconclusive := hchange.resolve_left fun hne ↦ hne hsame.symm
          exact ⟨call, o, List.mem_append_right _ (List.mem_singleton_self _), hinconclusive⟩

end

/-- What the audit log says about every action, after every interleaving of the calls. -/
structure AuditReconstructs (rules : PayloadRules) : Prop where
  /-- A trail starts with an action that is pending. -/
  first : ∀ {s t tr}, s.FreshlyStaged → System.Run (actionService rules) System.anyStep s tr t →
    ∀ id event, (t.trail id).head? = some event → event.oldStatus = .pending
  /-- Each event starts from the status that the one before it left. -/
  linked : ∀ {s t tr}, s.FreshlyStaged → System.Run (actionService rules) System.anyStep s tr t →
    ∀ id, (t.trail id).IsChain fun event event' ↦ event'.oldStatus = event.newStatus
  /-- The last event leaves the status of the row; an action without events is pending. -/
  last : ∀ {s t tr}, s.FreshlyStaged → System.Run (actionService rules) System.anyStep s tr t →
    ∀ id row, t.rows id = some row →
      ((t.trail id).getLast?.map (·.newStatus)).getD .pending = row.status
  /-- A change of status adds exactly its event. -/
  changed : ∀ {s t u tr call o}, s.FreshlyStaged →
    System.Run (actionService rules) System.anyStep s tr t → t.step rules call = some (u, o) →
    ∀ id row row', t.rows id = some row → u.rows id = some row' → row'.status ≠ row.status →
      ∃ event, u.trail id = t.trail id ++ [event] ∧ event.oldStatus = row.status ∧
        event.newStatus = row'.status
  /-- No other call adds an event, except for an inconclusive reconciliation. -/
  unchanged : ∀ {s t u tr call o}, s.FreshlyStaged →
    System.Run (actionService rules) System.anyStep s tr t → t.step rules call = some (u, o) →
    ∀ id, (∀ row row', t.rows id = some row → u.rows id = some row' → row'.status = row.status) →
      u.trail id = t.trail id ∨ call.Inconclusive id
  /-- An event that records no change is that of an inconclusive reconciliation. -/
  repeated : ∀ {s t tr}, s.FreshlyStaged → System.Run (actionService rules) System.anyStep s tr t →
    ∀ id, ∀ event ∈ t.trail id, event.oldStatus = event.newStatus →
      ∃ call o, (call, o) ∈ tr ∧ call.Inconclusive id

/-- **The audit log reconstructs the lifecycle.** -/
theorem auditReconstructs (rules : PayloadRules) : AuditReconstructs rules where
  first hinit hrun id event hhead := by
    obtain ⟨status, hreplays⟩ := (chronicled_of_run hinit hrun).exists_replays id
    refine hreplays.head (event.oldStatus, event.newStatus) ?_
    rw [statusChanges, List.head?_map, hhead]
    rfl
  linked hinit hrun id := by
    obtain ⟨status, hreplays⟩ := (chronicled_of_run hinit hrun).exists_replays id
    exact (List.isChain_map _).mp hreplays.isChain
  last hinit hrun id row hrow := by
    have hlast := ((chronicled_of_run hinit hrun).replays id row hrow).getLast
    rw [statusChanges, List.getLast?_map, Option.map_map] at hlast
    exact hlast
  changed hinit hrun hs id row row' hrow hrow' hne := by
    rcases trailStep_of_step (chronicled_of_run hinit hrun).keyed hs id with ⟨hnone, -, -⟩ |
      ⟨before, change, hbefore, hafter, htrail, haudited⟩
    · rw [hnone] at hrow
      cases hrow
    · obtain rfl := Option.some.inj (hbefore.symm.trans hrow)
      obtain rfl := Option.some.inj (hafter.symm.trans hrow')
      cases haudited with
      -- What is not recorded keeps the status.
      | silent _ hstatus => exact absurd hstatus hne
      | recorded _ _ hold hnew => exact ⟨_, htrail, hold, hnew⟩
  unchanged hinit hrun hs id hsame := by
    rcases trailStep_of_step (chronicled_of_run hinit hrun).keyed hs id with ⟨-, -, htrail⟩ |
      ⟨before, change, hbefore, hafter, htrail, haudited⟩
    · exact Or.inl htrail
    -- Without a change of the status only an inconclusive reconciliation is recorded.
    · have hstatus := hsame before change.row hbefore hafter
      cases haudited with
      | silent =>
        rw [List.append_nil] at htrail
        exact Or.inl htrail
      | recorded _ _ _ _ hchange => exact Or.inr (hchange.resolve_left fun hne ↦ hne hstatus)
  repeated hinit hrun id := inconclusive_of_run hinit hrun id

end Onebox.PendingActions
