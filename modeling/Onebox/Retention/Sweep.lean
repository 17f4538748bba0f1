import Onebox.Retention.Stamped

/-!
# The sweep in batches

However the database orders the rows, and whatever the size of a batch, the rounds of
`expire_stale_actions` come to an end and add up to one sweep over the stale rows that nobody holds
locked.
-/

namespace Onebox.Retention

open Python Transition Tables PendingActions Notifications

/-- The action is one that a sweep expires. -/
def Stale (locked : ActionId → Bool) (current : Time) (row : PendingAction) : Prop :=
  row.status = .pending ∧ row.expiresAt ≤ current ∧ locked row.id = false

theorem staleUnlocked_iff {locked : ActionId → Bool} {current : Time} {row : PendingAction} :
    staleUnlocked locked current row = true ↔ Stale locked current row := decide_eq_true_iff

/-- The event that a sweep adds for an action. -/
def sweptEvent (id : ActionId) : PendingActionAuditEvent where
  actionId := id
  actorUserId := none
  eventType := .expired
  oldStatus := .pending
  newStatus := .expired
  attemptToken := none
  reason := some "swept_after_expiry"
  evidence := none

section

variable {limit fuel : ℕ} {plan : QueryPlan} {locked : ActionId → Bool} {current : Time}
  {ids batch more : List ActionId} {s : ActionStore} {id : ActionId} {row : PendingAction}

/-! ## One row -/

theorem sweepRow_of_stale (h : Stale locked current row) :
    ActionStore.sweepRow current row =
      ⟨{ row with status := .expired, processedAt := some current }, [sweptEvent row.id]⟩ := by
  rw [ActionStore.sweepRow, expireStaleAction, if_pos ⟨h.1, h.2.1⟩]
  rfl

/-- No row is stale after it has been swept. -/
theorem not_stale_sweepRow (row : PendingAction) :
    ¬Stale locked current (ActionStore.sweepRow current row).row := by
  rw [ActionStore.sweepRow, expireStaleAction]
  split
  · exact fun h ↦ by cases h.1
  · rename_i hfresh
    exact fun h ↦ hfresh ⟨h.1, h.2.1⟩

theorem sweep_rows_of_mem (hrow : s.rows id = some row) (hmem : id ∈ ids) :
    (s.sweep current ids).rows id = some (ActionStore.sweepRow current row).row := by
  rw [ActionStore.sweep]
  dsimp only
  rw [if_pos hmem, hrow]
  rfl

theorem sweep_rows_of_not_mem (hmem : id ∉ ids) :
    (s.sweep current ids).rows id = s.rows id := if_neg hmem

theorem sweep_nil (s : ActionStore) (current : Time) : s.sweep current [] = s := by
  have haudit : s.audit ++ [] = s.audit := List.append_nil _
  rw [ActionStore.sweep]
  simp only [List.not_mem_nil, if_false, List.flatMap_nil, haudit]

/-- Sweeping twice is sweeping once, as long as no row is swept twice. -/
theorem sweep_sweep (hdisjoint : batch.Disjoint more) :
    (s.sweep current batch).sweep current more = s.sweep current (batch ++ more) := by
  have hrows : ∀ id ∈ more, (s.sweep current batch).rows id = s.rows id := fun id hmem ↦
    sweep_rows_of_not_mem fun hbatch ↦ hdisjoint hbatch hmem
  rw [ActionStore.sweep, ActionStore.sweep.eq_def s current (batch ++ more)]
  congr 1
  · funext id
    by_cases hmore : id ∈ more
    · rw [if_pos hmore, hrows id hmore, if_pos (List.mem_append_right _ hmore)]
    · rw [if_neg hmore, ActionStore.sweep]
      simp only [List.mem_append, hmore, or_false]
  · rw [List.flatMap_append, ← List.append_assoc]
    congr 1
    exact List.flatMap_congr fun id hmem ↦ by rw [hrows id hmem]

theorem keyed_sweep (h : s.Keyed) : (s.sweep current ids).Keyed := by
  intro id row' hrow'
  by_cases hmem : id ∈ ids
  · cases hrow : s.rows id with
    | none =>
      rw [ActionStore.sweep] at hrow'
      dsimp only at hrow'
      rw [if_pos hmem, hrow] at hrow'
      cases hrow'
    | some row =>
      rw [sweep_rows_of_mem hrow hmem] at hrow'
      obtain rfl := Option.some.inj hrow'
      exact (audited_sweepRow False current row).id_eq.trans (h id row hrow)
  · rw [sweep_rows_of_not_mem hmem] at hrow'
    exact h id row' hrow'

/-! ## All rounds -/

/-- What is still to be swept after a batch. -/
theorem keysWhere_sweep (s : ActionStore) (ids batch : List ActionId) :
    keysWhere (s.sweep current batch).rows ids (staleUnlocked locked current) =
      (keysWhere s.rows ids (staleUnlocked locked current)).filter (· ∉ batch) := by
  rw [keysWhere, keysWhere, List.filter_filter]
  refine List.filter_congr fun id _ ↦ ?_
  by_cases hmem : id ∈ batch
  · cases hrow : s.rows id with
    | none => simp [ActionStore.sweep, hmem, hrow]
    | some row =>
      have hswept : staleUnlocked locked current (ActionStore.sweepRow current row).row = false :=
        Bool.eq_false_iff.mpr (mt staleUnlocked_iff.mp (not_stale_sweepRow row))
      rw [sweep_rows_of_mem hrow hmem]
      simp [hmem, hswept]
  · rw [sweep_rows_of_not_mem hmem]
    simp [hmem]

theorem takesBatches_sweepBatch (limit : ℕ) (plan : QueryPlan) (locked : ActionId → Bool)
    (current : Time) (ids : List ActionId) :
    TakesBatches (sweepBatch limit plan locked current ids) limit
      (fun s ↦ KeysOf s.rows ids ∧ s.Keyed)
      (fun s ↦ keysWhere s.rows ids (staleUnlocked locked current))
      (fun s batch ↦ s.sweep current batch) where
  round s hI := by
    obtain ⟨hkeys, hkeyed⟩ := hI
    generalize hstale :
      plan.sort ((ids.filterMap s.rows).filter (staleUnlocked locked current)) = stale
    have hperm : (keysWhere s.rows ids (staleUnlocked locked current)).Perm (stale.map (·.id)) := by
      rw [← map_filter_filterMap (fun row : PendingAction ↦ row.id) hkeyed, ← hstale]
      exact (plan.sort_perm _).symm.map _
    have hbatch := plan.returned_perm ((stale.take limit).map (·.id))
    have hparts : (keysWhere s.rows ids (staleUnlocked locked current)).Perm
        (plan.returned ((stale.take limit).map (·.id)) ++ (stale.drop limit).map (·.id)) := by
      refine hperm.trans ((List.Perm.of_eq ?_).trans (hbatch.symm.append_right _))
      rw [← List.map_append, List.take_append_drop]
    refine ⟨_, _, hparts, ?_, by rw [sweepBatch, hstale], ⟨?_, keyed_sweep hkeyed⟩, ?_⟩
    · rw [hbatch.length_eq, hperm.length_eq, List.length_map, List.length_map, List.length_take]
    · exact hkeys.rewrite (rewrites_sweep s current _)
    · -- What is left is what the batch has not taken.
      have hnodup := hparts.nodup_iff.mp hkeys.nodup_keysWhere
      rw [keysWhere_sweep]
      refine (hparts.filter _).trans (List.Perm.of_eq ?_)
      rw [List.filter_append, List.filter_eq_nil_iff.mpr, List.nil_append,
        List.filter_eq_self.mpr]
      · exact fun id hrest ↦ decide_eq_true fun hmem ↦
          (List.nodup_append.mp hnodup).2.2 id hmem id hrest rfl
      · exact fun id hmem ↦ by simpa using hmem
  after_append s batch more hI hperm := by
    refine sweep_sweep fun id hbatch hmore ↦ ?_
    have hnodup := hperm.nodup_iff.mp hI.1.nodup_keysWhere
    exact (List.nodup_append.mp hnodup).2.2 id hbatch id hmore rfl

/-! ## The whole sweep -/

/-- The ids of the stale actions that nobody holds locked. -/
structure AllStale (s : ActionStore) (locked : ActionId → Bool) (current : Time)
    (swept : List ActionId) : Prop where
  nodup : swept.Nodup
  mem_iff : ∀ id, id ∈ swept ↔ ∃ row, s.rows id = some row ∧ Stale locked current row

/-- **The rounds are one sweep** over all rows that are stale and not locked. -/
theorem exists_expireStaleActions (plan : QueryPlan) (locked : ActionId → Bool) (now : Option Time)
    (clock : Clock) (hlimit : 0 < limit) (hkeys : KeysOf s.rows ids) (hkeyed : s.Keyed) :
    ∃ swept, AllStale s locked (now.getD (clock 0)) swept ∧
      ∀ fuel, swept.length < fuel →
        expireStaleActions limit plan locked now clock fuel ids s =
          some (s.sweep (now.getD (clock 0)) swept, swept.length) := by
  obtain ⟨swept, hperm, hdrain⟩ :=
    (takesBatches_sweepBatch limit plan locked (now.getD (clock 0)) ids).drain_eq hlimit
      _ 0 s ⟨hkeys, hkeyed⟩ (Nat.lt_succ_self _)
  refine ⟨swept, ⟨hperm.nodup_iff.mpr hkeys.nodup_keysWhere, fun id ↦ ?_⟩, fun fuel hfuel ↦ ?_⟩
  · rw [hperm.mem_iff, hkeys.mem_keysWhere]
    simp only [staleUnlocked_iff]
  · rw [hperm.length_eq] at hfuel
    rw [Nat.zero_add] at hdrain
    exact drain_mono hfuel hdrain

/-- A stale action is marked, with one event. -/
theorem AllStale.sweep_of_stale (h : AllStale s locked current ids) (hkeyed : s.Keyed)
    (hrow : s.rows id = some row) (hstale : Stale locked current row) :
    (s.sweep current ids).rows id =
        some { row with status := .expired, processedAt := some current } ∧
      (s.sweep current ids).trail id = s.trail id ++ [sweptEvent id] := by
  have hin := (h.mem_iff id).mpr ⟨row, hrow, hstale⟩
  constructor
  · rw [sweep_rows_of_mem hrow hin, sweepRow_of_stale hstale]
  · rw [ActionStore.trail_sweep hkeyed current h.nodup, if_pos hin, ActionStore.sweptEvents, hrow]
    dsimp only
    rw [sweepRow_of_stale hstale, hkeyed id row hrow]

/-- Any other action, and an id without one, is left alone. -/
theorem AllStale.sweep_of_fresh (h : AllStale s locked current ids) (hkeyed : s.Keyed)
    (hfresh : ∀ row, s.rows id = some row → ¬Stale locked current row) :
    (s.sweep current ids).rows id = s.rows id ∧ (s.sweep current ids).trail id = s.trail id := by
  have hout : id ∉ ids := fun hin ↦ by
    obtain ⟨row, hrow, hstale⟩ := (h.mem_iff id).mp hin
    exact hfresh row hrow hstale
  refine ⟨sweep_rows_of_not_mem hout, ?_⟩
  rw [ActionStore.trail_sweep hkeyed current h.nodup, if_neg hout, List.append_nil]

end

end Onebox.Retention
