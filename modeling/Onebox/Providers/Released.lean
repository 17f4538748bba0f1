import Onebox.Providers.Conserved

/-!
# Slots and locks are released once

In every run each slot and each lock is released at most once, never while the operation is in the
executor, and in the end exactly once.
-/

namespace Onebox.Providers

open Transition

section

variable {R : Type*} [DecidableEq R] {maxWorkers : ℕ} {w : Runner R} {c : Call R}
  {w' : Runner R × Call R}

/-! ## The guarantee -/

/-- What holds of the runner and its calls in every state of every run. -/
structure Runner.Safe (maxWorkers : ℕ) (w : Runner R) : Prop where
  /-- No `release()` ever raises. -/
  no_faults : w.faults = 0
  /-- Free and occupied slots are all slots. -/
  slots : w.slots + w.calls.countP (·.slot.held) = maxWorkers
  /-- The executor never has more operations than threads. -/
  executor : w.calls.countP (·.operation.active) ≤ maxWorkers
  /-- No slot and no lock is released twice, or without having been acquired. -/
  at_most_once : ∀ c ∈ w.calls, (c.slot.released ≤ c.slot.acquired ∧ c.slot.acquired ≤ 1) ∧
    c.lock.released ≤ c.lock.acquired ∧ c.lock.acquired ≤ 1
  /-- None is released while the operation is in the executor. -/
  not_before : ∀ c ∈ w.calls, c.operation.active = true →
    c.slot = ⟨1, 0⟩ ∧ (c.resource.isSome → c.lock = ⟨1, 0⟩)
  /-- A resource has at most one operation. -/
  one_per_resource : ∀ r,
    w.calls.countP (fun c ↦ c.resource = some r && c.operation.active) ≤ 1
  /-- A lock is taken exactly while a call has it. -/
  locked_iff : ∀ r, w.locked r = true ↔ ∃ c ∈ w.calls, c.holds r = true

/-- What was acquired has been released, and all is free. -/
structure Runner.AllFree (maxWorkers : ℕ) (w : Runner R) : Prop where
  slots : w.slots = maxWorkers
  locks : ∀ r, w.locked r = false
  exactly_once : ∀ c ∈ w.calls, c.slot.released = c.slot.acquired ∧
    c.lock.released = c.lock.acquired

omit [DecidableEq R] in
/-- A call whose operation is in the executor has its slot and its lock. -/
theorem Call.Consistent.of_active (h : c.Consistent) (hactive : c.operation.active = true) :
    c.slot = ⟨1, 0⟩ ∧ c.lock = c.ownLock := by
  have haccounted := h.accounted
  rw [Call.Accounted] at haccounted
  cases hphase : c.phase with
  | lockWait | slotWait | granted =>
    rw [hphase] at haccounted
    rw [haccounted.2.2] at hactive
    cases hactive
  | executing | detached =>
    rw [hphase] at haccounted
    exact ⟨haccounted.1, haccounted.2.1⟩
  | ended =>
    rw [hphase] at haccounted
    rw [haccounted.2.2] at hactive
    cases hactive

omit [DecidableEq R] in
theorem Call.ownLock_eq (c : Call R) : c.ownLock = ⟨0, 0⟩ ∨ c.ownLock = ⟨1, 0⟩ := by
  rw [ownLock]
  split
  · exact Or.inr rfl
  · exact Or.inl rfl

omit [DecidableEq R] in
/-- The tallies of a call. -/
theorem Call.Consistent.tallies (h : c.Consistent) :
    (c.slot = ⟨0, 0⟩ ∨ c.slot = ⟨1, 0⟩ ∨ c.slot = ⟨1, 1⟩) ∧
      (c.lock = ⟨0, 0⟩ ∨ c.lock = ⟨1, 0⟩ ∨ c.lock = ⟨1, 1⟩) := by
  have haccounted := h.accounted
  rw [Call.Accounted] at haccounted
  have hown := c.ownLock_eq
  cases hphase : c.phase with
  | lockWait =>
    rw [hphase] at haccounted
    exact ⟨Or.inl haccounted.1, Or.inl haccounted.2.1⟩
  | slotWait =>
    rw [hphase] at haccounted
    rw [haccounted.2.1]
    exact ⟨Or.inl haccounted.1, hown.imp_right Or.inl⟩
  | granted | executing | detached =>
    rw [hphase] at haccounted
    rw [haccounted.2.1]
    exact ⟨Or.inr (Or.inl haccounted.1), hown.imp_right Or.inl⟩
  | ended =>
    rw [hphase] at haccounted
    exact ⟨haccounted.1.imp_right Or.inr, haccounted.2.1.imp_right Or.inr⟩

namespace Runner.Conserved

variable (h : w.Conserved maxWorkers)

include h

theorem safe : w.Safe maxWorkers where
  no_faults := h.no_faults
  slots := h.slots
  executor := by
    -- An operation runs only under a slot that its call holds, and slots are counted.
    have hle : w.calls.countP (·.operation.active) ≤ w.calls.countP (·.slot.held) := by
      refine List.countP_mono_left fun c hc hactive ↦ ?_
      rw [((h.consistent c hc).of_active hactive).1]
      rfl
    have := h.slots
    omega
  at_most_once c hc := by
    obtain ⟨hslot, hlock⟩ := (h.consistent c hc).tallies
    constructor
    · rcases hslot with hslot | hslot | hslot
      all_goals
        rw [hslot]
        decide
    · rcases hlock with hlock | hlock | hlock
      all_goals
        rw [hlock]
        decide
  not_before c hc hactive := by
    obtain ⟨hslot, hlock⟩ := (h.consistent c hc).of_active hactive
    refine ⟨hslot, fun hsome ↦ ?_⟩
    rw [hlock, Call.ownLock, if_pos hsome]
  one_per_resource r := by
    have hle : w.calls.countP (fun c ↦ c.resource = some r && c.operation.active) ≤
        w.calls.countP (·.holds r) := by
      refine List.countP_mono_left fun c hc hboth ↦ ?_
      obtain ⟨hresource, hactive⟩ := Bool.and_eq_true_iff.mp hboth
      have hlock := ((h.consistent c hc).of_active hactive).2
      rw [Call.ownLock, of_decide_eq_true hresource] at hlock
      rw [Call.holds, hresource, hlock]
      rfl
    rw [h.locks] at hle
    exact Nat.le_trans hle (Bool.toNat_le _)
  locked_iff r := by
    have hpos : (∃ c ∈ w.calls, c.holds r = true) ↔ 0 < w.calls.countP (·.holds r) :=
      List.countP_pos_iff.symm
    rw [hpos, h.locks]
    cases w.locked r with
    | true => exact iff_of_true rfl Nat.one_pos
    | false => exact iff_of_false Bool.false_ne_true (Nat.lt_irrefl 0)

/-- **When no call is left, all is free.** -/
theorem allFree (hended : ∀ c ∈ w.calls, c.phase = .ended) : w.AllFree maxWorkers := by
  have hreleased : ∀ c ∈ w.calls, (c.slot = ⟨0, 0⟩ ∨ c.slot = ⟨1, 1⟩) ∧
      (c.lock = ⟨0, 0⟩ ∨ c.lock = ⟨1, 1⟩) := by
    intro c hc
    have haccounted := (h.consistent c hc).accounted
    rw [Call.Accounted, hended c hc] at haccounted
    exact ⟨haccounted.1, haccounted.2.1⟩
  refine ⟨?_, ?_, ?_⟩
  · have hnone : w.calls.countP (·.slot.held) = 0 := by
      refine List.countP_eq_zero.mpr fun c hc ↦ ?_
      rcases (hreleased c hc).1 with hslot | hslot
      all_goals
        rw [hslot]
        decide
    have := h.slots
    omega
  · intro r
    have hnone : w.calls.countP (·.holds r) = 0 := by
      refine List.countP_eq_zero.mpr fun c hc ↦ ?_
      have hheld : c.lock.held = false := by
        rcases (hreleased c hc).2 with hlock | hlock
        all_goals
          rw [hlock]
          rfl
      rw [Call.holds, hheld, Bool.and_false]
      exact Bool.false_ne_true
    rw [h.locks] at hnone
    cases hlocked : w.locked r with
    | true =>
      rw [hlocked] at hnone
      cases hnone
    | false => rfl
  · intro c hc
    obtain ⟨hslot, hlock⟩ := hreleased c hc
    constructor
    · rcases hslot with hslot | hslot
      all_goals rw [hslot]
    · rcases hlock with hlock | hlock
      all_goals rw [hlock]

end Runner.Conserved

/-! ### When all threads have exited -/

omit [DecidableEq R] in
theorem set_self {calls : List (Call R)} {n : ℕ} (h : calls[n]? = some c) :
    calls.set n c = calls := by
  obtain ⟨hn, rfl⟩ := List.getElem?_eq_some_iff.mp h
  exact List.set_getElem_self hn

/-- The events that need no thread, and begin nothing. -/
def Event.winding : Event R → Bool
  | .giveUp _ | .complete _ | .resume _ | .releaseWhenFinished _ => true
  | .begin _ | .acquireLock _ _ | .grantSlot _ | .submit _ _ | .startThread _ | .exitThread _ =>
    false

/-- A run of such events. -/
def Winds (maxWorkers : ℕ) (w w' : Runner R) : Prop :=
  ∃ tr, (runner R maxWorkers).Run (fun _ e ↦ e.winding = true) w tr w'

theorem winds_step {e : Event R} {n : ℕ} (he : e.winding = true) (hn : e.call = n)
    (hc : w.calls[n]? = some c) (hs : callStep maxWorkers (w, c) e = some w') :
    Winds maxWorkers w { w'.1 with calls := w'.1.calls.set n w'.2 } := by
  refine ⟨[(e, ())], System.Run.single he ?_⟩
  subst hn
  change step maxWorkers w e = _
  rw [step.eq_def]
  split
  · cases he
  · rw [hc]
    dsimp only
    rw [hs]
    rfl

theorem Winds.trans {w₁ w₂ w₃ : Runner R} (h : Winds maxWorkers w₁ w₂)
    (h' : Winds maxWorkers w₂ w₃) : Winds maxWorkers w₁ w₃ := by
  obtain ⟨tr, hrun⟩ := h
  obtain ⟨tr', hrun'⟩ := h'
  exact ⟨tr ++ tr', hrun.append hrun'⟩

theorem Winds.conserved {w₁ w₂ : Runner R} (h : Winds maxWorkers w₁ w₂)
    (hconserved : w₁.Conserved maxWorkers) : w₂.Conserved maxWorkers := by
  obtain ⟨tr, hrun⟩ := h
  exact hrun.invariant hconserved fun _ _ _ _ hI _ hs ↦ hI.step hs

section

variable (h : w.Conserved maxWorkers) {n : ℕ} (hc : w.calls[n]? = some c)

include h hc

/-- A step that ends a call changes no other. -/
theorem winds_ended {e : Event R} (he : e.winding = true) (hn : e.call = n)
    (hs : callStep maxWorkers (w, c) e = some w') (hended : w'.2.phase = .ended) :
    ∃ v c', Winds maxWorkers w v ∧ v.calls = w.calls.set n c' ∧ c'.phase = .ended := by
  have hmem := List.mem_of_getElem? hc
  have hmoves := (callStep_moves (u := (w, c)) (h.consistent c hmem) (h.slots_lt hmem)
    (fun r ↦ h.locked hmem) hs).1
  have hcalls : w'.1.calls = w.calls := hmoves.calls
  refine ⟨_, w'.2, winds_step he hn hc hs, ?_, hended⟩
  dsimp only
  rw [hcalls]

/-- A call that waits for the lock or for a slot is ended by a timeout. -/
theorem winds_of_waiting (hphase : c.phase = .lockWait ∨ c.phase = .slotWait ∨ c.phase = .granted) :
    ∃ v c', Winds maxWorkers w v ∧ v.calls = w.calls.set n c' ∧ c'.phase = .ended := by
  obtain ⟨w', hs, hended⟩ : ∃ w', giveUp maxWorkers (w, c) = some w' ∧ w'.2.phase = .ended := by
    rw [giveUp]
    rcases hphase with hphase | hphase | hphase
    all_goals
      dsimp only
      rw [hphase]
      exact ⟨_, rfl, rfl⟩
  exact winds_ended h hc (e := .giveUp n) rfl rfl hs hended

omit h in
/-- The loop learns that the thread has exited. -/
theorem winds_done (hexited : c.operation = .exited) :
    ∃ v, Winds maxWorkers w v ∧ v.calls = w.calls.set n { c with done := true } := by
  cases hdone : c.done with
  | true =>
    refine ⟨w, ⟨[], System.Run.nil w⟩, ?_⟩
    rw [← hdone]
    exact (set_self hc).symm
  | false =>
    refine ⟨_, winds_step (e := .complete n) rfl rfl hc (if_pos ⟨hexited, hdone⟩), rfl⟩

/-- A call whose operation has exited ends once the loop has learned of it. -/
theorem winds_of_exited (hphase : c.phase = .executing ∨ c.phase = .detached)
    (hexited : c.operation = .exited) :
    ∃ v c', Winds maxWorkers w v ∧ v.calls = w.calls.set n c' ∧ c'.phase = .ended := by
  obtain ⟨v, hwinds, hcalls⟩ : ∃ v, Winds maxWorkers w v ∧
      v.calls = w.calls.set n { c with done := true } := winds_done hc hexited
  have hn : n < w.calls.length := (List.getElem?_eq_some_iff.mp hc).1
  have hc' : v.calls[n]? = some { c with done := true } := by
    rw [hcalls, List.getElem?_set_self hn]
  have hv := hwinds.conserved h
  have hstep : ∃ u c', Winds maxWorkers v u ∧ u.calls = v.calls.set n c' ∧ c'.phase = .ended := by
    rcases hphase with hphase | hphase
    · have hs : callStep maxWorkers (v, { c with done := true }) (.resume n) =
          some (leaveExecution maxWorkers (v, { c with done := true })) := if_pos ⟨hphase, rfl⟩
      exact winds_ended hv hc' (e := .resume n) rfl rfl hs rfl
    · have hs : callStep maxWorkers (v, { c with done := true }) (.releaseWhenFinished n) =
          some (releaseWhenFinished maxWorkers (v, { c with done := true })) := if_pos ⟨hphase, rfl⟩
      exact winds_ended hv hc' (e := .releaseWhenFinished n) rfl rfl hs rfl
  obtain ⟨u, c', hwinds', hcalls', hended⟩ := hstep
  refine ⟨u, c', hwinds.trans hwinds', ?_, hended⟩
  rw [hcalls', hcalls, List.set_set]

/-- **A call whose operation is not in the executor is ended by the loop alone.** -/
theorem winds_of_inactive (hinactive : c.operation.active = false) :
    ∃ v c', Winds maxWorkers w v ∧ v.calls = w.calls.set n c' ∧ c'.phase = .ended := by
  have haccounted := (h.consistent c (List.mem_of_getElem? hc)).accounted
  cases hphase : c.phase with
  | lockWait => exact winds_of_waiting h hc (Or.inl hphase)
  | slotWait => exact winds_of_waiting h hc (Or.inr (Or.inl hphase))
  | granted => exact winds_of_waiting h hc (Or.inr (Or.inr hphase))
  | executing | detached =>
    rw [Call.Accounted, hphase] at haccounted
    have hexited : c.operation = .exited := by
      cases hoperation : c.operation with
      | notSubmitted => exact absurd hoperation haccounted.2.2
      | exited => rfl
      | queued | running =>
        rw [hoperation] at hinactive
        cases hinactive
    exact winds_of_exited h hc (by rw [hphase]; simp) hexited
  | ended => exact ⟨w, c, ⟨[], System.Run.nil w⟩, (set_self hc).symm, hphase⟩

end

/-- **Once all threads have exited, the loop alone frees all slots and locks.** -/
theorem winds_allFree (h : w.Conserved maxWorkers)
    (hinactive : ∀ c ∈ w.calls, c.operation.active = false) :
    ∃ v, Winds maxWorkers w v ∧ v.AllFree maxWorkers := by
  have hprefix : ∀ n ≤ w.calls.length, ∃ v, Winds maxWorkers w v ∧
      (∀ c ∈ v.calls, c.operation.active = false) ∧ v.calls.length = w.calls.length ∧
        ∀ c ∈ v.calls.take n, c.phase = .ended := by
    intro n hn
    -- By induction on how many of the calls have been wound up, from the first on.
    induction n with
    | zero => exact ⟨w, ⟨[], System.Run.nil w⟩, hinactive, rfl, nofun⟩
    | succ n ih =>
      obtain ⟨v, hwinds, hv, hlength, htake⟩ := ih (by omega)
      have hlt : n < v.calls.length := by omega
      have hc : v.calls[n]? = some v.calls[n] := List.getElem?_eq_getElem hlt
      obtain ⟨u, c', hwinds', hcalls, hended⟩ := winds_of_inactive (hwinds.conserved h) hc
        (hv _ (List.getElem_mem hlt))
      have hu := (hwinds.trans hwinds').conserved h
      have hmem : c' ∈ u.calls := by
        rw [hcalls]
        exact List.mem_set hlt c'
      have hc'inactive : c'.operation.active = false := by
        have haccounted := (hu.consistent c' hmem).accounted
        rw [Call.Accounted, hended] at haccounted
        exact haccounted.2.2
      refine ⟨u, hwinds.trans hwinds', ?_, ?_, ?_⟩
      · intro c hc
        rw [hcalls] at hc
        rcases List.mem_or_eq_of_mem_set hc with hold | rfl
        · exact hv c hold
        · exact hc'inactive
      · rw [hcalls, List.length_set, hlength]
      · intro c hc
        obtain ⟨i, hi, rfl⟩ := List.mem_iff_getElem.mp hc
        rw [List.length_take] at hi
        rw [List.getElem_take]
        have hget : u.calls[i]? = (v.calls.set n c')[i]? := by rw [hcalls]
        -- The call that was just wound up, or one of those before it, which is left as it is.
        by_cases hin : n = i
        · subst hin
          rw [List.getElem?_set_self hlt, List.getElem?_eq_getElem (by omega)] at hget
          rw [Option.some.inj hget]
          exact hended
        · rw [List.getElem?_set_ne hin, List.getElem?_eq_getElem (by omega),
            List.getElem?_eq_getElem (by omega)] at hget
          rw [Option.some.inj hget]
          refine htake _ (List.mem_take_iff_getElem.mpr ⟨i, by omega, rfl⟩)
  obtain ⟨v, hwinds, -, hlength, hended⟩ := hprefix _ (Nat.le_refl _)
  rw [List.take_of_length_le (Nat.le_of_eq hlength)] at hended
  exact ⟨v, hwinds, (hwinds.conserved h).allFree hended⟩

/-! ### In every run -/

/-- **Slots and locks are conserved**, in whatever order callers, threads and the loop take their
steps. Once all threads have exited, nothing but steps of the loop is needed for all of them to be
free. -/
theorem slotsAndLocksConserved {w₀ : Runner R} {tr : List (Event R × Unit)}
    (hinit : (runner R maxWorkers).init w₀)
    (hrun : (runner R maxWorkers).Run System.anyStep w₀ tr w) :
    w.Safe maxWorkers ∧ ((∀ c ∈ w.calls, c.phase = .ended) → w.AllFree maxWorkers) ∧
      ((∀ c ∈ w.calls, c.operation.active = false) →
        ∃ v, Winds maxWorkers w v ∧ v.AllFree maxWorkers) := by
  have hconserved : w.Conserved maxWorkers := by
    refine hrun.invariant ?_ fun _ _ _ _ hI _ hs ↦ hI.step hs
    obtain rfl : w₀ = _ := hinit
    exact ⟨nofun, rfl, fun _ ↦ rfl, rfl⟩
  exact ⟨hconserved.safe, hconserved.allFree, winds_allFree hconserved⟩

/-- A caller that leaves before its thread has exited, and another that waits for the same resource
meanwhile. -/
def sampleDetached : List (Event ℕ) :=
  [.begin (some 0), .acquireLock 0 false, .grantSlot 0, .submit 0 false, .startThread 0,
    .begin (some 0), .giveUp 0, .giveUp 1, .exitThread 0, .complete 0, .releaseWhenFinished 0]

theorem slotsAndLocksConserved_sample :
    ∃ w os, (runner ℕ 1).replay ⟨1, fun _ ↦ false, [], 0⟩ sampleDetached = some (w, os) ∧
      w.Safe 1 ∧ w.AllFree 1 := by
  obtain ⟨w, os, hreplay, hended⟩ : ∃ w os,
      (runner ℕ 1).replay ⟨1, fun _ ↦ false, [], 0⟩ sampleDetached = some (w, os) ∧
        ∀ c ∈ w.calls, c.phase = .ended := ⟨_, _, rfl, by decide⟩
  have hsafe := slotsAndLocksConserved rfl (System.run_of_replay hreplay)
  exact ⟨w, os, hreplay, hsafe.1, hsafe.2.1 hended⟩

end

end Onebox.Providers
