import Mathlib.Data.List.Count
import Onebox.Providers.Runner
import Onebox.Transition.Parties

/-!
# Slots and locks are accounted for

Each step of a call moves a slot or a lock between the runner and the call, and loses none. What a
call has is decided by its phase; the counts over all calls follow by adding up.
-/

namespace Onebox.Providers

open Transition

section

variable {R : Type*} [DecidableEq R]

/-- The call has the lock of the resource. -/
def Call.holds (c : Call R) (r : R) : Bool := c.resource = some r && c.lock.held

/-- What a call that is past its lock has acquired. -/
def Call.ownLock (c : Call R) : Tally := if c.resource.isSome then ⟨1, 0⟩ else ⟨0, 0⟩

/-- What a call has acquired and released in each phase, and where its operation is. -/
def Call.Accounted (c : Call R) : Prop :=
  match c.phase with
  | .lockWait => c.slot = ⟨0, 0⟩ ∧ c.lock = ⟨0, 0⟩ ∧ c.operation = .notSubmitted
  | .slotWait => c.slot = ⟨0, 0⟩ ∧ c.lock = c.ownLock ∧ c.operation = .notSubmitted
  | .granted => c.slot = ⟨1, 0⟩ ∧ c.lock = c.ownLock ∧ c.operation = .notSubmitted
  | .executing | .detached =>
    c.slot = ⟨1, 0⟩ ∧ c.lock = c.ownLock ∧ c.operation ≠ .notSubmitted
  | .ended =>
    (c.slot = ⟨0, 0⟩ ∨ c.slot = ⟨1, 1⟩) ∧ (c.lock = ⟨0, 0⟩ ∨ c.lock = ⟨1, 1⟩) ∧
      c.operation.active = false

/-- A call is accounted for, and its future is done only when its thread has exited. -/
structure Call.Consistent (c : Call R) : Prop where
  accounted : c.Accounted
  exited : c.done = true → c.operation = .exited

/-- Slots and locks are accounted for. -/
structure Runner.Conserved (maxWorkers : ℕ) (w : Runner R) : Prop where
  consistent : ∀ c ∈ w.calls, c.Consistent
  slots : w.slots + w.calls.countP (·.slot.held) = maxWorkers
  locks : ∀ r, w.calls.countP (·.holds r) = (w.locked r).toNat
  no_faults : w.faults = 0

/-- What a call takes is missing elsewhere, and what it gives back is there again. -/
structure Moves (w w' : Runner R × Call R) : Prop where
  calls : w'.1.calls = w.1.calls
  faults : w'.1.faults = w.1.faults
  resource : w'.2.resource = w.2.resource
  slots : w'.1.slots + w'.2.slot.held.toNat = w.1.slots + w.2.slot.held.toNat
  locks : ∀ r, (w'.1.locked r).toNat + (w.2.holds r).toNat =
    (w.1.locked r).toNat + (w'.2.holds r).toNat

/-- What a guarded step comes to. -/
theorem of_guarded {α : Type*} {p : Prop} [Decidable p] {a b : α}
    (h : (if p then some a else none) = some b) : p ∧ a = b := by
  obtain ⟨hp, hab⟩ := Option.ite_none_right_eq_some.mp h
  exact ⟨hp, Option.some.inj hab⟩

variable {maxWorkers : ℕ} {w : Runner R} {c : Call R} {w' w'' u : Runner R × Call R}

theorem Moves.trans (h : Moves u w') (h' : Moves w' w'') : Moves u w'' where
  calls := h'.calls.trans h.calls
  faults := h'.faults.trans h.faults
  resource := h'.resource.trans h.resource
  slots := h'.slots.trans h.slots
  locks r := by
    have := h.locks r
    have := h'.locks r
    omega

/-- A change of what is neither counted nor held. -/
theorem Moves.of_eq (hresource : c.resource = u.2.resource) (hslot : c.slot = u.2.slot)
    (hlock : c.lock = u.2.lock) : Moves u (u.1, c) where
  calls := rfl
  faults := rfl
  resource := hresource
  slots := by rw [hslot]
  locks r := by rw [Call.holds, Call.holds, hresource, hlock]

theorem moves_enter (phase : Phase) (u : Runner R × Call R) : Moves u (enter phase u) :=
  Moves.of_eq rfl rfl rfl

theorem moves_releaseSlot (hfree : u.1.slots < maxWorkers) (hslot : u.2.slot = ⟨1, 0⟩) :
    Moves u (releaseSlot maxWorkers u) ∧
      (releaseSlot maxWorkers u).2 = { u.2 with slot := ⟨1, 1⟩ } := by
  rw [releaseSlot, if_pos hfree, hslot]
  refine ⟨⟨rfl, rfl, rfl, ?_, fun r ↦ rfl⟩, rfl⟩
  rw [hslot]
  rfl

theorem moves_returnSlot (hslot : u.2.slot = ⟨1, 0⟩) :
    Moves u (returnSlot u) ∧ (returnSlot u).2 = { u.2 with slot := ⟨1, 1⟩ } := by
  rw [returnSlot, hslot]
  refine ⟨⟨rfl, rfl, rfl, ?_, fun r ↦ rfl⟩, rfl⟩
  rw [hslot]
  rfl

theorem moves_grantSlot (hfree : 0 < u.1.slots) (hslot : u.2.slot = ⟨0, 0⟩) :
    Moves u (grantSlot u) ∧
      (grantSlot u).2 = { u.2 with slot := ⟨1, 0⟩, phase := .granted } := by
  rw [grantSlot, enter, hslot]
  refine ⟨⟨rfl, rfl, rfl, ?_, fun r ↦ rfl⟩, rfl⟩
  rw [hslot]
  change u.1.slots - 1 + 1 = u.1.slots + 0
  omega

/-- The lock that a call has is released, if it has one. -/
theorem moves_releaseLock (hlock : u.2.lock = u.2.ownLock)
    (hlocked : ∀ r, u.2.holds r = true → u.1.locked r = true) :
    Moves u (releaseLock u) ∧
      ((releaseLock u).2 = { u.2 with lock := ⟨0, 0⟩ } ∨
        (releaseLock u).2 = { u.2 with lock := ⟨1, 1⟩ }) := by
  rw [releaseLock]
  rw [Call.ownLock] at hlock
  cases hresource : u.2.resource with
  | none =>
    rw [hresource] at hlock
    refine ⟨⟨rfl, rfl, rfl, rfl, fun r ↦ rfl⟩, Or.inl ?_⟩
    change u.2 = _
    rw [← show u.2.lock = ⟨0, 0⟩ from hlock]
  | some r =>
    rw [hresource] at hlock
    replace hlock : u.2.lock = ⟨1, 0⟩ := hlock
    have hholds : ∀ r', u.2.holds r' = decide (r = r') := by
      intro r'
      rw [Call.holds, hresource, hlock]
      simp [Tally.held]
    have htrue : u.1.locked r = true := hlocked r (by rw [hholds]; exact decide_eq_true rfl)
    dsimp only
    rw [if_pos htrue, hlock]
    refine ⟨⟨rfl, rfl, rfl, rfl, fun r' ↦ ?_⟩, Or.inr rfl⟩
    have hreleased : Call.holds { u.2 with lock := ⟨1, 1⟩ } r' = false := by
      rw [Call.holds]
      exact Bool.and_false _
    dsimp only
    rw [hreleased, hholds]
    by_cases hr : r = r'
    · subst hr
      rw [Function.update_self, htrue, decide_eq_true rfl]
      rfl
    · rw [Function.update_of_ne (Ne.symm hr), decide_eq_false hr]

/-! ### One step -/

/-- A call that has given back its slot, or never had one, ends when it releases its lock. -/
theorem ends_releaseLock (hlock : u.2.lock = u.2.ownLock)
    (hlocked : ∀ r, u.2.holds r = true → u.1.locked r = true)
    (hslot : u.2.slot = ⟨0, 0⟩ ∨ u.2.slot = ⟨1, 1⟩) (hoperation : u.2.operation.active = false)
    (hexited : u.2.done = true → u.2.operation = .exited) :
    Moves u (enter .ended (releaseLock u)) ∧ (enter .ended (releaseLock u)).2.Consistent := by
  obtain ⟨hmoves, hcall⟩ := moves_releaseLock hlock hlocked
  refine ⟨hmoves.trans (moves_enter _ _), ?_⟩
  rcases hcall with hcall | hcall
  · rw [enter, hcall]
    exact ⟨⟨hslot, Or.inl rfl, hoperation⟩, hexited⟩
  · rw [enter, hcall]
    exact ⟨⟨hslot, Or.inr rfl, hoperation⟩, hexited⟩

/-- A call whose operation is not in the executor ends when it releases its slot and its lock. -/
theorem ends_releaseBoth (hfree : u.1.slots < maxWorkers) (hslot : u.2.slot = ⟨1, 0⟩)
    (hlock : u.2.lock = u.2.ownLock) (hlocked : ∀ r, u.2.holds r = true → u.1.locked r = true)
    (hoperation : u.2.operation.active = false)
    (hexited : u.2.done = true → u.2.operation = .exited) :
    Moves u (enter .ended (releaseLock (releaseSlot maxWorkers u))) ∧
      (enter .ended (releaseLock (releaseSlot maxWorkers u))).2.Consistent := by
  obtain ⟨hmoves, hcall⟩ := moves_releaseSlot hfree hslot
  have hlocks : (releaseSlot maxWorkers u).1.locked = u.1.locked := by
    rw [releaseSlot, if_pos hfree]
  refine And.imp_left hmoves.trans (ends_releaseLock ?_ ?_ ?_ ?_ ?_)
  · rw [hcall]
    exact hlock
  · rw [hcall, hlocks]
    exact hlocked
  · rw [hcall]
    exact Or.inr rfl
  · rw [hcall]
    exact hoperation
  · rw [hcall]
    exact hexited

omit [DecidableEq R] in
/-- The operation of a call goes on. -/
theorem Call.Consistent.of_operation {o : Operation} {d : Bool} (h : c.Consistent)
    (hbefore : c.operation ≠ .notSubmitted) (hafter : o ≠ .notSubmitted)
    (hactive : o.active = true → c.operation.active = true) (hdone : d = true → o = .exited) :
    Call.Consistent { c with operation := o, done := d } := by
  refine ⟨?_, hdone⟩
  have haccounted := h.accounted
  rw [Call.Accounted] at haccounted ⊢
  dsimp only
  cases hphase : c.phase with
  | lockWait | slotWait | granted =>
    rw [hphase] at haccounted
    exact absurd haccounted.2.2 hbefore
  | executing | detached =>
    rw [hphase] at haccounted
    exact ⟨haccounted.1, haccounted.2.1, hafter⟩
  | ended =>
    rw [hphase] at haccounted
    refine ⟨haccounted.1, haccounted.2.1, ?_⟩
    by_contra hne
    rw [Bool.not_eq_false] at hne
    rw [hactive hne] at haccounted
    exact absurd haccounted.2.2 (by decide)

section

variable (hconsistent : u.2.Consistent) (hfree : u.2.slot.held = true → u.1.slots < maxWorkers)
  (hlocked : ∀ r, u.2.holds r = true → u.1.locked r = true)

include hconsistent hfree hlocked

/-- A call that has handed over its operation ends once the future is done. -/
theorem ends_done (hphase : u.2.phase = .executing ∨ u.2.phase = .detached)
    (hdone : u.2.done = true) :
    Moves u (releaseWhenFinished maxWorkers u) ∧
      (releaseWhenFinished maxWorkers u).2.Consistent := by
  have haccounted := hconsistent.accounted
  have hexited := hconsistent.exited
  have hslots : u.2.slot = ⟨1, 0⟩ ∧ u.2.lock = u.2.ownLock := by
    rcases hphase with hphase | hphase
    all_goals
      rw [Call.Accounted, hphase] at haccounted
      exact ⟨haccounted.1, haccounted.2.1⟩
  exact ends_releaseBoth (hfree (by rw [hslots.1]; rfl)) hslots.1 hslots.2 hlocked
    (by rw [hexited hdone]; rfl) hexited

theorem leaveExecution_moves (h : u.2.phase = .executing) :
    Moves u (leaveExecution maxWorkers u) ∧ (leaveExecution maxWorkers u).2.Consistent := by
  rw [leaveExecution]
  split
  · rename_i hdone
    exact ends_done hconsistent hfree hlocked (Or.inl h) hdone
  · have haccounted := hconsistent.accounted
    rw [Call.Accounted, h] at haccounted
    exact ⟨moves_enter _ _, haccounted, hconsistent.exited⟩

theorem giveUp_moves (h : giveUp maxWorkers u = some w') : Moves u w' ∧ w'.2.Consistent := by
  have haccounted := hconsistent.accounted
  have hexited := hconsistent.exited
  rw [giveUp] at h
  cases hphase : u.2.phase with
  | lockWait =>
    rw [hphase] at h
    obtain rfl := Option.some.inj h
    rw [Call.Accounted, hphase] at haccounted
    obtain ⟨hslot, hlock, hoperation⟩ := haccounted
    refine ⟨moves_enter _ _, ⟨Or.inl hslot, Or.inl hlock, ?_⟩, hexited⟩
    change u.2.operation.active = false
    rw [hoperation]
    rfl
  | slotWait =>
    rw [hphase] at h
    obtain rfl := Option.some.inj h
    rw [Call.Accounted, hphase] at haccounted
    obtain ⟨hslot, hlock, hoperation⟩ := haccounted
    exact ends_releaseLock hlock hlocked (Or.inl hslot) (by rw [hoperation]; rfl) hexited
  -- It has both the slot and the lock: the slot goes first, then the lock.
  | granted =>
    rw [hphase] at h
    obtain rfl := Option.some.inj h
    rw [Call.Accounted, hphase] at haccounted
    obtain ⟨hslot, hlock, hoperation⟩ := haccounted
    obtain ⟨hmoves, hcall⟩ := moves_returnSlot hslot
    refine And.imp_left hmoves.trans (ends_releaseLock ?_ ?_ ?_ ?_ ?_)
    · rw [hcall]
      exact hlock
    · rw [hcall]
      exact hlocked
    · rw [hcall]
      exact Or.inr rfl
    · rw [hcall]
      change u.2.operation.active = false
      rw [hoperation]
      rfl
    · rw [hcall]
      exact hexited
  | executing =>
    rw [hphase] at h
    obtain rfl := Option.some.inj h
    exact leaveExecution_moves hconsistent hfree hlocked hphase
  | detached | ended =>
    rw [hphase] at h
    cases h

omit hfree hlocked in
theorem acquireLock_moves {r : R} {late : Bool} (hresource : u.2.resource = some r)
    (hphase : u.2.phase = .lockWait) (hunlocked : u.1.locked r = false) :
    Moves u (acquireLock r late u) ∧ (acquireLock r late u).2.Consistent := by
  have haccounted := hconsistent.accounted
  have hexited := hconsistent.exited
  rw [Call.Accounted, hphase] at haccounted
  obtain ⟨hslot, hlock, hoperation⟩ := haccounted
  have hinactive : u.2.operation.active = false := by
    rw [hoperation]
    rfl
  have hown : u.2.ownLock = ⟨1, 0⟩ := by
    rw [Call.ownLock, hresource]
    rfl
  have hholds : ∀ r', Call.holds { u.2 with lock := ⟨1, 0⟩ } r' = decide (r = r') := by
    intro r'
    rw [Call.holds]
    dsimp only
    rw [hresource]
    simp [Tally.held]
  have htaken : Moves u ({ u.1 with locked := Function.update u.1.locked r true },
      { u.2 with lock := ⟨1, 0⟩ }) := by
    refine ⟨rfl, rfl, rfl, rfl, fun r' ↦ ?_⟩
    have hbefore : u.2.holds r' = false := by
      rw [Call.holds, hlock]
      exact Bool.and_false _
    dsimp only
    rw [hbefore, hholds]
    by_cases hr : r = r'
    · subst hr
      rw [Function.update_self, hunlocked, decide_eq_true rfl]
      rfl
    · rw [Function.update_of_ne (Ne.symm hr), decide_eq_false hr]
  rw [acquireLock, hlock]
  split
  · refine And.imp_left htaken.trans
      (ends_releaseLock hown.symm ?_ (Or.inl hslot) hinactive hexited)
    intro r' hr'
    rw [hholds, decide_eq_true_eq] at hr'
    rw [← hr']
    exact Function.update_self _ _ _
  · exact ⟨htaken.trans (moves_enter _ _), ⟨hslot, hown.symm, hoperation⟩, hexited⟩

theorem submit_moves {late : Bool} (hphase : u.2.phase = .granted) :
    Moves u (submit maxWorkers late u) ∧ (submit maxWorkers late u).2.Consistent := by
  have haccounted := hconsistent.accounted
  have hexited := hconsistent.exited
  rw [Call.Accounted, hphase] at haccounted
  obtain ⟨hslot, hlock, hoperation⟩ := haccounted
  have hnot : u.2.done ≠ true := by
    intro hdone
    rw [hexited hdone] at hoperation
    cases hoperation
  rw [submit]
  split
  · exact ends_releaseBoth (hfree (by rw [hslot]; rfl)) hslot hlock hlocked
      (by rw [hoperation]; rfl) hexited
  · exact ⟨Moves.of_eq rfl rfl rfl, ⟨hslot, hlock, nofun⟩, fun hdone ↦ absurd hdone hnot⟩

/-- **What a step of a call takes or gives back is accounted for**, and the call stays
consistent. -/
theorem callStep_moves {e : Event R} (h : callStep maxWorkers u e = some w') :
    Moves u w' ∧ w'.2.Consistent := by
  cases e with
  | begin resource => cases h
  | acquireLock n late =>
    rw [callStep] at h
    split at h
    · cases h
    · rename_i r hresource
      obtain ⟨hguard, rfl⟩ := of_guarded h
      exact acquireLock_moves hconsistent hresource hguard.1 hguard.2
  | grantSlot n =>
    obtain ⟨⟨hphase, hpos⟩, rfl⟩ := of_guarded h
    have haccounted := hconsistent.accounted
    rw [Call.Accounted, hphase] at haccounted
    obtain ⟨hslot, hlock, hoperation⟩ := haccounted
    obtain ⟨hmoves, hcall⟩ := moves_grantSlot hpos hslot
    refine ⟨hmoves, ?_⟩
    rw [hcall]
    exact ⟨⟨rfl, hlock, hoperation⟩, hconsistent.exited⟩
  | submit n late =>
    obtain ⟨hphase, rfl⟩ := of_guarded h
    exact submit_moves hconsistent hfree hlocked hphase
  | giveUp n => exact giveUp_moves hconsistent hfree hlocked h
  | startThread n =>
    obtain ⟨⟨hqueued, -⟩, rfl⟩ := of_guarded h
    have hnot : u.2.done ≠ true := by
      intro hdone
      rw [hconsistent.exited hdone] at hqueued
      cases hqueued
    exact ⟨Moves.of_eq rfl rfl rfl, hconsistent.of_operation (by rw [hqueued]; nofun) nofun
      (by rw [hqueued]; exact fun _ ↦ rfl) fun hdone ↦ absurd hdone hnot⟩
  | exitThread n =>
    obtain ⟨hrunning, rfl⟩ := of_guarded h
    exact ⟨Moves.of_eq rfl rfl rfl, hconsistent.of_operation (by rw [hrunning]; nofun) nofun nofun
      fun _ ↦ rfl⟩
  | complete n =>
    obtain ⟨⟨hexited, -⟩, rfl⟩ := of_guarded h
    exact ⟨Moves.of_eq rfl rfl rfl, hconsistent.of_operation (by rw [hexited]; nofun)
      (by rw [hexited]; nofun) id fun _ ↦ hexited⟩
  | resume n =>
    obtain ⟨⟨hphase, -⟩, rfl⟩ := of_guarded h
    exact leaveExecution_moves hconsistent hfree hlocked hphase
  | releaseWhenFinished n =>
    obtain ⟨⟨hphase, hdone⟩, rfl⟩ := of_guarded h
    exact ends_done hconsistent hfree hlocked (Or.inr hphase) hdone

end

/-! ### Every run -/

namespace Runner.Conserved

variable (h : w.Conserved maxWorkers)

include h

/-- A slot is missing while a call has it. -/
theorem slots_lt (hc : c ∈ w.calls) (hheld : c.slot.held = true) : w.slots < maxWorkers := by
  have hpos : 0 < w.calls.countP (·.slot.held) := List.countP_pos_iff.mpr ⟨c, hc, hheld⟩
  have := h.slots
  omega

/-- A lock is taken while a call has it. -/
theorem locked {r : R} (hc : c ∈ w.calls) (hholds : c.holds r = true) : w.locked r = true := by
  have hpos : 0 < w.calls.countP (·.holds r) := List.countP_pos_iff.mpr ⟨c, hc, hholds⟩
  rw [h.locks] at hpos
  cases hlocked : w.locked r with
  | true => rfl
  | false =>
    rw [hlocked] at hpos
    cases hpos

theorem begin (resource : Option R) :
    Conserved maxWorkers { w with calls := w.calls ++ [Call.begin resource] } where
  consistent c hc := by
    rcases List.mem_append.mp hc with hc | hc
    · exact h.consistent c hc
    · rw [List.mem_singleton.mp hc]
      refine ⟨?_, nofun⟩
      cases resource with
      | none => exact ⟨rfl, rfl, rfl⟩
      | some r => exact ⟨rfl, rfl, rfl⟩
  slots := by
    have := h.slots
    rw [List.countP_append]
    exact this
  locks r := by
    have hnone : (Call.begin resource).holds r = false := Bool.and_false _
    rw [List.countP_append, List.countP_singleton, hnone, h.locks]
    rfl
  no_faults := h.no_faults

/-- **Each event keeps slots and locks accounted for.** -/
theorem step {e : Event R} {v : Runner R} {o : Unit}
    (hs : Providers.step maxWorkers w e = some (v, o)) : v.Conserved maxWorkers := by
  rw [Providers.step.eq_def] at hs
  split at hs
  · obtain rfl := congrArg Prod.fst (Option.some.inj hs)
    exact h.begin _
  · split at hs
    · cases hs
    · rename_i c hc
      obtain ⟨w', hcall, heq⟩ := Option.map_eq_some_iff.mp hs
      obtain rfl := congrArg Prod.fst heq
      have hmem := List.mem_of_getElem? hc
      obtain ⟨hmoves, hconsistent⟩ := callStep_moves (u := (w, c)) (h.consistent c hmem)
        (h.slots_lt hmem) (fun r ↦ h.locked hmem) hcall
      have hcalls : w'.1.calls = w.calls := hmoves.calls
      refine ⟨?_, ?_, ?_, hmoves.faults.trans h.no_faults⟩
      · intro c' hc'
        dsimp only at hc'
        rw [hcalls] at hc'
        rcases List.mem_or_eq_of_mem_set hc' with hold | rfl
        · exact h.consistent c' hold
        · exact hconsistent
      · have hcount := countP_set_add (·.slot.held) w'.2 hc
        have hslots : w'.1.slots + w'.2.slot.held.toNat = w.slots + c.slot.held.toNat :=
          hmoves.slots
        have := h.slots
        dsimp only
        rw [hcalls]
        omega
      · intro r
        have hcount := countP_set_add (·.holds r) w'.2 hc
        have hlocks : (w'.1.locked r).toNat + (c.holds r).toNat =
          (w.locked r).toNat + (w'.2.holds r).toNat := hmoves.locks r
        have := h.locks r
        dsimp only
        rw [hcalls]
        omega

end Runner.Conserved

end

end Onebox.Providers
