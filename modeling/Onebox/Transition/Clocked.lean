import Mathlib.Order.Lattice
import Onebox.Transition.System

/-!
# Systems under a clock

A system whose calls read a clock does not say how the readings of different calls are related.
Under a clock, each step comes with the time at which it is taken: times do not decrease along a
run, and a call reads nothing from later than its step. A reading may still be old, since a call can
wait for a lock between reading the clock and taking its step.
-/

namespace Transition

/-- A state and the time of the last step. -/
structure Clocked (σ T : Type*) where
  state : σ
  clock : T

namespace System

variable {σ α ο T : Type*} [LinearOrder T]

/-- `M` under a clock, where `reading` is what a call has read of it. -/
def clocked (M : System σ α ο) (reading : α → Option T) : System (Clocked σ T) (T × α) ο where
  init s := M.init s.state
  step s e :=
    if s.clock ≤ e.1 ∧ (reading e.2).all (· ≤ e.1) then
      match M.step s.state e.2 with
      | none => none
      | some (t, o) => some (⟨t, e.1⟩, o)
    else none

variable {M : System σ α ο} {reading : α → Option T}

/-- **Inversion of a step under a clock.** -/
theorem step_of_clocked {s t : Clocked σ T} {time : T} {a : α} {o : ο}
    (h : (M.clocked reading).step s (time, a) = some (t, o)) :
    s.clock ≤ time ∧ t.clock = time ∧ (∀ now, reading a = some now → now ≤ time) ∧
      M.step s.state a = some (t.state, o) := by
  simp only [clocked] at h
  split at h
  · rename_i htime
    obtain ⟨hclock, hreading⟩ := htime
    split at h
    · cases h
    · rename_i u p hstep
      obtain ⟨rfl, rfl⟩ : ⟨u, time⟩ = t ∧ p = o := by simpa using h
      refine ⟨hclock, rfl, fun now hnow ↦ ?_, hstep⟩
      rw [hnow] at hreading
      simpa using hreading
  · cases h

end System

end Transition
