import Onebox.Transition.System

/-!
# Simulations

A system with finer states is simulated by a coarser one when each of its steps is one step of the
coarser system or none at all. What holds along every run of the coarser system then holds along
the runs of the finer one, read through the relation between the states. The matching steps may be
known to meet a condition, so that it is enough to look at runs of the coarser system that do.
-/

namespace Transition

namespace System

variable {σ τ α β ο π : Type*} {M : System σ α ο} {N : System τ β π} {C : σ → α → Prop}
  {D : τ → β → Prop}

/-- Every step of `M` from related states is matched by a step of `N` that meets `D`, or by none. -/
structure Simulation (M : System σ α ο) (N : System τ β π) (C : σ → α → Prop) (D : τ → β → Prop)
    (R : σ → τ → Prop) : Prop where
  init : ∀ s, M.init s → ∃ x, N.init x ∧ R s x
  step : ∀ s x a t o, R s x → C s a → M.step s a = some (t, o) →
    R t x ∨ ∃ b y p, D x b ∧ N.step x b = some (y, p) ∧ R t y

namespace Simulation

variable {R : σ → τ → Prop}

/-- A run of the finer system from related states is followed by the coarser one. -/
theorem follow (h : Simulation M N C D R) {s t : σ} {x : τ} {tr : List (α × ο)}
    (hrun : Run M C s tr t) (hR : R s x) : ∃ y tr', Run N D x tr' y ∧ R t y := by
  induction hrun with
  | nil => exact ⟨x, [], .nil x, hR⟩
  | snoc _ hC hs ih =>
    obtain ⟨y, tr', hfollow, hRt⟩ := ih
    rcases h.step _ _ _ _ _ hRt hC hs with hstay | ⟨b, z, p, hD, hstep, hRu⟩
    · exact ⟨y, tr', hfollow, hstay⟩
    · exact ⟨z, _, hfollow.snoc hD hstep, hRu⟩

end Simulation

end System

end Transition
