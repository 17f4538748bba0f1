import Mathlib.Data.List.Count
import Mathlib.Tactic.Common

/-!
# Parties of which one moves at a time

The parties of a system as a list, in which one member is replaced when it moves.
-/

namespace Transition

universe u

variable {π : Type u} {parties : List π} {n : ℕ} {a b : π}

/-- Replacing a member moves a count by what the two count. -/
theorem countP_set_add (p : π → Bool) (b : π) (h : parties[n]? = some a) :
    (parties.set n b).countP p + (p a).toNat = parties.countP p + (p b).toNat := by
  obtain ⟨hn, ha⟩ := List.getElem?_eq_some_iff.mp h
  have hpos : p a = true → 0 < parties.countP p := fun hp ↦
    List.countP_pos_iff.mpr ⟨a, List.mem_of_getElem? h, hp⟩
  rw [List.countP_set hn, ha]
  cases hpa : p a with
  | false =>
    cases hpb : p b <;> simp
  | true =>
    have := hpos hpa
    cases hpb : p b <;> simp <;> omega

/-- What holds of all parties still does when the one that moved keeps it. -/
theorem forall_mem_set {P : π → Prop} (h : ∀ c ∈ parties, P c) (hb : P b) :
    ∀ c ∈ parties.set n b, P c := by
  intro c hc
  rcases List.mem_or_eq_of_mem_set hc with hmem | rfl
  · exact h c hmem
  · exact hb

end Transition
