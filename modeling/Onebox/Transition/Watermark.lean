import Mathlib.Data.List.Basic
import Mathlib.Order.Lattice

/-!
# Watermarks

A log whose entries carry positions in a linear order, and a reader that has dealt with the entries
of an interval of positions. The interval is open below and closed above, so that intervals which
meet at a watermark join.
-/

namespace Transition

variable {α : Type*} {β : Type*} [LinearOrder α]

/-- Every entry of the log above `lo` and up to `hi` is done. -/
def Covered (log : List (α × β)) (done : β → Prop) (lo hi : α) : Prop :=
  ∀ entry ∈ log, lo < entry.1 → entry.1 ≤ hi → done entry.2

namespace Covered

variable {log log' : List (α × β)} {done done' : β → Prop} {lo mid hi : α}

theorem of_le (h : hi ≤ lo) : Covered log done lo hi :=
  fun _ _ hlo hhi ↦ absurd (lt_of_lt_of_le hlo hhi) (not_lt.mpr h)

theorem mono (h : Covered log done lo hi) (hdone : ∀ b, done b → done' b) :
    Covered log done' lo hi :=
  fun entry hmem hlo hhi ↦ hdone _ (h entry hmem hlo hhi)

/-- Intervals that meet join. -/
theorem join (h : Covered log done lo mid) (h' : Covered log done mid hi) :
    Covered log done lo hi := by
  intro entry hmem hlo hhi
  rcases le_or_gt entry.1 mid with hmid | hmid
  · exact h entry hmem hlo hmid
  · exact h' entry hmem hmid hhi

/-- A log that has only gained entries outside the interval. -/
theorem extend (h : Covered log done lo hi)
    (hlog : ∀ entry ∈ log', entry ∈ log ∨ (lo < entry.1 → hi < entry.1)) :
    Covered log' done lo hi := by
  intro entry hmem hlo hhi
  rcases hlog entry hmem with hold | hout
  · exact h entry hold hlo hhi
  · exact absurd hhi (not_le.mpr (hout hlo))

end Covered

end Transition
