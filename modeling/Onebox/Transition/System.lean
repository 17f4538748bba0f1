import Mathlib.Algebra.BigOperators.Group.List.Basic
import Mathlib.Algebra.GroupWithZero.Nat
import Mathlib.Data.List.Basic
import Mathlib.Tactic.Common

/-!
# Reactive systems and their runs

A reactive system answers calls. A call is enabled in a state when the step function returns a
pair: the next state and the value handed back to the caller. Every source of nondeterminism (the
interleaving, the clock, the answers of the outside world) is part of the label, so the step
function itself stays executable and one definition serves three purposes: replaying a concrete
schedule, stating what every schedule does, and proving it by induction.

Runs are kept with their traces, because several properties are about what was *answered* along
the way rather than about a state that was reached. They also carry a side condition on each step,
taken in the state before it; `fun _ _ ↦ True` gives back plain runs, and a stronger condition
describes the schedules on which a guarantee is claimed.
-/

namespace Transition

universe u v w

/-- A system over states `σ`, call labels `α` and returned values `ο`. -/
structure System (σ : Type u) (α : Type v) (ο : Type w) where
  /-- The states a run may start in. -/
  init : σ → Prop
  /-- The effect of a call, `none` when the call is not enabled. -/
  step : σ → α → Option (σ × ο)

namespace System

variable {σ : Type u} {α : Type v} {ο : Type w}

/-- `Run M C s tr t`: the calls of `tr` lead from `s` to `t` and return what `tr` records, each of
them made in a state that satisfies `C`. -/
inductive Run (M : System σ α ο) (C : σ → α → Prop) : σ → List (α × ο) → σ → Prop
  | nil (s : σ) : Run M C s [] s
  | snoc {s t u : σ} {tr : List (α × ο)} {a : α} {o : ο} :
      Run M C s tr t → C t a → M.step t a = some (u, o) → Run M C s (tr ++ [(a, o)]) u

/-- The condition that every step meets. -/
def anyStep (_ : σ) (_ : α) : Prop := True

/-- Replay a list of calls, collecting the returned values. -/
def replay (M : System σ α ο) : σ → List α → Option (σ × List ο)
  | s, [] => some (s, [])
  | s, a :: as =>
    match M.step s a with
    | none => none
    | some (t, o) =>
      match M.replay t as with
      | none => none
      | some (u, os) => some (u, o :: os)

/-- The condition `p` holds at every call of a replay. -/
def meets (M : System σ α ο) (p : σ → α → Bool) : σ → List α → Bool
  | _, [] => true
  | s, a :: as =>
    p s a && match M.step s a with
      | none => true
      | some (t, _) => M.meets p t as

variable {M : System σ α ο} {C : σ → α → Prop}

namespace Run

theorem single {s t : σ} {a : α} {o : ο} (hC : C s a) (hs : M.step s a = some (t, o)) :
    Run M C s [(a, o)] t := by
  simpa using (Run.nil (M := M) (C := C) s).snoc hC hs

theorem append {s t u : σ} {tr tr' : List (α × ο)} (h : Run M C s tr t) (h' : Run M C t tr' u) :
    Run M C s (tr ++ tr') u := by
  induction h' with
  | nil => simpa using h
  | snoc _ hC hs ih => simpa [List.append_assoc] using ih.snoc hC hs

theorem weaken {C' : σ → α → Prop} (hCC : ∀ s a, C s a → C' s a) {s t : σ} {tr : List (α × ο)}
    (h : Run M C s tr t) : Run M C' s tr t := by
  induction h with
  | nil => exact .nil _
  | snoc _ hC hs ih => exact ih.snoc (hCC _ _ hC) hs

/-- **The invariant rule.** A property kept by every step that meets the condition holds at the
end of a run that started in it. -/
theorem invariant {I : σ → Prop} {s t : σ} {tr : List (α × ο)} (h : Run M C s tr t) (hI : I s)
    (hstep : ∀ s a t o, I s → C s a → M.step s a = some (t, o) → I t) : I t := by
  induction h with
  | nil => exact hI
  | snoc _ hC hs ih => exact hstep _ _ _ _ ih hC hs

/-- **The history rule.** A property of a state and of the trace that led to it. -/
theorem history {I : σ → List (α × ο) → Prop} {s t : σ} {tr : List (α × ο)} (h : Run M C s tr t)
    (hI : I s [])
    (hstep : ∀ s tr a t o, I s tr → C s a → M.step s a = some (t, o) → I t (tr ++ [(a, o)])) :
    I t tr := by
  induction h with
  | nil => exact hI
  | snoc _ hC hs ih => exact hstep _ _ _ _ _ ih hC hs

/-- **The relation rule.** A reflexive and transitive relation that every step establishes between
the states around it, with an invariant that the step may use, holds between the ends of a run. -/
theorem relates {I : σ → Prop} {R : σ → σ → Prop} (hrefl : ∀ s, R s s)
    (htrans : ∀ s t u, R s t → R t u → R s u) {s t : σ} {tr : List (α × ο)} (h : Run M C s tr t)
    (hI : I s) (hstep : ∀ s a t o, I s → C s a → M.step s a = some (t, o) → I t ∧ R s t) :
    I t ∧ R s t := by
  induction h with
  | nil => exact ⟨hI, hrefl _⟩
  | snoc _ hC hs ih =>
    obtain ⟨hIt, hR⟩ := ih
    obtain ⟨hIu, hR'⟩ := hstep _ _ _ _ hIt hC hs
    exact ⟨hIu, htrans _ _ _ hR hR'⟩

/-- The accounting rule: a measure that each step raises by the weight of its event is raised over
a run by the total weight of the trace. -/
theorem measure_eq {I : σ → Prop} {m : σ → ℕ} {wt : α × ο → ℕ} {s t : σ} {tr : List (α × ο)}
    (h : Run M C s tr t) (hI : I s)
    (hstep : ∀ s a t o, I s → C s a → M.step s a = some (t, o) → I t ∧ m t = m s + wt (a, o)) :
    m t = m s + (tr.map wt).sum := by
  suffices key : I t ∧ m t = m s + (tr.map wt).sum from key.2
  induction h with
  | nil => exact ⟨hI, by simp⟩
  | snoc _ hC hs ih =>
    obtain ⟨hIt, hm⟩ := ih
    obtain ⟨hIu, hm'⟩ := hstep _ _ _ _ hIt hC hs
    refine ⟨hIu, ?_⟩
    rw [hm', hm, List.map_append, List.sum_append, List.map_singleton, List.sum_singleton,
      Nat.add_assoc]

/-- The budget rule: a measure that the costly steps lower, and that only the gaining ones raise, by
one at most, bounds the number of costly steps by the number of gaining ones. -/
theorem budget {I : σ → Prop} {m : σ → ℕ} {cost gain : α × ο → Bool} {s t : σ}
    {tr : List (α × ο)} (h : Run M C s tr t) (hI : I s)
    (hstep : ∀ s a t o, I s → C s a → M.step s a = some (t, o) →
      I t ∧ m t + (if cost (a, o) then 1 else 0) ≤ m s + (if gain (a, o) then 1 else 0)) :
    m t + tr.countP cost ≤ m s + tr.countP gain := by
  suffices key : I t ∧ m t + tr.countP cost ≤ m s + tr.countP gain from key.2
  induction h with
  | nil => exact ⟨hI, Nat.le_refl _⟩
  | snoc _ hC hs ih =>
    obtain ⟨hIt, hm⟩ := ih
    obtain ⟨hIu, hm'⟩ := hstep _ _ _ _ hIt hC hs
    refine ⟨hIu, ?_⟩
    rw [List.countP_append, List.countP_append, List.countP_singleton, List.countP_singleton]
    omega

/-- The spending rule: a measure that each step lowers by its cost, less its gain, pays for all
costs of a run out of what it begins with and what is gained. -/
theorem spending {I : σ → Prop} {m : σ → ℕ} {c g : α × ο → ℕ} {s t : σ} {tr : List (α × ο)}
    (h : Run M C s tr t) (hI : I s)
    (hstep : ∀ s a t o, I s → C s a → M.step s a = some (t, o) →
      I t ∧ m t + c (a, o) ≤ m s + g (a, o)) :
    m t + (tr.map c).sum ≤ m s + (tr.map g).sum := by
  suffices key : I t ∧ m t + (tr.map c).sum ≤ m s + (tr.map g).sum from key.2
  induction h with
  | nil => exact ⟨hI, Nat.le_refl _⟩
  | snoc _ hC hs ih =>
    obtain ⟨hIt, hm⟩ := ih
    obtain ⟨hIu, hm'⟩ := hstep _ _ _ _ hIt hC hs
    refine ⟨hIu, ?_⟩
    rw [List.map_append, List.map_append, List.sum_append, List.sum_append, List.map_singleton,
      List.map_singleton, List.sum_singleton, List.sum_singleton]
    omega

/-- The log rule: a log that each step extends by what its event records is extended over a run by
what the trace records. -/
theorem log_eq {κ : Type*} {I : σ → Prop} {s t : σ} {tr : List (α × ο)} (h : Run M C s tr t)
    (log : σ → List κ) (record : α × ο → Option κ) (hI : I s)
    (hstep : ∀ s a t o, I s → C s a → M.step s a = some (t, o) →
      I t ∧ log t = log s ++ (record (a, o)).toList) :
    log t = log s ++ tr.filterMap record := by
  suffices key : I t ∧ log t = log s ++ tr.filterMap record from key.2
  induction h with
  | nil => exact ⟨hI, by rw [List.filterMap_nil, List.append_nil]⟩
  | @snoc t u tr a o _ hC hs ih =>
    obtain ⟨hIt, hlog⟩ := ih
    obtain ⟨hIu, hlog'⟩ := hstep _ _ _ _ hIt hC hs
    have hlast : [(a, o)].filterMap record = (record (a, o)).toList := by
      rw [List.filterMap_cons]
      cases record (a, o) <;> rfl
    refine ⟨hIu, ?_⟩
    rw [hlog', hlog, List.filterMap_append, hlast, List.append_assoc]

end Run

/-- A replay is a run, under any condition that holds at its calls. -/
theorem run_of_replay_of_meets {p : σ → α → Bool} (hp : ∀ s a, p s a = true → C s a) {s t : σ}
    {as : List α} {os : List ο} (h : M.replay s as = some (t, os))
    (hmeets : M.meets p s as = true) : Run M C s (as.zip os) t := by
  induction as generalizing s os with
  | nil =>
    obtain ⟨rfl, rfl⟩ : s = t ∧ [] = os := by simpa [replay] using h
    exact .nil s
  | cons a as ih =>
    obtain ⟨hpa, hrest⟩ := Bool.and_eq_true_iff.mp hmeets
    rw [replay] at h
    split at h
    · cases h
    · rename_i u o hstep
      rw [hstep] at hrest
      split at h
      · cases h
      · rename_i v os' hreplay
        obtain ⟨rfl, rfl⟩ : v = t ∧ o :: os' = os := by simpa using h
        simpa using (Run.single (hp s a hpa) hstep).append (ih hreplay hrest)

theorem meets_true (M : System σ α ο) (s : σ) (as : List α) :
    M.meets (fun _ _ ↦ true) s as = true := by
  induction as generalizing s with
  | nil => rfl
  | cons a as ih =>
    rw [meets, Bool.true_and]
    split
    · rfl
    · exact ih _

theorem run_of_replay {s t : σ} {as : List α} {os : List ο} (h : M.replay s as = some (t, os)) :
    Run M anyStep s (as.zip os) t :=
  run_of_replay_of_meets (fun _ _ _ ↦ trivial) h (M.meets_true s as)

end System

end Transition
