import Mathlib.Data.List.Basic
import Mathlib.Tactic.Common

/-!
# Walks with an explicit stack

A walk that keeps a stack of the siblings it has still to visit, innermost first, visits a tree in
preorder. Trees are given by the children of their nodes, and are cut below a depth, so that they
need not be finite.
-/

namespace Forest

universe u v w

variable {α : Type u} (children : α → List α)

/-- The preorder of the tree below a node, with so many levels below the node. -/
def preorder : ℕ → α → List α
  | 0, a => [a]
  | levels + 1, a => a :: (children a).flatMap (preorder levels)

/-- What a stack has still to visit: its frames hold siblings and their depth, and no node deeper
than `limit` is visited. -/
def stackOrder (limit : ℕ) (stack : List (List α × ℕ)) : List α :=
  stack.flatMap fun frame ↦ frame.1.flatMap (preorder children (limit - frame.2))

variable {children} {limit depth : ℕ} {a : α} {siblings : List α} {stack : List (List α × ℕ)}

theorem stackOrder_nil : stackOrder children limit [] = [] := rfl

/-- A frame that is done. -/
theorem stackOrder_done :
    stackOrder children limit (([], depth) :: stack) = stackOrder children limit stack := rfl

/-- The next node, and its children before its siblings. -/
theorem stackOrder_descend (h : depth < limit) :
    stackOrder children limit ((a :: siblings, depth) :: stack) =
      a :: stackOrder children limit ((children a, depth + 1) :: (siblings, depth) :: stack) := by
  have hlevels : limit - depth = limit - (depth + 1) + 1 := by omega
  simp only [stackOrder, List.flatMap_cons]
  rw [hlevels, preorder, List.cons_append, List.cons_append, List.append_assoc, ← hlevels]

/-- The next node, at the greatest depth. -/
theorem stackOrder_cut (h : ¬depth < limit) :
    stackOrder children limit ((a :: siblings, depth) :: stack) =
      a :: stackOrder children limit ((siblings, depth) :: stack) := by
  have hlevels : limit - depth = 0 := by omega
  simp only [stackOrder, List.flatMap_cons]
  rw [hlevels, preorder, List.singleton_append, List.cons_append]

/-- The next node, without children. -/
theorem stackOrder_leaf (h : children a = []) :
    stackOrder children limit ((a :: siblings, depth) :: stack) =
      a :: stackOrder children limit ((siblings, depth) :: stack) := by
  by_cases hdepth : depth < limit
  · rw [stackOrder_descend hdepth, h, stackOrder_done]
  · exact stackOrder_cut hdepth

/-- The next node comes first. -/
theorem stackOrder_cons (children : α → List α) (limit : ℕ) (a : α) (siblings : List α) (depth : ℕ)
    (stack : List (List α × ℕ)) :
    ∃ rest, stackOrder children limit ((a :: siblings, depth) :: stack) = a :: rest := by
  by_cases hdepth : depth < limit
  · exact ⟨_, stackOrder_descend hdepth⟩
  · exact ⟨_, stackOrder_cut hdepth⟩

/-- The stack of a walk that begins. -/
theorem stackOrder_root (limit : ℕ) (a : α) :
    stackOrder children limit [([a], 0)] = preorder children limit a := by
  simp only [stackOrder, List.flatMap_cons, List.flatMap_nil, List.append_nil, Nat.sub_zero]

/-! ## The first verdict -/

variable {ε : Type v} {τ : Type w} {inspect : α → Except ε (Option τ)} {nodes : List α}

/-- The verdict on the first node that has one: an error, or a result. -/
def firstVerdict (inspect : α → Except ε (Option τ)) : List α → Except ε (Option τ)
  | [] => .ok none
  | a :: rest =>
    match inspect a with
    | .error e => .error e
    | .ok (some found) => .ok (some found)
    | .ok none => firstVerdict inspect rest

theorem firstVerdict_cons_of_none (h : inspect a = .ok none) (rest : List α) :
    firstVerdict inspect (a :: rest) = firstVerdict inspect rest := by
  rw [firstVerdict, h]

theorem firstVerdict_eq_none_iff :
    firstVerdict inspect nodes = .ok none ↔ ∀ a ∈ nodes, inspect a = .ok none := by
  induction nodes with
  | nil => exact ⟨nofun, fun _ ↦ rfl⟩
  | cons a rest ih =>
    rw [List.forall_mem_cons, ← ih, firstVerdict]
    split
    · rename_i hinspect
      exact ⟨nofun, fun h ↦ nomatch hinspect.symm.trans h.1⟩
    · rename_i hinspect
      exact ⟨nofun, fun h ↦ nomatch hinspect.symm.trans h.1⟩
    · rename_i hinspect
      exact ⟨fun h ↦ ⟨hinspect, h⟩, fun h ↦ h.2⟩

/-- A verdict comes from the first node that has one. -/
theorem firstVerdict_eq_iff {verdict : Except ε (Option τ)} (hverdict : verdict ≠ .ok none) :
    firstVerdict inspect nodes = verdict ↔ ∃ before a after, nodes = before ++ a :: after ∧
      (∀ b ∈ before, inspect b = .ok none) ∧ inspect a = verdict := by
  induction nodes with
  | nil =>
    refine ⟨fun h ↦ absurd h.symm hverdict, ?_⟩
    rintro ⟨before, a, after, hnil, -⟩
    exact absurd hnil.symm (List.append_ne_nil_of_right_ne_nil before (List.cons_ne_nil a after))
  | cons a rest ih =>
    by_cases hinspect : inspect a = .ok none
    · rw [firstVerdict_cons_of_none hinspect, ih]
      constructor
      · rintro ⟨before, b, after, rfl, hbefore, hb⟩
        exact ⟨a :: before, b, after, rfl, List.forall_mem_cons.mpr ⟨hinspect, hbefore⟩, hb⟩
      · rintro ⟨before, b, after, heq, hbefore, hb⟩
        rcases before with _ | ⟨first, before⟩
        · obtain ⟨rfl, rfl⟩ := List.cons.inj heq
          exact absurd (hb.symm.trans hinspect) hverdict
        · obtain ⟨rfl, rfl⟩ := List.cons.inj heq
          exact ⟨before, b, after, rfl, (List.forall_mem_cons.mp hbefore).2, hb⟩
    · have hfirst : firstVerdict inspect (a :: rest) = inspect a := by
        rw [firstVerdict]
        split
        · rename_i he
          rw [he]
        · rename_i hfound
          rw [hfound]
        · rename_i hnone
          exact absurd hnone hinspect
      rw [hfirst]
      constructor
      · exact fun h ↦ ⟨[], a, rest, rfl, nofun, h⟩
      · rintro ⟨before, b, after, heq, hbefore, hb⟩
        rcases before with _ | ⟨first, before⟩
        · obtain ⟨rfl, rfl⟩ := List.cons.inj heq
          exact hb
        · obtain ⟨rfl, rfl⟩ := List.cons.inj heq
          exact absurd (hbefore a List.mem_cons_self) hinspect

theorem firstVerdict_eq_some_iff {found : τ} :
    firstVerdict inspect nodes = .ok (some found) ↔ ∃ before a after, nodes = before ++ a :: after ∧
      (∀ b ∈ before, inspect b = .ok none) ∧ inspect a = .ok (some found) :=
  firstVerdict_eq_iff nofun

theorem firstVerdict_eq_error_iff {e : ε} :
    firstVerdict inspect nodes = .error e ↔ ∃ before a after, nodes = before ++ a :: after ∧
      (∀ b ∈ before, inspect b = .ok none) ∧ inspect a = .error e :=
  firstVerdict_eq_iff nofun

end Forest
