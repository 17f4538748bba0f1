import Mathlib.Data.List.Chain
import Mathlib.Data.List.Basic

/-!
# Journals of changes

A journal records changes as pairs of an old and a new value. It replays from `a` to `b` when each
change starts where the one before it ended. Journals are written at the end and read from the
start, so the replay is a recursion on the list and its lemmas are about appending.
-/

namespace Transition

variable {α β : Type*}

/-- The changes lead from one value to the other. -/
def Replays : α → List (α × α) → α → Prop
  | a, [], b => a = b
  | a, c :: l, b => c.1 = a ∧ Replays c.2 l b

namespace Replays

variable {a b c : α} {l : List (α × α)}

theorem snoc (h : Replays a l b) : Replays a (l ++ [(b, c)]) c := by
  induction l generalizing a with
  | nil => exact ⟨Eq.symm h, rfl⟩
  | cons _ _ ih => exact ⟨h.1, ih h.2⟩

/-- A journal starts where it is said to. -/
theorem head (h : Replays a l b) : ∀ d, l.head? = some d → d.1 = a := by
  intro d hd
  cases l with
  | nil => cases hd
  | cons e l =>
    obtain rfl := Option.some.inj hd
    exact h.1

/-- Each change starts where the one before it ended. -/
theorem isChain (h : Replays a l b) : l.IsChain fun d e ↦ e.1 = d.2 := by
  induction l generalizing a with
  | nil => exact List.isChain_nil
  | cons d l ih =>
    rw [List.isChain_cons]
    exact ⟨h.2.head, ih h.2⟩

/-- A journal ends where it is said to; an empty one ends where it starts. -/
theorem getLast (h : Replays a l b) : (l.getLast?.map Prod.snd).getD a = b := by
  induction l generalizing a with
  | nil => exact h
  | cons d l ih =>
    rw [← ih h.2, List.getLast?_cons]
    cases l.getLast? with
    | none => rfl
    | some e => rfl

end Replays

/-- The entries of one key among those of a duplicate-free list of keys. -/
theorem filter_flatMap_of_nodup {κ : Type*} [DecidableEq κ] {key : β → κ} {f : κ → List β}
    (hf : ∀ k, ∀ e ∈ f k, key e = k) {ks : List κ} (hks : ks.Nodup) (k : κ) :
    (ks.flatMap f).filter (key · = k) = if k ∈ ks then f k else [] := by
  have hself : ∀ k', (f k').filter (key · = k) = if k' = k then f k else [] := by
    intro k'
    split
    · rename_i heq
      subst heq
      exact List.filter_eq_self.mpr fun e he ↦ by simpa using hf k' e he
    · rename_i hne
      refine List.filter_eq_nil_iff.mpr fun e he ↦ ?_
      rw [hf k' e he]
      simpa using hne
  induction ks with
  | nil => rfl
  | cons k' ks ih =>
    obtain ⟨hnot, hnodup⟩ := List.nodup_cons.mp hks
    rw [List.flatMap_cons, List.filter_append, hself, ih hnodup]
    by_cases heq : k' = k
    · subst heq
      rw [if_pos rfl, if_neg hnot, if_pos List.mem_cons_self, List.append_nil]
    · rw [if_neg heq, List.nil_append]
      simp only [List.mem_cons, Ne.symm heq, false_or]

end Transition
