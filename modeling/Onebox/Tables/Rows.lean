import Mathlib.Data.List.Nodup
import Mathlib.Data.List.Perm.Basic
import Mathlib.Logic.Function.Basic
import Mathlib.Tactic.Common

/-!
# Tables of rows, and what statements do to them

A table gives rows by their keys, next to the list of the keys that are in use. A transaction
rewrites rows under their keys, an insertion adds a key, and a deletion takes away the rows that
meet a condition. What all rows have in common is kept by a rewriting if the rows it writes have it.

A pass over a table that is made in batches repeats a round until one takes less than a full batch.
It ends, and together its rounds take exactly what there was to do.
-/

namespace Tables

universe u v w

variable {ι : Type u} {α : Type v} {rows rows' rows'' : ι → Option α} {keys : List ι}
  {P : α → Prop} {p : α → Bool} {i : ι} {a a' : α}

/-! ## Keys -/

/-- The keys in use, each once. -/
structure KeysOf (rows : ι → Option α) (keys : List ι) : Prop where
  nodup : keys.Nodup
  mem_iff : ∀ i, i ∈ keys ↔ (rows i).isSome = true

/-- The keys of the rows that meet a condition. -/
def keysWhere (rows : ι → Option α) (keys : List ι) (p : α → Bool) : List ι :=
  keys.filter fun i ↦ (rows i).any p

/-- The rows that a deletion leaves. -/
def deleteWhere (rows : ι → Option α) (p : α → Bool) : ι → Option α :=
  fun i ↦ (rows i).filter fun a ↦ !p a

/-- The keys that a deletion leaves. -/
def keysLeft (rows : ι → Option α) (keys : List ι) (p : α → Bool) : List ι :=
  keys.filter fun i ↦ !(rows i).any p

/-- The keys after an insertion under a key, if there was one and it took place. -/
def keysAfter (rows' : ι → Option α) (keys : List ι) : Option ι → List ι
  | none => keys
  | some i => if (rows' i).isSome then keys ++ [i] else keys

theorem any_eq_true_iff {o : Option α} : o.any p = true ↔ ∃ a, o = some a ∧ p a = true := by
  cases o with
  | none => exact ⟨nofun, fun ⟨_, h, _⟩ ↦ nomatch h⟩
  | some a => exact ⟨fun h ↦ ⟨a, rfl, h⟩, fun ⟨_, h, hp⟩ ↦ Option.some.inj h ▸ hp⟩

theorem KeysOf.mem_of_some (h : KeysOf rows keys) (hrow : rows i = some a) : i ∈ keys :=
  (h.mem_iff i).mpr (by rw [hrow]; rfl)

theorem KeysOf.mem_keysWhere (h : KeysOf rows keys) :
    i ∈ keysWhere rows keys p ↔ ∃ a, rows i = some a ∧ p a = true := by
  rw [keysWhere, List.mem_filter, any_eq_true_iff]
  exact ⟨And.right, fun hrow ↦ ⟨h.mem_of_some hrow.choose_spec.1, hrow⟩⟩

theorem KeysOf.nodup_keysWhere (h : KeysOf rows keys) : (keysWhere rows keys p).Nodup :=
  h.nodup.filter _

theorem deleteWhere_eq_some_iff :
    deleteWhere rows p i = some a ↔ rows i = some a ∧ p a = false := by
  rw [deleteWhere, Option.filter_eq_some_iff, Bool.not_eq_true']

theorem deleteWhere_of_some (h : rows i = some a) :
    deleteWhere rows p i = if p a then none else some a := by
  rw [deleteWhere, h]
  cases hp : p a with
  | true => simp [hp]
  | false => simp [hp]

theorem deleteWhere_of_none (h : rows i = none) : deleteWhere rows p i = none := by
  rw [deleteWhere, h]
  rfl

/-- Nothing is deleted when no row meets the condition. -/
theorem deleteWhere_eq_self (h : ∀ i a, rows i = some a → p a = false) :
    deleteWhere rows p = rows := by
  funext i
  cases hrow : rows i with
  | none => exact deleteWhere_of_none hrow
  | some a => rw [deleteWhere_of_some hrow, h i a hrow, if_neg Bool.false_ne_true]

theorem keysWhere_eq_nil (h : ∀ i a, rows i = some a → p a = false) :
    keysWhere rows keys p = [] := by
  refine List.filter_eq_nil_iff.mpr fun i _ hany ↦ ?_
  obtain ⟨a, hrow, hp⟩ := any_eq_true_iff.mp hany
  rw [h i a hrow] at hp
  cases hp

theorem keysLeft_eq_self (h : ∀ i a, rows i = some a → p a = false) :
    keysLeft rows keys p = keys := by
  refine List.filter_eq_self.mpr fun i _ ↦ ?_
  cases hany : (rows i).any p with
  | false => rfl
  | true =>
    obtain ⟨a, hrow, hp⟩ := any_eq_true_iff.mp hany
    rw [h i a hrow] at hp
    cases hp

/-- The rows selected on a condition, when each carries its own key. -/
theorem map_filter_filterMap (key : α → ι) (hkey : ∀ i a, rows i = some a → key a = i)
    (keys : List ι) (p : α → Bool) :
    ((keys.filterMap rows).filter p).map key = keysWhere rows keys p := by
  rw [keysWhere]
  induction keys with
  | nil => rfl
  | cons i keys ih =>
    cases hrow : rows i with
    | none => simp [hrow, ih]
    | some a => cases hp : p a <;> simp [hrow, hp, ih, hkey i a hrow]

theorem KeysOf.delete (h : KeysOf rows keys) :
    KeysOf (deleteWhere rows p) (keysLeft rows keys p) where
  nodup := h.nodup.filter _
  mem_iff i := by
    rw [keysLeft, List.mem_filter, h.mem_iff]
    cases hrow : rows i with
    | none => simp [deleteWhere_of_none hrow]
    | some a => cases hp : p a <;> simp [deleteWhere_of_some hrow, hp]

theorem KeysOf.insert [DecidableEq ι] (h : KeysOf rows keys) (hfree : rows i = none) (a : α) :
    KeysOf (Function.update rows i (some a)) (keys ++ [i]) where
  nodup := by
    have hnew : i ∉ keys := by
      rw [h.mem_iff, hfree]
      exact nofun
    exact List.nodup_append.mpr ⟨h.nodup, List.nodup_singleton i, fun x hx y hy hxy ↦
      hnew (List.mem_singleton.mp hy ▸ hxy ▸ hx)⟩
  mem_iff j := by
    rw [List.mem_append, List.mem_singleton, h.mem_iff]
    by_cases hj : j = i
    · subst hj
      simp
    · simp [hj]

/-- An insertion under a free key, or one that did not take place. -/
theorem KeysOf.after [DecidableEq ι] (h : KeysOf rows keys) (hfree : rows i = none)
    (hrows : rows' = rows ∨ ∃ a, rows' = Function.update rows i (some a)) :
    KeysOf rows' (keysAfter rows' keys (some i)) := by
  rcases hrows with rfl | ⟨a, rfl⟩
  · rw [keysAfter, hfree]
    exact h
  · rw [keysAfter, Function.update_self]
    exact h.insert hfree a

/-! ## Rewriting -/

/-- Every row has the property. -/
def Every (P : α → Prop) (rows : ι → Option α) : Prop := ∀ i a, rows i = some a → P a

/-- Rows are written under their keys, and those that are new have the property. -/
structure Rewrites (P : α → Prop) (rows rows' : ι → Option α) : Prop where
  keys : ∀ i, (rows' i).isSome = (rows i).isSome
  row : ∀ i a, rows' i = some a → rows i = some a ∨ P a

theorem Rewrites.refl (P : α → Prop) (rows : ι → Option α) : Rewrites P rows rows :=
  ⟨fun _ ↦ rfl, fun _ _ ↦ Or.inl⟩

/-- One row is written. -/
theorem Rewrites.update [DecidableEq ι] (hrow : rows i = some a) (hwritten : a' = a ∨ P a') :
    Rewrites P rows (Function.update rows i (some a')) where
  keys j := by
    by_cases hj : j = i
    · subst hj
      rw [Function.update_self, hrow]
      rfl
    · rw [Function.update_of_ne hj]
  row j b hb := by
    by_cases hj : j = i
    · subst hj
      rw [Function.update_self] at hb
      obtain rfl := Option.some.inj hb
      rcases hwritten with rfl | hP
      · exact Or.inl hrow
      · exact Or.inr hP
    · rw [Function.update_of_ne hj] at hb
      exact Or.inl hb

theorem KeysOf.rewrite (h : KeysOf rows keys) (hrewrites : Rewrites P rows rows') :
    KeysOf rows' keys :=
  ⟨h.nodup, fun i ↦ by rw [hrewrites.keys, h.mem_iff]⟩

theorem Every.rewrite (h : Every P rows) (hrewrites : Rewrites P rows rows') : Every P rows' :=
  fun i a hrow ↦ (hrewrites.row i a hrow).elim (h i a) id

theorem Every.delete (h : Every P rows) : Every P (deleteWhere rows p) :=
  fun i a hrow ↦ h i a (deleteWhere_eq_some_iff.mp hrow).1

theorem Every.insert [DecidableEq ι] (h : Every P rows) (ha : P a) :
    Every P (Function.update rows i (some a)) := by
  intro j b hb
  by_cases hj : j = i
  · subst hj
    rw [Function.update_self] at hb
    exact Option.some.inj hb ▸ ha
  · rw [Function.update_of_ne hj] at hb
    exact h j b hb

/-! ## Passes in batches -/

section

variable {σ : Type u} {κ : Type w}

/-- Repeats a round, which returns how much it took, until one takes less than `limit`. The result
counts what all rounds took; `none` when the fuel does not suffice. -/
def drain (round : σ → σ × ℕ) (limit : ℕ) : ℕ → ℕ → σ → Option (σ × ℕ)
  | 0, _, _ => none
  | fuel + 1, taken, s =>
    let next := round s
    if next.2 < limit then some (next.1, taken + next.2)
    else drain round limit fuel (taken + next.2) next.1

/-- A round takes what there is to do, as far as the batch goes; `after s batch` is `s` when the
batch has been done. -/
structure TakesBatches (round : σ → σ × ℕ) (limit : ℕ) (I : σ → Prop) (todo : σ → List κ)
    (after : σ → List κ → σ) : Prop where
  round : ∀ s, I s → ∃ batch rest, (todo s).Perm (batch ++ rest) ∧
    batch.length = min limit (todo s).length ∧ round s = (after s batch, batch.length) ∧
    I (after s batch) ∧ (todo (after s batch)).Perm rest
  after_append : ∀ s batch more, I s → (todo s).Perm (batch ++ more) →
    after (after s batch) more = after s (batch ++ more)

variable {round : σ → σ × ℕ} {limit : ℕ} {I : σ → Prop} {todo : σ → List κ}
  {after : σ → List κ → σ}

theorem drain_mono {r : σ × ℕ} : ∀ {fuel fuel' taken : ℕ} {s : σ}, fuel ≤ fuel' →
    drain round limit fuel taken s = some r → drain round limit fuel' taken s = some r
  | fuel + 1, fuel' + 1, taken, s, hle, h => by
    rw [drain] at h ⊢
    split at h
    · rename_i hshort
      rw [if_pos hshort]
      exact h
    · rename_i hfull
      rw [if_neg hfull]
      exact drain_mono (Nat.le_of_succ_le_succ hle) h

/-- **A pass ends, and takes exactly what there was to do.** -/
theorem TakesBatches.drain_eq (h : TakesBatches round limit I todo after) (hlimit : 0 < limit) :
    ∀ (fuel taken : ℕ) (s : σ), I s → (todo s).length < fuel → ∃ all, all.Perm (todo s) ∧
      drain round limit fuel taken s = some (after s all, taken + all.length)
  | fuel + 1, taken, s, hI, hfuel => by
    obtain ⟨batch, rest, hperm, hlength, hround, hI', hrest⟩ := h.round s hI
    have htotal : (todo s).length = batch.length + rest.length := by
      rw [hperm.length_eq, List.length_append]
    rw [drain, hround]
    split
    · -- A short batch has left nothing.
      have hnil : rest = [] := List.eq_nil_of_length_eq_zero (by omega)
      rw [hnil, List.append_nil] at hperm
      exact ⟨batch, hperm.symm, rfl⟩
    · have hless : (todo (after s batch)).length < fuel := by
        rw [hrest.length_eq]
        omega
      obtain ⟨more, hmore, hdrain⟩ :=
        h.drain_eq hlimit fuel (taken + batch.length) (after s batch) hI' hless
      have hall : (batch ++ more).Perm (todo s) :=
        ((hmore.trans hrest).append_left batch).trans hperm.symm
      refine ⟨batch ++ more, hall, ?_⟩
      rw [hdrain, h.after_append s batch more hI hall.symm, List.length_append, Nat.add_assoc]

end

end Tables
