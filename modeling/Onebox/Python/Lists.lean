import Mathlib.Data.List.Forall2
import Mathlib.Data.List.Induction
import Mathlib.Data.List.Nodup
import Mathlib.Data.List.Sort
import Mathlib.Data.String.Basic

/-!
# Lists that are validated, sorted, searched and freed of repetitions

A list is validated when a function that may refuse accepts all its members; it is sorted by a text,
as `sorted` does; and it is searched by a key that no two members share. `list(dict.fromkeys(l))` is
`l.eraseDups`: what has been seen before is left out.
-/

namespace Python

variable {α β : Type*} {l l' : List α} {a : α}

/-! ## Validation -/

section

variable {f : α → Option β} {m : List β} {R : α → β → Prop}

theorem mapM_eq_some_iff : l.mapM f = some m ↔ List.Forall₂ (fun a b ↦ f a = some b) l m := by
  induction l generalizing m with
  | nil => simp [eq_comm]
  | cons a l ih =>
    rw [List.mapM_cons, List.forall₂_cons_left_iff]
    simp only [Option.bind_eq_bind, Option.bind_eq_some_iff, Option.pure_def, Option.some.injEq]
    constructor
    · rintro ⟨b, hb, bs, hbs, rfl⟩
      exact ⟨b, bs, hb, ih.mp hbs, rfl⟩
    · rintro ⟨b, bs, hb, hbs, rfl⟩
      exact ⟨b, hb, bs, ih.mpr hbs, rfl⟩

theorem map_eq_of_mapM (h : l.mapM f = some m) : l.map f = m.map some := by
  have hall := mapM_eq_some_iff.mp h
  rwa [← List.forall₂_eq_eq_eq, List.forall₂_map_left_iff, List.forall₂_map_right_iff]

/-- A function that accepts the list as it is accepts each member as it is. -/
theorem mapM_self_iff {f : α → Option α} : l.mapM f = some l ↔ ∀ a ∈ l, f a = some a := by
  rw [mapM_eq_some_iff, List.forall₂_same]

theorem exists_right_of_forall₂ (h : List.Forall₂ R l m) (ha : a ∈ l) : ∃ b ∈ m, R a b := by
  induction h with
  | nil => exact absurd ha List.not_mem_nil
  | cons hab _ ih =>
    rcases List.mem_cons.mp ha with rfl | ha
    · exact ⟨_, List.mem_cons_self, hab⟩
    · obtain ⟨b, hb, hR⟩ := ih ha
      exact ⟨b, List.mem_cons_of_mem _ hb, hR⟩

theorem exists_left_of_forall₂ {b : β} (h : List.Forall₂ R l m) (hb : b ∈ m) : ∃ a ∈ l, R a b :=
  exists_right_of_forall₂ h.flip hb

end

/-! ## Sorting by a text -/

variable {text : α → String}

theorem pairwise_mergeSort_text (text : α → String) (l : List α) :
    (l.mergeSort fun a b ↦ text a ≤ text b).Pairwise fun a b ↦ text a ≤ text b := by
  refine (List.pairwise_mergeSort ?_ ?_ l).imp fun hle ↦ of_decide_eq_true hle
  · intro a b c hab hbc
    exact decide_eq_true (String.le_trans (of_decide_eq_true hab) (of_decide_eq_true hbc))
  · intro a b
    simpa using String.le_total (text a) (text b)

/-- The order of a sorted list is decided by its members, when their texts differ. -/
theorem mergeSort_text_eq (hnodup : (l.map text).Nodup) (hperm : l.Perm l') :
    (l.mergeSort fun a b ↦ text a ≤ text b) = l'.mergeSort fun a b ↦ text a ≤ text b := by
  refine List.Perm.eq_of_pairwise ?_ (pairwise_mergeSort_text text l)
    (pairwise_mergeSort_text text l') ?_
  · intro a b ha hb hab hba
    have hmem : b ∈ l := hperm.mem_iff.mpr (List.mem_mergeSort.mp hb)
    exact List.inj_on_of_nodup_map hnodup (List.mem_mergeSort.mp ha) hmem
      (String.le_antisymm hab hba)
  · exact (List.mergeSort_perm _ _).trans (hperm.trans (List.mergeSort_perm _ _).symm)

/-- A list that is in order already. -/
theorem mergeSort_text_self (hnodup : (l.map text).Nodup)
    (hsorted : l.Pairwise fun a b ↦ text a ≤ text b) :
    (l.mergeSort fun a b ↦ text a ≤ text b) = l := by
  refine List.Perm.eq_of_pairwise ?_ (pairwise_mergeSort_text text l) hsorted
    (List.mergeSort_perm _ _)
  intro a b ha hb hab hba
  exact List.inj_on_of_nodup_map hnodup (List.mem_mergeSort.mp ha) hb (String.le_antisymm hab hba)

/-! ## Search by a key -/

variable {κ : Type*} {key : α → κ}

theorem find?_eq_some_iff_of_nodup [DecidableEq κ] {k : κ} (h : (l.map key).Nodup) :
    (l.find? fun x ↦ key x = k) = some a ↔ a ∈ l ∧ key a = k := by
  induction l with
  | nil => simp
  | cons x l ih =>
    obtain ⟨hnew, hrest⟩ := List.nodup_cons.mp h
    by_cases hk : key x = k
    · subst hk
      rw [List.find?_cons_of_pos (by simp), Option.some_inj, List.mem_cons]
      constructor
      · rintro rfl
        exact ⟨Or.inl rfl, rfl⟩
      · rintro ⟨rfl | hmem, hkey⟩
        · rfl
        · exact absurd (hkey ▸ List.mem_map_of_mem hmem) hnew
    · rw [List.find?_cons_of_neg (by simpa using hk), ih hrest, List.mem_cons]
      constructor
      · rintro ⟨hmem, hkey⟩
        exact ⟨Or.inr hmem, hkey⟩
      · rintro ⟨rfl | hmem, hkey⟩
        · exact absurd hkey hk
        · exact ⟨hmem, hkey⟩

/-- Lists of the same members with their keys in the same order are equal. -/
theorem eq_of_perm_of_map_eq (h : (l.map key).Nodup) (hperm : l'.Perm l)
    (hkeys : l'.map key = l.map key) : l' = l := by
  refine List.ext_getElem hperm.length_eq fun n hn hn' ↦ ?_
  have hkey : (l'.map key)[n]? = (l.map key)[n]? := by rw [hkeys]
  have hmem := hperm.mem_iff.mp (List.getElem_mem hn)
  refine List.inj_on_of_nodup_map h hmem (List.getElem_mem hn') ?_
  simpa [hn, hn'] using hkey

/-! ## First occurrences -/

section

variable [DecidableEq α]

/-- One more member is kept if it is new. -/
theorem eraseDups_concat (l : List α) (a : α) :
    (l ++ [a]).eraseDups = if a ∈ l then l.eraseDups else l.eraseDups ++ [a] := by
  rw [List.eraseDups_append, List.removeAll]
  by_cases ha : a ∈ l
  · rw [if_pos ha, List.filter_cons_of_neg (by simpa using ha), List.filter_nil,
      List.eraseDups_nil, List.append_nil]
  · rw [if_neg ha, List.filter_cons_of_pos (by simpa using ha), List.filter_nil,
      List.eraseDups_cons, List.filter_nil, List.eraseDups_nil]

theorem nodup_eraseDups (l : List α) : l.eraseDups.Nodup := by
  induction l using List.reverseRecOn with
  | nil => exact List.nodup_nil
  | append_singleton l a ih =>
    rw [eraseDups_concat]
    split
    · exact ih
    · rename_i hnew
      rw [List.nodup_append']
      refine ⟨ih, List.nodup_singleton a, ?_⟩
      rw [List.disjoint_singleton, List.mem_eraseDups]
      exact hnew

theorem length_eraseDups_le (l : List α) : l.eraseDups.length ≤ l.length :=
  (List.subperm_of_subset (nodup_eraseDups l) fun _ ↦ List.mem_eraseDups.mp).length_le

end

/-! ## One member among others -/

section

variable {γ : Type*} {f : α → Option γ} {p : γ → Bool} {before after : List α} {c : γ}

theorem filter_filterMap_eq_nil (h : ∀ b ∈ l, ∀ c, f b = some c → p c = false) :
    (l.filterMap f).filter p = [] := by
  refine List.filter_eq_nil_iff.mpr fun c hc ↦ ?_
  obtain ⟨b, hb, hfc⟩ := List.mem_filterMap.mp hc
  rw [h b hb c hfc]
  exact Bool.false_ne_true

/-- A filter that only one member passes. -/
theorem filter_filterMap_eq_singleton (ha : f a = some c) (hc : p c = true)
    (hother : ∀ b ∈ before ++ after, ∀ c, f b = some c → p c = false) :
    ((before ++ a :: after).filterMap f).filter p = [c] := by
  have hbefore := filter_filterMap_eq_nil fun b hb ↦ hother b (List.mem_append_left _ hb)
  have hafter := filter_filterMap_eq_nil fun b hb ↦ hother b (List.mem_append_right _ hb)
  rw [List.filterMap_append, List.filter_append, hbefore, List.nil_append,
    List.filterMap_cons_some ha, List.filter_cons_of_pos hc, hafter]

/-- A check of all members, one after the other. -/
theorem forall_mem_of_all {p : α → Prop} [DecidablePred p] {xs : List α}
    (h : (xs.all fun a ↦ decide (p a)) = true) : ∀ a ∈ xs, p a :=
  fun a ha ↦ of_decide_eq_true (List.all_eq_true.mp h a ha)

/-- What has no gap in it lies on one side of every gap. -/
theorem infix_or_infix_of_gap {word left right : List α} {gap : α} (hgap : gap ∉ word)
    (h : word <:+: left ++ gap :: right) : word <:+: left ∨ word <:+: right := by
  obtain ⟨before, after, heq⟩ := h
  obtain ⟨more, rfl, -⟩ | ⟨ahead, hahead, hright⟩ := List.append_eq_append_iff.mp heq
  · exact Or.inl ⟨before, more, rfl⟩
  cases ahead with
  | nil => exact Or.inl ⟨before, [], by rw [List.append_nil, hahead, List.append_nil]⟩
  | cons first ahead =>
    obtain ⟨rfl, rfl⟩ := List.cons.inj hright
    obtain ⟨more, -, hword⟩ | ⟨skipped, -, hword⟩ := List.append_eq_append_iff.mp hahead
    · rw [hword] at hgap
      exact absurd (List.mem_append_right _ List.mem_cons_self) hgap
    · cases skipped with
      | nil =>
        rw [List.nil_append] at hword
        rw [← hword] at hgap
        exact absurd List.mem_cons_self hgap
      | cons first' skipped =>
        obtain ⟨-, rfl⟩ := List.cons.inj hword
        exact Or.inr ⟨skipped, after, rfl⟩

/-- A text in brackets is part of another one only if they are the same, where the brackets occur
nowhere else. -/
theorem eq_of_infix_brackets {opening closing : α} {body body' : List α} (hne : opening ≠ closing)
    (hopening : opening ∉ body) (hclosing : closing ∉ body)
    (h : opening :: body' ++ [closing] <:+: opening :: body ++ [closing]) : body' = body := by
  obtain ⟨before, after, heq⟩ := h
  cases before with
  | nil =>
    have hbodies : body' ++ closing :: after = body ++ closing :: [] := by
      simpa using heq
    exact ((List.append_cons_inj_of_notMem hclosing List.not_mem_nil).mp hbodies.symm).1.symm
  | cons first before =>
    -- The bracket that opens the part would be inside the whole.
    have htail : before ++ (opening :: body' ++ [closing]) ++ after = body ++ [closing] :=
      (List.cons.inj heq).2
    have hmem : opening ∈ body ++ [closing] := by
      rw [← htail]
      simp
    rcases List.mem_append.mp hmem with hmem | hmem
    · exact absurd hmem hopening
    · exact absurd (List.mem_singleton.mp hmem) hne

end

end Python
