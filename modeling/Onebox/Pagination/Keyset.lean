import Mathlib.Data.Finset.Card
import Mathlib.Data.List.Sort
import Mathlib.Order.Lattice

/-!
# Keyset pagination

A page shows the rows after a position, newest first, and the position after it when there is more.
A walk follows the positions through a sequence of row sets, one for each request, which may change
in any way in between. As positions only ever move down, no key is shown twice; as a row that is
there at each request is either shown or below the position, the walk misses none of these; and as
each page but the last shows a key that no other page shows, it ends.
-/

namespace Keyset

variable {Row Key : Type*} [LinearOrder Key]

/-- A page, and the position to go on from. -/
structure Page (Row Key : Type*) where
  rows : List Row
  next : Option Key

/-- The rows after a position, newest first. -/
def after (key : Row → Key) (cursor : Option Key) (rows : List Row) : List Row :=
  (rows.filter fun row ↦ cursor.all (key row < ·)).mergeSort fun row row' ↦ key row' ≤ key row

/-- The page after a position. One row more than the limit tells whether there is another page. -/
def page (key : Row → Key) (limit : ℕ) (cursor : Option Key) (rows : List Row) : Page Row Key :=
  let found := (after key cursor rows).take (limit + 1)
  { rows := found.take limit
    next := if limit < found.length then (found.take limit).getLast?.map key else none }

variable {key : Row → Key} {limit : ℕ} {cursor : Option Key} {k : Key} {rows : List Row} {row : Row}

/-! ## One page -/

theorem mem_after : row ∈ after key cursor rows ↔ row ∈ rows ∧ ∀ k ∈ cursor, key row < k := by
  rw [after, List.mem_mergeSort, List.mem_filter]
  refine and_congr_right fun _ ↦ ?_
  cases cursor with
  | none => simp
  | some k => simp

/-- **The rows after a position descend strictly.** -/
theorem pairwise_after (hnodup : (rows.map key).Nodup) :
    (after key cursor rows).Pairwise fun row row' ↦ key row' < key row := by
  have hle : (after key cursor rows).Pairwise fun row row' ↦ key row' ≤ key row := by
    refine (List.pairwise_mergeSort ?_ ?_ _).imp fun h ↦ of_decide_eq_true h
    · intro a b c hab hbc
      exact decide_eq_true ((of_decide_eq_true hbc).trans (of_decide_eq_true hab))
    · intro a b
      simpa using le_total (key b) (key a)
  have hne : (after key cursor rows).Pairwise fun row row' ↦ key row ≠ key row' := by
    have hsub : ((rows.filter fun row ↦ cursor.all (key row < ·)).map key).Nodup :=
      hnodup.sublist (List.filter_sublist.map key)
    exact List.pairwise_map.mp (((List.mergeSort_perm _ _).map key).nodup_iff.mpr hsub)
  exact hle.imp₂ (fun _ _ hle hne ↦ lt_of_le_of_ne hle hne.symm) hne

theorem page_rows : (page key limit cursor rows).rows = (after key cursor rows).take limit := by
  rw [page, List.take_take, Nat.min_eq_left (Nat.le_succ limit)]

theorem mem_rows_page (h : row ∈ (page key limit cursor rows).rows) :
    row ∈ rows ∧ ∀ k ∈ cursor, key row < k := by
  rw [page_rows] at h
  exact mem_after.mp (List.mem_of_mem_take h)

theorem length_rows_page : (page key limit cursor rows).rows.length ≤ limit := by
  rw [page_rows]
  exact List.length_take_le limit _

theorem pairwise_rows_page (hnodup : (rows.map key).Nodup) :
    (page key limit cursor rows).rows.Pairwise fun row row' ↦ key row' < key row := by
  rw [page_rows]
  exact (pairwise_after hnodup).sublist (List.take_sublist limit _)

/-- There is another page when there are more rows than one page shows. -/
theorem next_page_eq : (page key limit cursor rows).next =
    if limit < (after key cursor rows).length then
      ((after key cursor rows).take limit).getLast?.map key
    else none := by
  rw [page, List.take_take, Nat.min_eq_left (Nat.le_succ limit), List.length_take]
  dsimp only
  by_cases h : limit < (after key cursor rows).length
  · rw [if_pos h, if_pos (by omega)]
  · rw [if_neg h, if_neg (by omega)]

/-- **The last page shows all rows that are left.** -/
theorem mem_rows_page_of_next_none (hlimit : 0 < limit)
    (hnext : (page key limit cursor rows).next = none) (hrow : row ∈ rows)
    (hcursor : ∀ k ∈ cursor, key row < k) : row ∈ (page key limit cursor rows).rows := by
  rw [next_page_eq] at hnext
  by_cases hmore : limit < (after key cursor rows).length
  · rw [if_pos hmore, Option.map_eq_none_iff, List.getLast?_eq_none_iff] at hnext
    have hlength := congrArg List.length hnext
    rw [List.length_take, List.length_nil] at hlength
    omega
  · rw [page_rows, List.take_of_length_le (by omega)]
    exact mem_after.mpr ⟨hrow, hcursor⟩

/-- The position to go on from is the last key of the page. -/
theorem exists_of_next_eq (hnext : (page key limit cursor rows).next = some k) :
    ∃ front last, (page key limit cursor rows).rows = front ++ [last] ∧ key last = k := by
  rw [next_page_eq] at hnext
  split at hnext
  · obtain ⟨last, hlast, hkey⟩ := Option.map_eq_some_iff.mp hnext
    obtain ⟨front, hfront⟩ := List.getLast?_eq_some_iff.mp hlast
    exact ⟨front, last, page_rows.trans hfront, hkey⟩
  · cases hnext

/-- **A page that is not the last one shows a row or leaves it below the position.** -/
theorem mem_rows_page_or_lt (hnodup : (rows.map key).Nodup)
    (hnext : (page key limit cursor rows).next = some k) (hrow : row ∈ rows)
    (hcursor : ∀ k ∈ cursor, key row < k) :
    row ∈ (page key limit cursor rows).rows ∨ key row < k := by
  obtain ⟨front, last, hrows, rfl⟩ := exists_of_next_eq hnext
  have hmem : row ∈ (after key cursor rows).take limit ++ (after key cursor rows).drop limit := by
    rw [List.take_append_drop]
    exact mem_after.mpr ⟨hrow, hcursor⟩
  have hlast : last ∈ (after key cursor rows).take limit := by
    rw [← page_rows, hrows]
    exact List.mem_append_right front List.mem_cons_self
  rw [page_rows]
  refine (List.mem_append.mp hmem).imp_right fun hdrop ↦ ?_
  have hpairwise : (after key cursor rows).Pairwise fun row row' ↦ key row' < key row :=
    pairwise_after hnodup
  rw [← List.take_append_drop limit (after key cursor rows), List.pairwise_append] at hpairwise
  exact hpairwise.2.2 last hlast row hdrop

/-- No row of a page is below the position after it. -/
theorem le_of_mem_rows_page (hnodup : (rows.map key).Nodup)
    (hnext : (page key limit cursor rows).next = some k)
    (hrow : row ∈ (page key limit cursor rows).rows) : k ≤ key row := by
  obtain ⟨front, last, hrows, rfl⟩ := exists_of_next_eq hnext
  have hpairwise : (page key limit cursor rows).rows.Pairwise fun row row' ↦ key row' < key row :=
    pairwise_rows_page hnodup
  rw [hrows] at hrow hpairwise
  rcases List.mem_append.mp hrow with hfront | hlast
  · exact ((List.pairwise_append.mp hpairwise).2.2 row hfront last List.mem_cons_self).le
  · rw [List.mem_singleton.mp hlast]

/-! ## A walk -/

/-- The position of each request, while there are any. -/
def cursorAt (key : Row → Key) (limit : ℕ) (tables : ℕ → List Row) : ℕ → Option (Option Key)
  | 0 => some none
  | n + 1 =>
    match cursorAt key limit tables n with
    | none => none
    | some cursor => (page key limit cursor (tables n)).next.map some

/-- The rows that a request shows. -/
def shownAt (key : Row → Key) (limit : ℕ) (tables : ℕ → List Row) (n : ℕ) : List Row :=
  match cursorAt key limit tables n with
  | none => []
  | some cursor => (page key limit cursor (tables n)).rows

/-- The rows that the first requests show. -/
def shown (key : Row → Key) (limit : ℕ) (tables : ℕ → List Row) : ℕ → List Row
  | 0 => []
  | n + 1 => shown key limit tables n ++ shownAt key limit tables n

variable {tables : ℕ → List Row} {n : ℕ}

@[simp] theorem shown_succ :
    shown key limit tables (n + 1) = shown key limit tables n ++ shownAt key limit tables n := rfl

theorem exists_of_cursorAt_succ {cursor' : Option Key}
    (h : cursorAt key limit tables (n + 1) = some cursor') :
    ∃ cursor k, cursorAt key limit tables n = some cursor ∧
      (page key limit cursor (tables n)).next = some k ∧ cursor' = some k := by
  rw [cursorAt] at h
  split at h
  · cases h
  · rename_i cursor hcursor
    obtain ⟨k, hk, rfl⟩ := Option.map_eq_some_iff.mp h
    exact ⟨cursor, k, hcursor, hk, rfl⟩

/-- Only the first request is made at no position. -/
theorem eq_zero_of_cursorAt_none (h : cursorAt key limit tables n = some none) : n = 0 := by
  rcases n with _ | n
  · rfl
  · obtain ⟨_, _, _, _, hsome⟩ := exists_of_cursorAt_succ h
    cases hsome

theorem shownAt_eq (h : cursorAt key limit tables n = some cursor) :
    shownAt key limit tables n = (page key limit cursor (tables n)).rows := by
  rw [shownAt, h]

theorem mem_shownAt (h : row ∈ shownAt key limit tables n) :
    ∃ cursor, cursorAt key limit tables n = some cursor ∧
      row ∈ (page key limit cursor (tables n)).rows := by
  rw [shownAt] at h
  split at h
  · exact absurd h List.not_mem_nil
  · rename_i cursor hcursor
    exact ⟨cursor, hcursor, h⟩

/-- What has been shown came from the rows of its request. -/
theorem exists_of_mem_shown (h : row ∈ shown key limit tables n) : ∃ m < n, row ∈ tables m := by
  induction n with
  | zero => exact absurd h List.not_mem_nil
  | succ n ih =>
    rcases List.mem_append.mp h with hshown | hlast
    · obtain ⟨m, hm, hrow⟩ := ih hshown
      exact ⟨m, hm.trans (Nat.lt_succ_self n), hrow⟩
    · obtain ⟨cursor, -, hrow⟩ := mem_shownAt hlast
      exact ⟨n, Nat.lt_succ_self n, (mem_rows_page hrow).1⟩

/-- Each page that is not the last one shows a row. -/
theorem le_length_shown (hcursor : cursorAt key limit tables n = some cursor) :
    n ≤ (shown key limit tables n).length := by
  induction n generalizing cursor with
  | zero => exact Nat.zero_le _
  | succ n ih =>
    obtain ⟨cursor, k, hprev, hnext, -⟩ := exists_of_cursorAt_succ hcursor
    obtain ⟨front, last, hrows, -⟩ := exists_of_next_eq hnext
    rw [shown_succ, shownAt_eq hprev, hrows, List.length_append, List.length_append,
      List.length_singleton]
    have := ih hprev
    omega

section

variable (hnodup : ∀ n, ((tables n).map key).Nodup)

include hnodup

/-- No row shown so far is below the position. -/
theorem le_of_mem_shown (hcursor : cursorAt key limit tables n = some (some k))
    (h : row ∈ shown key limit tables n) : k ≤ key row := by
  induction n generalizing k with
  | zero => exact absurd h List.not_mem_nil
  | succ n ih =>
    obtain ⟨cursor, k', hprev, hnext, hk⟩ := exists_of_cursorAt_succ hcursor
    obtain rfl := Option.some.inj hk
    rcases List.mem_append.mp h with hshown | hlast
    · cases cursor with
      | none =>
        obtain rfl := eq_zero_of_cursorAt_none hprev
        exact absurd hshown List.not_mem_nil
      | some bound =>
        obtain ⟨front, last, hrows, hlast⟩ := exists_of_next_eq hnext
        have hmem : last ∈ (page key limit (some bound) (tables n)).rows := by
          rw [hrows]
          exact List.mem_append_right front List.mem_cons_self
        have hbelow : key last < bound := (mem_rows_page hmem).2 bound rfl
        rw [← hlast]
        exact hbelow.le.trans (ih hprev hshown)
    · rw [shownAt_eq hprev] at hlast
      exact le_of_mem_rows_page (hnodup n) hnext hlast

/-- **The rows that a walk shows descend strictly.** -/
theorem pairwise_shown :
    (shown key limit tables n).Pairwise fun row row' ↦ key row' < key row := by
  induction n with
  | zero => exact List.Pairwise.nil
  | succ n ih =>
    rw [shown_succ, List.pairwise_append]
    refine ⟨ih, ?_, ?_⟩
    · rw [shownAt]
      split
      · exact List.Pairwise.nil
      · exact pairwise_rows_page (hnodup n)
    · intro row hrow row' hrow'
      obtain ⟨cursor, hcursor, hmem⟩ := mem_shownAt hrow'
      cases cursor with
      | none =>
        obtain rfl := eq_zero_of_cursorAt_none hcursor
        exact absurd hrow List.not_mem_nil
      | some bound =>
        have hbelow : key row' < bound := (mem_rows_page hmem).2 bound rfl
        exact hbelow.trans_le (le_of_mem_shown hnodup hcursor hrow)

/-- A row that is there at each request has been shown or is below the position. -/
theorem mem_shown_or_lt (hcursor : cursorAt key limit tables n = some cursor)
    (hrow : ∀ m < n, row ∈ tables m) :
    row ∈ shown key limit tables n ∨ ∀ k ∈ cursor, key row < k := by
  induction n generalizing cursor with
  | zero =>
    obtain rfl := Option.some.inj hcursor
    exact Or.inr nofun
  | succ n ih =>
    obtain ⟨cursor, k, hprev, hnext, rfl⟩ := exists_of_cursorAt_succ hcursor
    rw [shown_succ, shownAt_eq hprev]
    rcases ih hprev fun m hm ↦ hrow m (hm.trans (Nat.lt_succ_self n)) with hshown | hbelow
    · exact Or.inl (List.mem_append_left _ hshown)
    · rcases mem_rows_page_or_lt (hnodup n) hnext (hrow n (Nat.lt_succ_self n)) hbelow with
        hpage | hlt
      · exact Or.inl (List.mem_append_right _ hpage)
      · refine Or.inr fun k' hk' ↦ ?_
        obtain rfl := Option.some.inj hk'
        exact hlt

/-- **A walk that has ended has shown each row that was there at each of its requests.** -/
theorem mem_shown_of_ended (hlimit : 0 < limit) (hended : cursorAt key limit tables n = none)
    (hrow : ∀ m, (cursorAt key limit tables m).isSome → row ∈ tables m) :
    row ∈ shown key limit tables n := by
  induction n with
  | zero => cases hended
  | succ n ih =>
    rw [shown_succ]
    cases hprev : cursorAt key limit tables n with
    | none => exact List.mem_append_left _ (ih hprev)
    | some cursor =>
      have hpast : ∀ m ≤ n, (cursorAt key limit tables m).isSome := by
        intro m hm
        induction hm using Nat.decreasingInduction with
        | of_succ m hm ih =>
          obtain ⟨cursor, hcursor⟩ := Option.isSome_iff_exists.mp ih
          obtain ⟨_, _, hm, -⟩ := exists_of_cursorAt_succ hcursor
          rw [hm]
          rfl
        | self => rw [hprev]; rfl
      have hnext : (page key limit cursor (tables n)).next = none := by
        rw [cursorAt, hprev] at hended
        exact Option.map_eq_none_iff.mp hended
      rw [shownAt_eq hprev]
      rcases mem_shown_or_lt hnodup hprev fun m hm ↦ hrow m (hpast m hm.le) with hshown | hbelow
      · exact List.mem_append_left _ hshown
      · exact List.mem_append_right _
          (mem_rows_page_of_next_none hlimit hnext (hrow n (hpast n le_rfl)) hbelow)

/-- **A walk through rows with finitely many keys ends**, after at most one request for each key
and one more. -/
theorem cursorAt_eq_none {keys : Finset Key} (hkeys : ∀ n, ∀ row ∈ tables n, key row ∈ keys) :
    cursorAt key limit tables (keys.card + 1) = none := by
  cases hcursor : cursorAt key limit tables (keys.card + 1) with
  | none => rfl
  | some cursor =>
    have hdistinct : ((shown key limit tables (keys.card + 1)).map key).Nodup :=
      List.pairwise_map.mpr ((pairwise_shown hnodup).imp fun h ↦ h.ne')
    have hsub : ((shown key limit tables (keys.card + 1)).map key).toFinset ⊆ keys := by
      intro k hk
      obtain ⟨row, hrow, rfl⟩ := List.mem_map.mp (List.mem_toFinset.mp hk)
      obtain ⟨m, -, hmem⟩ := exists_of_mem_shown hrow
      exact hkeys m row hmem
    have hcard := Finset.card_le_card hsub
    rw [List.toFinset_card_of_nodup hdistinct, List.length_map] at hcard
    have hlength := le_length_shown hcursor
    omega

end

end Keyset
