import Mathlib.Data.List.Basic

/-!
# Reading a listing page by page

A reader asks for page after page, as long as each of them announces another, and may stop early,
once what it has found is enough. What it finds is compared with the concatenation of all pages.
-/

namespace Onebox.Paging

variable {π α ε : Type*}

/-- Reading on from what is found so far, to the last page or until `stop`. Answers that run out are
a reading that is cut off. -/
def readUntil (items : π → List α) (more : π → Bool) (stop : List α → Bool) (cutOff : ε) :
    List (Except ε π) → List α → Except ε (List α)
  | [], _ => .error cutOff
  | .error e :: _, _ => .error e
  | .ok page :: rest, found =>
    if stop (found ++ items page) then .ok (found ++ items page)
    else if more page then readUntil items more stop cutOff rest (found ++ items page)
    else .ok (found ++ items page)

/-- The answers are these pages, each of which announces another, and then the rest. -/
inductive Past (more : π → Bool) : List (Except ε π) → List π → List (Except ε π) → Prop
  | here (answers : List (Except ε π)) : Past more answers [] answers
  | next {page : π} {answers rest : List (Except ε π)} {pages : List π} (hmore : more page = true)
      (h : Past more answers pages rest) : Past more (.ok page :: answers) (page :: pages) rest

/-- The answers give the whole listing, in these pages. -/
inductive Complete (more : π → Bool) : List (Except ε π) → List π → Prop
  | last {page : π} (answers : List (Except ε π)) (hlast : more page = false) :
      Complete more (.ok page :: answers) [page]
  | next {page : π} {answers : List (Except ε π)} {pages : List π} (hmore : more page = true)
      (h : Complete more answers pages) : Complete more (.ok page :: answers) (page :: pages)

/-- The next answer is this failure. -/
def Fails (cutOff : ε) (answers : List (Except ε π)) (e : ε) : Prop :=
  answers = [] ∧ e = cutOff ∨ ∃ later, answers = .error e :: later

section

variable {items : π → List α} {more : π → Bool} {stop : List α → Bool} {cutOff e : ε} {page : π}
  {answers rest : List (Except ε π)} {pages pages' : List π} {found all : List α}

theorem complete_cons_iff_of_more (hmore : more page = true) :
    Complete more (.ok page :: answers) pages ↔
      ∃ later, Complete more answers later ∧ pages = page :: later := by
  constructor
  · intro h
    cases h with
    | last answers hlast => exact absurd (hmore.symm.trans hlast) (Bool.noConfusion ·)
    | next _ h => exact ⟨_, h, rfl⟩
  · rintro ⟨later, h, rfl⟩
    exact .next hmore h

theorem complete_cons_iff_of_last (hlast : more page = false) :
    Complete more (.ok page :: answers) pages ↔ pages = [page] := by
  constructor
  · intro h
    cases h with
    | last => rfl
    | next hmore h => exact absurd (hmore.symm.trans hlast) (Bool.noConfusion ·)
  · rintro rfl
    exact .last answers hlast

/-- There is one listing at most. -/
theorem Complete.unique (h : Complete more answers pages) (h' : Complete more answers pages') :
    pages' = pages := by
  induction h generalizing pages' with
  | last answers hlast => exact (complete_cons_iff_of_last hlast).mp h'
  | next hmore h ih =>
    obtain ⟨later, hlater, rfl⟩ := (complete_cons_iff_of_more hmore).mp h'
    rw [ih hlater]

/-- A listing whose first pages are behind is completed by the rest. -/
theorem Complete.of_past (h : Complete more answers pages) (hpast : Past more answers pages' rest) :
    ∃ later, Complete more rest later := by
  induction hpast generalizing pages with
  | here => exact ⟨pages, h⟩
  | next hmore _ ih =>
    obtain ⟨later, hlater, -⟩ := (complete_cons_iff_of_more hmore).mp h
    exact ih hlater

/-- **Stopping early changes nothing where it does not happen**: a reading ends with what does not
stop it if and only if that is the concatenation of all pages. -/
theorem readUntil_eq_ok_iff
    (hmono : ∀ found later, stop found = true → stop (found ++ later) = true)
    (hstop : stop all = false) :
    readUntil items more stop cutOff answers found = .ok all ↔
      ∃ pages, Complete more answers pages ∧ all = found ++ pages.flatMap items := by
  induction answers generalizing found with
  | nil => exact iff_of_false nofun (fun ⟨_, h, _⟩ ↦ nomatch h)
  | cons answer rest ih =>
    cases answer with
    | error e => exact iff_of_false nofun (fun ⟨_, h, _⟩ ↦ nomatch h)
    | ok page =>
      rw [readUntil]
      cases hfound : stop (found ++ items page) with
      | true =>
        -- Whatever follows, the whole would stop the reading too.
        rw [if_pos rfl]
        refine iff_of_false (fun h ↦ ?_) ?_
        · rw [← Except.ok.inj h, hfound] at hstop
          cases hstop
        · rintro ⟨pages, hcomplete, rfl⟩
          cases hcomplete with
          | last => simp [hfound] at hstop
          | @next _ _ pages _ h =>
            rw [List.flatMap_cons, ← List.append_assoc, hmono _ _ hfound] at hstop
            cases hstop
      | false =>
        rw [if_neg Bool.false_ne_true]
        cases hmore : more page with
        | true =>
          rw [if_pos rfl, ih]
          simp only [complete_cons_iff_of_more hmore]
          constructor
          · rintro ⟨pages, h, rfl⟩
            exact ⟨page :: pages, ⟨pages, h, rfl⟩, by rw [List.flatMap_cons, List.append_assoc]⟩
          · rintro ⟨_, ⟨pages, h, rfl⟩, rfl⟩
            exact ⟨pages, h, by rw [List.flatMap_cons, List.append_assoc]⟩
        | false =>
          rw [if_neg Bool.false_ne_true]
          simp only [complete_cons_iff_of_last hmore, exists_eq_left, List.flatMap_singleton]
          exact ⟨fun h ↦ (Except.ok.inj h).symm, congrArg Except.ok ∘ Eq.symm⟩

theorem not_fails_ok : ¬Fails cutOff (.ok page :: answers) e := by
  rintro (⟨hnil, -⟩ | ⟨later, hlater⟩)
  · cases hnil
  · cases hlater

/-- A reading fails if and only if it comes to an answer that failed, or to none, with nothing that
would stop it. -/
theorem readUntil_eq_error_iff
    (hmono : ∀ found later, stop found = true → stop (found ++ later) = true)
    (hfound : stop found = false) :
    readUntil items more stop cutOff answers found = .error e ↔
      ∃ pages rest, Past more answers pages rest ∧ stop (found ++ pages.flatMap items) = false ∧
        Fails cutOff rest e := by
  induction answers generalizing found with
  | nil =>
    constructor
    · intro h
      exact ⟨[], [], .here [], by simpa using hfound, Or.inl ⟨rfl, (Except.error.inj h).symm⟩⟩
    · rintro ⟨pages, rest, hpast, -, hrest⟩
      cases hpast
      obtain ⟨-, rfl⟩ | ⟨later, hlater⟩ := hrest
      · rfl
      · cases hlater
  | cons answer answers ih =>
    cases answer with
    | error e' =>
      constructor
      · intro h
        obtain rfl := Except.error.inj h
        exact ⟨[], _, .here _, by simpa using hfound, Or.inr ⟨answers, rfl⟩⟩
      · rintro ⟨pages, rest, hpast, -, hrest⟩
        cases hpast
        obtain ⟨hnil, -⟩ | ⟨later, hlater⟩ := hrest
        · cases hnil
        · rw [readUntil, Except.error.inj (List.cons.inj hlater).1]
    | ok page =>
      rw [readUntil]
      cases hnext : stop (found ++ items page) with
      | true =>
        rw [if_pos rfl]
        refine iff_of_false nofun ?_
        rintro ⟨pages, rest, hpast, hstop, hrest⟩
        cases hpast with
        | here => exact absurd hrest not_fails_ok
        | next _ h =>
          -- It has stopped here, and by monotonicity it would have stopped
          -- with any later pages too.
          rw [List.flatMap_cons, ← List.append_assoc, hmono _ _ hnext] at hstop
          cases hstop
      | false =>
        rw [if_neg Bool.false_ne_true]
        cases hmore : more page with
        | true =>
          rw [if_pos rfl, ih hnext]
          constructor
          · rintro ⟨pages, rest, hpast, hstop, hrest⟩
            rw [List.append_assoc, ← List.flatMap_cons] at hstop
            exact ⟨page :: pages, rest, .next hmore hpast, hstop, hrest⟩
          · rintro ⟨pages, rest, hpast, hstop, hrest⟩
            cases hpast with
            | here => exact absurd hrest not_fails_ok
            | next _ h =>
              rw [List.flatMap_cons, ← List.append_assoc] at hstop
              exact ⟨_, rest, h, hstop, hrest⟩
        | false =>
          rw [if_neg Bool.false_ne_true]
          refine iff_of_false nofun ?_
          rintro ⟨pages, rest, hpast, -, hrest⟩
          cases hpast with
          | here => exact absurd hrest not_fails_ok
          | next hmore' h => exact absurd (hmore'.symm.trans hmore) (Bool.noConfusion ·)

end

end Onebox.Paging
