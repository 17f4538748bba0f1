import Mathlib.Data.List.Basic
import Mathlib.Tactic.Common

/-!
# What an iterator answers

An asynchronous iterator answers each request with an item, with the end of the iteration, or with
an error. It ends once if after its first answer that is not an item it only says that it has
ended. `async for` asks until then, and passes on the items.
-/

namespace Streams

universe u v

/-- An answer of `__anext__`: an item, `StopAsyncIteration`, or another exception. -/
inductive Answer (α : Type u) (ε : Type v)
  | item (a : α)
  | stop
  | raised (e : ε)

/-- How an iteration ends. -/
inductive Ending (ε : Type v)
  | returned
  | raised (e : ε)

variable {α : Type u} {ε : Type v} {answers : List (Answer α ε)} {answer : Answer α ε} {a : α}
  {ending : Ending ε}

namespace Answer

def item? : Answer α ε → Option α
  | item a => some a
  | stop | raised _ => none

end Answer

/-- The items among the answers. -/
def items (answers : List (Answer α ε)) : List α := answers.filterMap Answer.item?

/-- All answers so far are items. -/
def Going (answers : List (Answer α ε)) : Prop := ∀ answer ∈ answers, answer.item? ≠ none

/-- After the first answer that is not an item, there is no item and no error. -/
def EndsOnce (answers : List (Answer α ε)) : Prop :=
  ∀ before answer after, answers = before ++ answer :: after → answer.item? = none →
    ∀ later ∈ after, later = .stop

/-- `async for`: the items that it passes on, and how it has ended. -/
def asyncFor : List (Answer α ε) → List α × Option (Ending ε)
  | [] => ([], none)
  | .item a :: rest => (a :: (asyncFor rest).1, (asyncFor rest).2)
  | .stop :: _ => ([], some .returned)
  | .raised e :: _ => ([], some (.raised e))

theorem going_nil : Going ([] : List (Answer α ε)) := nofun

theorem Going.snoc (h : Going answers) (a : α) : Going (answers ++ [.item a]) := by
  intro answer hmem
  rcases List.mem_append.mp hmem with hold | hnew
  · exact h answer hold
  · obtain rfl := List.mem_singleton.mp hnew
    exact nofun

theorem items_snoc (answers : List (Answer α ε)) (answer : Answer α ε) :
    items (answers ++ [answer]) = items answers ++ answer.item?.toList := by
  rw [items, items, List.filterMap_append]
  cases answer <;> rfl

/-- The place of the first answer that is not an item cannot be among items. -/
theorem Going.eq_of_split (h : Going answers) {before after : List (Answer α ε)}
    {last : Answer α ε} (heq : answers ++ [last] = before ++ answer :: after)
    (hanswer : answer.item? = none) : before = answers ∧ answer = last ∧ after = [] := by
  rcases List.eq_nil_or_concat' after with rfl | ⟨after, x, rfl⟩
  · obtain ⟨rfl, hlast⟩ := List.append_inj' heq rfl
    exact ⟨rfl, (List.singleton_inj.mp hlast).symm, rfl⟩
  · rw [← List.cons_append, ← List.append_assoc] at heq
    obtain ⟨rfl, -⟩ := List.append_inj' heq rfl
    exact absurd hanswer (h answer (List.mem_append_right _ List.mem_cons_self))

/-- The first answer that is not an item ends the iteration. -/
theorem Going.endsOnce_snoc (h : Going answers) (last : Answer α ε) :
    EndsOnce (answers ++ [last]) := by
  intro before answer after heq hanswer later hlater
  rw [(h.eq_of_split heq hanswer).2.2] at hlater
  cases hlater

theorem EndsOnce.snoc_stop (h : EndsOnce answers) : EndsOnce (answers ++ [.stop]) := by
  intro before answer after heq hanswer later hlater
  rcases List.eq_nil_or_concat' after with rfl | ⟨after, x, rfl⟩
  · cases hlater
  · rw [← List.cons_append, ← List.append_assoc] at heq
    obtain ⟨hold, hlast⟩ := List.append_inj' heq rfl
    rcases List.mem_append.mp hlater with hin | hin
    · exact h before answer after hold hanswer later hin
    · obtain rfl := List.mem_singleton.mp hin
      exact (List.singleton_inj.mp hlast).symm

/-! ## `async for` -/

/-- What has been passed on comes first among the items. -/
theorem prefix_asyncFor (answers : List (Answer α ε)) :
    (asyncFor answers).1 <+: items answers := by
  induction answers with
  | nil => exact List.prefix_rfl
  | cons answer rest ih =>
    cases answer with
    | item a => exact List.prefix_cons_inj a |>.mpr ih
    | stop => exact List.nil_prefix
    | raised e => exact List.nil_prefix

/-- A loop that returns has been told that the iteration is over, after items only. -/
theorem exists_stop_of_asyncFor {passed : List α}
    (h : asyncFor answers = (passed, some .returned)) :
    ∃ before after, answers = before ++ .stop :: after ∧ Going before ∧ items before = passed := by
  induction answers generalizing passed with
  | nil => cases (Prod.mk.inj h).2
  | cons answer rest ih =>
    cases answer with
    | item a =>
      obtain ⟨rfl, hend⟩ := Prod.mk.inj h
      obtain ⟨before, after, hrest, hgoing, hitems⟩ := ih (Prod.ext rfl hend)
      refine ⟨.item a :: before, after, by rw [hrest, List.cons_append], ?_, ?_⟩
      · intro x hx
        rcases List.mem_cons.mp hx with rfl | hx
        · exact nofun
        · exact hgoing x hx
      · exact congrArg (a :: ·) hitems
    | stop =>
      obtain ⟨rfl, -⟩ := Prod.mk.inj h
      exact ⟨[], rest, rfl, going_nil, rfl⟩
    | raised e => cases (Prod.mk.inj h).2

end Streams
