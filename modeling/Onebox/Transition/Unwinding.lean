import Onebox.Transition.System

/-!
# Unwinding

An observer of a system sees the answers to some calls and, of a state, what a relation between
states says. The calls of the others are *hidden*. When a hidden call never changes what is seen,
and a kept call made in two states that look the same is answered the same and leads to states that
look the same, then the others cannot be noticed: two runs with the same kept calls, whatever the
hidden ones, are answered the same. When moreover a kept call stays enabled without the hidden ones,
these can be deleted from a run altogether.
-/

namespace Transition

namespace System

variable {σ α ο : Type*} {M : System σ α ο} {C : σ → α → Prop} {kept : α → Bool}

/-- The events of the calls that meet a condition. -/
def eventsOf (p : α → Bool) (tr : List (α × ο)) : List (α × ο) := tr.filter fun e ↦ p e.1

theorem eventsOf_append (p : α → Bool) (tr tr' : List (α × ο)) :
    eventsOf p (tr ++ tr') = eventsOf p tr ++ eventsOf p tr' := List.filter_append _ _

theorem eventsOf_cons (p : α → Bool) (e : α × ο) (tr : List (α × ο)) :
    eventsOf p (e :: tr) = if p e.1 then e :: eventsOf p tr else eventsOf p tr :=
  List.filter_cons

theorem eventsOf_concat (p : α → Bool) (tr : List (α × ο)) (e : α × ο) :
    eventsOf p (tr ++ [e]) = eventsOf p tr ++ if p e.1 then [e] else [] := by
  rw [eventsOf_append, eventsOf_cons]
  rfl

/-- No event is of a kept call, and so none of an observed one. -/
theorem eventsOf_eq_nil {observed : α → Bool} (hkept : ∀ a, observed a = true → kept a = true)
    {tr : List (α × ο)} (h : eventsOf kept tr = []) : eventsOf observed tr = [] := by
  rw [eventsOf, List.filter_eq_nil_iff] at h
  exact List.filter_eq_nil_iff.mpr fun e he hobserved ↦ h e he (hkept _ hobserved)

/-- **What an observer cannot notice.** The relation says that two states look the same. -/
structure Unwinding (M : System σ α ο) (C : σ → α → Prop) (kept observed : α → Bool)
    (R : σ → σ → Prop) : Prop where
  kept_of_observed : ∀ a, observed a = true → kept a = true
  symm : ∀ {s s'}, R s s' → R s' s
  hidden : ∀ {s s' a t o}, R s s' → kept a = false → C s a → M.step s a = some (t, o) → R t s'
  agree : ∀ {s s' a t t' o o'}, R s s' → kept a = true → C s a → C s' a →
    M.step s a = some (t, o) → M.step s' a = some (t', o') →
    R t t' ∧ (observed a = true → o = o')

namespace Unwinding

variable {observed : α → Bool} {R : σ → σ → Prop} {s s' t t' : σ} {tr tr' : List (α × ο)}

/-- A run of hidden calls is not noticed. -/
theorem of_hidden (h : Unwinding M C kept observed R) (hrun : Run M C s tr t)
    (hnone : eventsOf kept tr = []) (hR : R s s') : R t s' := by
  induction hrun with
  | nil => exact hR
  | @snoc t u tr a o _ hC hs ih =>
    rw [eventsOf_concat, List.append_eq_nil_iff] at hnone
    refine h.hidden (ih hnone.1) ?_ hC hs
    by_contra hkept
    rw [if_pos (Bool.not_eq_false _ ▸ hkept)] at hnone
    exact absurd hnone.2 (List.cons_ne_nil _ _)

/-- A run whose last kept call is `a` makes it between a run with the calls before and one of hidden
calls. -/
theorem exists_last (hrun : Run M C s tr t) {calls : List α} {a : α}
    (h : (eventsOf kept tr).map Prod.fst = calls ++ [a]) :
    ∃ tr₁ u v o tr₂, Run M C s tr₁ u ∧ C u a ∧ M.step u a = some (v, o) ∧ Run M C v tr₂ t ∧
      kept a = true ∧ (eventsOf kept tr₁).map Prod.fst = calls ∧ eventsOf kept tr₂ = [] ∧
      tr = tr₁ ++ (a, o) :: tr₂ := by
  induction hrun with
  | nil => exact absurd h.symm (List.append_ne_nil_of_right_ne_nil _ (List.cons_ne_nil _ _))
  | @snoc t u tr b o hrun hC hs ih =>
    rw [eventsOf_concat] at h
    by_cases hb : kept b = true
    · rw [if_pos hb, List.map_append] at h
      obtain ⟨hcalls, hlast⟩ := List.append_inj_left' h rfl, List.append_inj_right' h rfl
      obtain rfl : b = a := by simpa using hlast
      exact ⟨tr, t, u, o, [], hrun, hC, hs, .nil u, hb, hcalls, rfl, rfl⟩
    · rw [if_neg hb, List.append_nil] at h
      obtain ⟨tr₁, u', v, o', tr₂, hrun₁, hC', hs', hrun₂, ha, hcalls, hnone, rfl⟩ := ih h
      refine ⟨tr₁, u', v, o', tr₂ ++ [(b, o)], hrun₁, hC', hs', hrun₂.snoc hC hs, ha, hcalls, ?_,
        ?_⟩
      · rw [eventsOf_concat, hnone, if_neg hb]
        rfl
      · rw [List.append_assoc, List.cons_append]

/-- **Noninterference.** Two runs with the same kept calls, from states that look the same, are
answered the same and end in states that look the same. -/
theorem noninterference (h : Unwinding M C kept observed R) (hrun : Run M C s tr t)
    (hrun' : Run M C s' tr' t') (hR : R s s')
    (hcalls : (eventsOf kept tr).map Prod.fst = (eventsOf kept tr').map Prod.fst) :
    R t t' ∧ eventsOf observed tr = eventsOf observed tr' := by
  induction hrun generalizing t' tr' with
  | nil =>
    have hnone : eventsOf kept tr' = [] := List.map_eq_nil_iff.mp hcalls.symm
    exact ⟨h.symm (h.of_hidden hrun' hnone (h.symm hR)),
      (eventsOf_eq_nil h.kept_of_observed hnone).symm⟩
  | @snoc t u tr a o hrun hC hs ih =>
    rw [eventsOf_concat] at hcalls
    by_cases ha : kept a = true
    · rw [if_pos ha, List.map_append, List.map_singleton] at hcalls
      obtain ⟨tr₁, t₁, u₁, o₁, tr₂, hrun₁, hC₁, hs₁, hrun₂, -, hcalls₁, hnone, rfl⟩ :=
        exists_last hrun' hcalls.symm
      obtain ⟨hRt, hanswers⟩ := ih hrun₁ hcalls₁.symm
      obtain ⟨hRu, hreply⟩ := h.agree hRt ha hC hC₁ hs hs₁
      refine ⟨h.symm (h.of_hidden hrun₂ hnone (h.symm hRu)), ?_⟩
      rw [eventsOf_concat, eventsOf_append, eventsOf_cons, hanswers,
        eventsOf_eq_nil h.kept_of_observed hnone]
      by_cases hobserved : observed a = true
      · rw [if_pos hobserved, if_pos hobserved, hreply hobserved]
      · rw [if_neg hobserved, if_neg hobserved]
    · rw [if_neg ha, List.append_nil] at hcalls
      obtain ⟨hRt, hanswers⟩ := ih hrun' hcalls
      refine ⟨h.hidden hRt (Bool.not_eq_true _ ▸ ha) hC hs, ?_⟩
      rw [eventsOf_concat, if_neg fun hobserved ↦ ha (h.kept_of_observed a hobserved),
        List.append_nil, hanswers]

end Unwinding

/-- **The others can be deleted.** Where a kept call stays enabled in a state that a relation
connects with the one it was made in, a run without its hidden calls is a run. -/
theorem Run.purge {R : σ → σ → Prop} {s s' t : σ} {tr : List (α × ο)} (h : Run M C s tr t)
    (hR : R s s')
    (hidden : ∀ {s s' a t o}, R s s' → kept a = false → C s a → M.step s a = some (t, o) → R t s')
    (follow : ∀ {s s' a t o}, R s s' → kept a = true → C s a → M.step s a = some (t, o) →
      C s' a ∧ ∃ t' o', M.step s' a = some (t', o') ∧ R t t') :
    ∃ tr' t', Run M C s' tr' t' ∧ R t t' ∧
      tr'.map Prod.fst = (eventsOf kept tr).map Prod.fst := by
  induction h with
  | nil => exact ⟨[], s', .nil s', hR, rfl⟩
  | @snoc t u tr a o _ hC hs ih =>
    obtain ⟨tr', t', hrun', hRt, hcalls⟩ := ih
    rw [eventsOf_concat]
    by_cases ha : kept a = true
    · obtain ⟨hC', u', o', hs', hRu⟩ := follow hRt ha hC hs
      refine ⟨tr' ++ [(a, o')], u', hrun'.snoc hC' hs', hRu, ?_⟩
      rw [if_pos ha, List.map_append, List.map_append, hcalls]
      rfl
    · refine ⟨tr', t', hrun', hidden hRt (Bool.not_eq_true _ ▸ ha) hC hs, ?_⟩
      rw [if_neg ha, List.append_nil, hcalls]

end System

end Transition
