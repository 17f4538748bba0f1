import Onebox.PendingActions.OwnerRequests
import Onebox.Transition.Unwinding

/-!
# Owners do not notice each other

What one owner is answered depends on that owner's requests and on the service only. Whatever the
others request, in whatever order, the answers are the same, also where an owner asks for the action
of somebody else: it looks like one that does not exist.
-/

namespace Onebox.PendingActions

open Python Transition

/-! ## What an owner sees of a state -/

/-- **The two states look the same to the owner.** -/
structure SameView {env : PayloadEnv} (u : UserId) (w w' : ActionService env) : Prop where
  rows : w.table.own u = w'.table.own u
  calls : ∀ n, w.calls u n = w'.calls u n
  /-- A row to be read back is there. -/
  stored : ∀ n command id, w.calls u n = some ⟨command, .refreshing id⟩ →
    ∃ row ∈ w.table.own u, row.id = id

section

variable {env : PayloadEnv} {columns : ActionId → ListedColumns} {u v : UserId}
  {w w' t t' : ActionService env} {a : ServiceCall} {o o' : ServiceAnswer} {n : ℕ} {id : ActionId}
  {clock : Clock} {command : Command env} {phase next next' : CreatePhase}
  {table table' table₀ : ActionTable}

theorem SameView.symm (h : SameView u w w') : SameView u w' w where
  rows := h.rows.symm
  calls n := (h.calls n).symm
  stored n command id hcall := by
    rw [← h.rows]
    exact h.stored n command id ((h.calls n).trans hcall)

/-- No owner's row changes when its transaction is another owner's. -/
theorem apply_claim_of_ne {rules : PayloadRules} {row : PendingAction} {token : String}
    (hrow : row ∈ w.table.own u) (hne : v ≠ u) :
    (RowTransaction.claim v token clock).apply rules row = row := by
  rw [RowTransaction.apply, if_neg fun howner ↦ hne ?_]
  rw [← howner, (ActionTable.mem_own.mp hrow).2]

theorem apply_reject_of_ne {rules : PayloadRules} {row : PendingAction}
    (hrow : row ∈ w.table.own u) (hne : v ≠ u) :
    (RowTransaction.reject v clock).apply rules row = row := by
  rw [RowTransaction.apply, if_neg fun howner ↦ hne ?_]
  rw [← howner, (ActionTable.mem_own.mp hrow).2]

namespace ActionService

@[simp] theorem setCall_table (howned : command.userId = u) :
    (w.setCall u n ⟨command, phase⟩ howned).table = w.table := rfl

theorem setCall_calls_of_ne (howned : command.userId = v) (hne : v ≠ u) (m : ℕ) :
    (w.setCall v n ⟨command, phase⟩ howned).calls u m = w.calls u m :=
  if_neg fun h ↦ hne h.1.symm

theorem setCall_calls (howned : command.userId = u) (m : ℕ) :
    (w.setCall u n ⟨command, phase⟩ howned).calls u m =
      if m = n then some ⟨command, phase⟩ else w.calls u m := by
  by_cases hm : m = n
  · rw [if_pos hm]
    exact if_pos ⟨rfl, hm⟩
  · rw [if_neg hm]
    exact if_neg fun h ↦ hm h.2

/-- The step of a call changes the table by inserting a row of its owner, if at all. -/
theorem own_of_phaseStep (howner : command.userId = v) (hne : v ≠ u)
    (hs : phase.step command w.table id clock = some (table, next)) :
    table.own u = w.table.own u := by
  cases phase with
  | inserting =>
    rw [CreatePhase.step] at hs
    split at hs
    · rename_i t hinsert
      obtain ⟨rfl, -⟩ := Prod.mk.inj (Option.some.inj hs)
      exact ActionTable.own_insert_of_ne hinsert fun h ↦ hne (howner.symm.trans h)
    · obtain ⟨rfl, -⟩ := Prod.mk.inj (Option.some.inj hs)
      rfl
  | lookingUp | lookingAgain | refreshing =>
    rw [CreatePhase.step] at hs
    split at hs
    · obtain ⟨rfl, -⟩ := Prod.mk.inj (Option.some.inj hs)
      rfl
    · obtain ⟨rfl, -⟩ := Prod.mk.inj (Option.some.inj hs)
      rfl
  | returned | conflict | integrityError | aborted => cases hs

/-- **What a step does.** -/
inductive RequestEffect (w : ActionService env) (a : ServiceCall) :
    ActionService env → ServiceAnswer → Prop
  | kept {o : ServiceAnswer} (silent : o.rows = []) : RequestEffect w a w o
  | read {u : UserId} {row : PendingAction} (user : a.user? = some u) (own : row ∈ w.table.own u) :
      RequestEffect w a w (.action row)
  | called {u : UserId} {n : ℕ} {command : Command env} {phase : CreatePhase}
      (user : a.user? = some u) (owned : command.userId = u)
      (silent : (ServiceAnswer.create phase).rows = []) :
      RequestEffect w a (w.setCall u n ⟨command, phase⟩ owned) (.create phase)
  | advanced {u : UserId} {n : ℕ} {id : ActionId} {clock : Clock} {command : Command env}
      {phase next : CreatePhase} {table : ActionTable} (user : a.user? = some u)
      (owned : command.userId = u) (current : w.calls u n = some ⟨command, phase⟩)
      (moves : phase.step command w.table id clock = some (table, next)) :
      RequestEffect w a ({ w with table := table }.setCall u n ⟨command, next⟩ owned)
        (.create next)
  /-- A transaction on a row of the caller, which changes no row of others. -/
  | transacted {u : UserId} {id : ActionId} {tx : RowTransaction} {o : ServiceAnswer}
      (user : a.user? = some u)
      (alone : ∀ v ≠ u, ∀ row ∈ w.table.own v, tx.apply (payloadRules env) row = row)
      (own : ∀ row ∈ o.rows, row.userId = u) : RequestEffect w a (w.transact id tx) o
  | background {id : ActionId} {tx : RowTransaction} (user : a.user? = none) :
      RequestEffect w a (w.transact id tx) .none

/-- **Every step has one of the effects.** -/
theorem effect_of_step (hs : w.step columns a = some (t, o)) : RequestEffect w a t o := by
  cases a with
  | create u n actionType payload commandKey =>
    rw [step] at hs
    split at hs
    · cases hs
    · split at hs
      · obtain ⟨rfl, rfl⟩ := Prod.mk.inj (Option.some.inj hs)
        exact .kept rfl
      · obtain ⟨rfl, rfl⟩ := Prod.mk.inj (Option.some.inj hs)
        exact .called rfl _ rfl
  | advance u n id clock =>
    rw [step] at hs
    split at hs
    · cases hs
    · rename_i call hcall
      split at hs
      · cases hs
      · rename_i table next hnext
        obtain ⟨rfl, rfl⟩ := Prod.mk.inj (Option.some.inj hs)
        exact .advanced rfl _ hcall hnext
  | abort u n =>
    rw [step] at hs
    split at hs
    · cases hs
    · split at hs
      · cases hs
      · obtain ⟨rfl, rfl⟩ := Prod.mk.inj (Option.some.inj hs)
        exact .called rfl _ rfl
  | claim u id token clock =>
    rw [step] at hs
    split at hs
    · obtain ⟨rfl, rfl⟩ := Prod.mk.inj (Option.some.inj hs)
      exact .kept rfl
    · rename_i row hlocked
      obtain ⟨rfl, rfl⟩ := Prod.mk.inj (Option.some.inj hs)
      refine .transacted rfl (fun v hne other hother ↦ apply_claim_of_ne hother hne.symm) ?_
      intro shown hshown
      obtain rfl := List.mem_singleton.mp hshown
      rw [(sameContent_claimPendingAction _ _ _ _ _).userId]
      exact (ActionTable.mem_own.mp (ActionTable.lockedForOwner_eq_ok_iff.mp hlocked).1).2
  | reject u id clock =>
    rw [step] at hs
    split at hs
    · obtain ⟨rfl, rfl⟩ := Prod.mk.inj (Option.some.inj hs)
      exact .kept rfl
    · rename_i row hlocked
      split at hs
      · obtain ⟨rfl, rfl⟩ := Prod.mk.inj (Option.some.inj hs)
        exact .kept rfl
      · rename_i change hchange
        obtain ⟨rfl, rfl⟩ := Prod.mk.inj (Option.some.inj hs)
        refine .transacted rfl (fun v hne other hother ↦ apply_reject_of_ne hother hne.symm) ?_
        intro shown hshown
        obtain rfl := List.mem_singleton.mp hshown
        rw [(sameContent_rejectPendingAction hchange).userId]
        exact (ActionTable.mem_own.mp (ActionTable.lockedForOwner_eq_ok_iff.mp hlocked).1).2
  | get u id =>
    rw [step] at hs
    split at hs
    · obtain ⟨rfl, rfl⟩ := Prod.mk.inj (Option.some.inj hs)
      exact .kept rfl
    · rename_i row hlocked
      obtain ⟨rfl, rfl⟩ := Prod.mk.inj (Option.some.inj hs)
      exact .read rfl (ActionTable.lockedForOwner_eq_ok_iff.mp hlocked).1
  | list u status limit pageToken now =>
    obtain ⟨rfl, rfl⟩ := Prod.mk.inj (Option.some.inj hs)
    exact .kept rfl
  | background id tx =>
    obtain ⟨rfl, rfl⟩ := Prod.mk.inj (Option.some.inj hs)
    exact .background rfl

/-- **Confinement.** What another user asks for leaves an owner's rows and calls alone. -/
theorem RequestEffect.confined (h : RequestEffect w a t o) (ha : a.user? = some v) (hne : v ≠ u) :
    t.table.own u = w.table.own u ∧ ∀ m, t.calls u m = w.calls u m := by
  cases h with
  | kept | read => exact ⟨rfl, fun _ ↦ rfl⟩
  | called user owned =>
    obtain rfl := Option.some.inj (user.symm.trans ha)
    exact ⟨rfl, setCall_calls_of_ne _ hne⟩
  | advanced user owned current moves =>
    obtain rfl := Option.some.inj (user.symm.trans ha)
    exact ⟨own_of_phaseStep owned hne moves, fun m ↦ setCall_calls_of_ne _ hne m⟩
  | transacted user alone =>
    obtain rfl := Option.some.inj (user.symm.trans ha)
    exact ⟨ActionTable.own_transact_eq_self (alone u hne.symm), fun _ ↦ rfl⟩
  | background user =>
    rw [user] at ha
    cases ha

/-- The rows that a step of a call leaves are those it found, and perhaps one more. -/
theorem mem_own_of_phaseStep (hs : phase.step command table id clock = some (table', next))
    {row : PendingAction} (hrow : row ∈ table.own u) : row ∈ table'.own u := by
  cases phase with
  | inserting =>
    rw [CreatePhase.step] at hs
    split at hs
    · rename_i t hinsert
      obtain ⟨rfl, -⟩ := Prod.mk.inj (Option.some.inj hs)
      rw [ActionTable.own_insert hinsert]
      exact List.mem_append_left _ hrow
    · obtain ⟨rfl, -⟩ := Prod.mk.inj (Option.some.inj hs)
      exact hrow
  | lookingUp | lookingAgain | refreshing =>
    rw [CreatePhase.step] at hs
    split at hs
    · obtain ⟨rfl, -⟩ := Prod.mk.inj (Option.some.inj hs)
      exact hrow
    · obtain ⟨rfl, -⟩ := Prod.mk.inj (Option.some.inj hs)
      exact hrow
  | returned | conflict | integrityError | aborted => cases hs

/-- A call reads a row back after it has inserted it. -/
theorem stored_of_phaseStep (howner : command.userId = u)
    (hs : phase.step command table id clock = some (table', .refreshing n)) :
    ∃ row ∈ table'.own u, row.id = n := by
  cases phase with
  | inserting =>
    rw [CreatePhase.step] at hs
    split at hs
    · rename_i t hinsert
      obtain ⟨rfl, hphase⟩ := Prod.mk.inj (Option.some.inj hs)
      obtain rfl := CreatePhase.refreshing.inj hphase
      refine ⟨command.row id clock, ?_, rfl⟩
      have hrow : (command.row id clock).userId = u := howner
      rw [ActionTable.own_insert hinsert, if_pos hrow]
      exact List.mem_append_right _ (List.mem_singleton_self _)
    · cases hs
  | lookingUp | lookingAgain =>
    rw [CreatePhase.step] at hs
    split at hs
    · obtain ⟨-, hphase⟩ := Prod.mk.inj (Option.some.inj hs)
      rw [Command.settle] at hphase
      split at hphase
      · cases hphase
      · cases hphase
    · cases hs
  | refreshing =>
    rw [CreatePhase.step] at hs
    split at hs
    · cases hs
    · cases hs
  | returned | conflict | integrityError | aborted => cases hs

/-- **A call goes by its owner's rows.** -/
theorem phaseStep_of_own {table₁ table₁' : ActionTable} (hrows : table.own u = table'.own u)
    (howner : command.userId = u) (hfresh : id ∉ table.rows.map PendingAction.id)
    (hfresh' : id ∉ table'.rows.map PendingAction.id)
    (hstored : ∀ m, phase = .refreshing m → ∃ row ∈ table.own u, row.id = m)
    (hs : phase.step command table id clock = some (table₁, next))
    (hs' : phase.step command table' id clock = some (table₁', next')) :
    next = next' ∧ table₁.own u = table₁'.own u := by
  have hlookup := ActionTable.lookup_of_own hrows (k := command.id) howner
  cases phase with
  | lookingUp | lookingAgain =>
    rw [CreatePhase.step, hlookup] at hs
    rw [CreatePhase.step] at hs'
    cases hfound : table'.lookup command.id with
    | none =>
      rw [hfound] at hs hs'
      obtain ⟨rfl, rfl⟩ := Prod.mk.inj (Option.some.inj hs)
      obtain ⟨rfl, rfl⟩ := Prod.mk.inj (Option.some.inj hs')
      exact ⟨rfl, hrows⟩
    | some existing =>
      rw [hfound] at hs hs'
      obtain ⟨rfl, rfl⟩ := Prod.mk.inj (Option.some.inj hs)
      obtain ⟨rfl, rfl⟩ := Prod.mk.inj (Option.some.inj hs')
      exact ⟨rfl, hrows⟩
  | inserting =>
    have hrefused : table.insert? (command.row id clock) = none ↔
        table'.insert? (command.row id clock) = none :=
      ActionTable.insert?_isSome_of_own hrows howner hfresh hfresh'
    rw [CreatePhase.step] at hs hs'
    cases hinsert : table.insert? (command.row id clock) with
    | none =>
      rw [hinsert] at hs
      rw [hrefused.mp hinsert] at hs'
      obtain ⟨rfl, rfl⟩ := Prod.mk.inj (Option.some.inj hs)
      obtain ⟨rfl, rfl⟩ := Prod.mk.inj (Option.some.inj hs')
      exact ⟨rfl, hrows⟩
    | some inserted =>
      rw [hinsert] at hs
      cases hinsert' : table'.insert? (command.row id clock) with
      | none =>
        rw [hrefused.mpr hinsert'] at hinsert
        cases hinsert
      | some inserted' =>
        rw [hinsert'] at hs'
        obtain ⟨rfl, rfl⟩ := Prod.mk.inj (Option.some.inj hs)
        obtain ⟨rfl, rfl⟩ := Prod.mk.inj (Option.some.inj hs')
        refine ⟨rfl, ?_⟩
        rw [ActionTable.own_insert hinsert, ActionTable.own_insert hinsert', hrows]
  | refreshing m =>
    obtain ⟨row, hrow, hid⟩ := hstored m rfl
    have hget := ActionTable.get?_eq_some_iff.mpr ⟨(ActionTable.mem_own.mp hrow).1, hid⟩
    rw [hrows] at hrow
    have hget' := ActionTable.get?_eq_some_iff.mpr ⟨(ActionTable.mem_own.mp hrow).1, hid⟩
    rw [CreatePhase.step, hget] at hs
    rw [CreatePhase.step, hget'] at hs'
    obtain ⟨rfl, rfl⟩ := Prod.mk.inj (Option.some.inj hs)
    obtain ⟨rfl, rfl⟩ := Prod.mk.inj (Option.some.inj hs')
    exact ⟨rfl, hrows⟩
  | returned | conflict | integrityError | aborted => cases hs

end ActionService

/-- A transaction on a row, in both states. -/
theorem SameView.transact (h : SameView u w w') (id : ActionId) (tx : RowTransaction) :
    SameView u (w.transact id tx) (w'.transact id tx) where
  rows := by
    rw [ActionService.transact, ActionService.transact]
    dsimp only
    rw [ActionTable.own_transact, ActionTable.own_transact, h.rows]
  calls := h.calls
  stored n command m hcall := by
    obtain ⟨row, hrow, hid⟩ := h.stored n command m hcall
    refine ⟨ActionTable.transactRow (payloadRules env) id tx row, ?_, ?_⟩
    · rw [ActionService.transact]
      dsimp only
      rw [ActionTable.own_transact]
      exact List.mem_map_of_mem hrow
    · rw [(ActionTable.sameContent_transactRow _ _ _ _).id, hid]

/-- A call of the owner moves on, in both states. -/
theorem SameView.setCall (h : SameView u w w') (howned : command.userId = u)
    (hrows : table.own u = table'.own u) (hkept : ∀ row ∈ w.table.own u, row ∈ table.own u)
    (hstored : ∀ m, phase = .refreshing m → ∃ row ∈ table.own u, row.id = m) :
    SameView u ({ w with table := table }.setCall u n ⟨command, phase⟩ howned)
      ({ w' with table := table' }.setCall u n ⟨command, phase⟩ howned) where
  rows := hrows
  calls m := by
    rw [ActionService.setCall_calls, ActionService.setCall_calls]
    exact congrArg _ (h.calls m)
  stored m other id hcall := by
    rw [ActionService.setCall_calls] at hcall
    split at hcall
    · obtain ⟨-, rfl⟩ := CreateCall.mk.inj (Option.some.inj hcall)
      exact hstored id rfl
    · obtain ⟨row, hrow, hid⟩ := h.stored m other id hcall
      exact ⟨row, hkept row hrow, hid⟩

theorem filter_own (t : ActionTable) (u : UserId) (status : ActionStatus) :
    (t.rows.filter fun row ↦ row.userId = u && row.status = status) =
      (t.own u).filter fun row ↦ row.status = status := by
  rw [ActionTable.own, List.filter_filter]
  exact List.filter_congr fun row _ ↦ Bool.and_comm _ _

/-- **The owner's requests are answered by what the owner sees.** -/
theorem SameView.agree (h : SameView u w w') (ha : a.user? = some u ∨ a.user? = none)
    (hfresh : w.FreshIds a) (hfresh' : w'.FreshIds a) (hs : w.step columns a = some (t, o))
    (hs' : w'.step columns a = some (t', o')) :
    SameView u t t' ∧ (a.user? = some u → o = o') := by
  cases a with
  | create v n actionType payload commandKey =>
    obtain rfl : v = u := by simpa [ServiceCall.user?] using ha
    rw [ActionService.step] at hs hs'
    rw [h.calls n] at hs
    split at hs
    · cases hs
    · rename_i hnone
      rw [hnone] at hs'
      dsimp only at hs'
      split at hs
      · rename_i hprepare
        split at hs'
        · obtain ⟨rfl, rfl⟩ := Prod.mk.inj (Option.some.inj hs)
          obtain ⟨rfl, rfl⟩ := Prod.mk.inj (Option.some.inj hs')
          exact ⟨h, fun _ ↦ rfl⟩
        · rename_i command hprepare'
          rw [hprepare] at hprepare'
          cases hprepare'
      · rename_i command hprepare
        split at hs'
        · rename_i hprepare'
          rw [hprepare] at hprepare'
          cases hprepare'
        · rename_i command' hprepare'
          obtain rfl : command = command' := by
            rw [hprepare] at hprepare'
            exact Option.some.inj hprepare'
          obtain ⟨rfl, rfl⟩ := Prod.mk.inj (Option.some.inj hs)
          obtain ⟨rfl, rfl⟩ := Prod.mk.inj (Option.some.inj hs')
          exact ⟨h.setCall _ h.rows (fun _ hrow ↦ hrow) (by rintro _ ⟨⟩), fun _ ↦ rfl⟩
  | advance v n id clock =>
    obtain rfl : v = u := by simpa [ServiceCall.user?] using ha
    rw [ActionService.step] at hs hs'
    split at hs
    · cases hs
    · rename_i call hcall
      split at hs'
      · cases hs'
      · rename_i call' hcall'
        obtain rfl : call = call' := by
          rw [h.calls n, hcall'] at hcall
          exact (Option.some.inj hcall).symm
        split at hs
        · cases hs
        · rename_i table next hnext
          split at hs'
          · cases hs'
          · rename_i table' next' hnext'
            have howned := w.owned _ _ _ hcall
            have hstored : ∀ m, call.phase = .refreshing m →
                ∃ row ∈ w.table.own v, row.id = m := by
              intro m hphase
              refine h.stored n call.command m ?_
              rw [hcall, ← hphase]
            -- A phase reads no rows but the own ones, and these are the same in both tables.
            obtain ⟨rfl, hrows⟩ := ActionService.phaseStep_of_own h.rows howned hfresh hfresh'
              hstored hnext hnext'
            obtain ⟨rfl, rfl⟩ := Prod.mk.inj (Option.some.inj hs)
            obtain ⟨rfl, rfl⟩ := Prod.mk.inj (Option.some.inj hs')
            refine ⟨h.setCall howned hrows
              (fun row ↦ ActionService.mem_own_of_phaseStep hnext) ?_, fun _ ↦ rfl⟩
            rintro m rfl
            exact ActionService.stored_of_phaseStep howned hnext
  | abort v n =>
    obtain rfl : v = u := by simpa [ServiceCall.user?] using ha
    rw [ActionService.step] at hs hs'
    split at hs
    · cases hs
    · rename_i call hcall
      split at hs'
      · cases hs'
      · rename_i call' hcall'
        obtain rfl : call = call' := by
          rw [h.calls n, hcall'] at hcall
          exact (Option.some.inj hcall).symm
        split at hs
        · cases hs
        · rename_i hactive
          rw [if_neg hactive] at hs'
          obtain ⟨rfl, rfl⟩ := Prod.mk.inj (Option.some.inj hs)
          obtain ⟨rfl, rfl⟩ := Prod.mk.inj (Option.some.inj hs')
          exact ⟨h.setCall (w.owned _ _ _ hcall) h.rows (fun _ hrow ↦ hrow) (by rintro _ ⟨⟩),
            fun _ ↦ rfl⟩
  | claim v id token clock =>
    obtain rfl : v = u := by simpa [ServiceCall.user?] using ha
    rw [ActionService.step, ActionTable.lockedForOwner_of_own h.rows] at hs
    rw [ActionService.step] at hs'
    split at hs
    · rename_i e hlocked
      rw [hlocked] at hs'
      obtain ⟨rfl, rfl⟩ := Prod.mk.inj (Option.some.inj hs)
      obtain ⟨rfl, rfl⟩ := Prod.mk.inj (Option.some.inj hs')
      exact ⟨h, fun _ ↦ rfl⟩
    · rename_i row hlocked
      rw [hlocked] at hs'
      obtain ⟨rfl, rfl⟩ := Prod.mk.inj (Option.some.inj hs)
      obtain ⟨rfl, rfl⟩ := Prod.mk.inj (Option.some.inj hs')
      exact ⟨h.transact id _, fun _ ↦ rfl⟩
  | reject v id clock =>
    obtain rfl : v = u := by simpa [ServiceCall.user?] using ha
    rw [ActionService.step, ActionTable.lockedForOwner_of_own h.rows] at hs
    rw [ActionService.step] at hs'
    split at hs
    · rename_i e hlocked
      rw [hlocked] at hs'
      obtain ⟨rfl, rfl⟩ := Prod.mk.inj (Option.some.inj hs)
      obtain ⟨rfl, rfl⟩ := Prod.mk.inj (Option.some.inj hs')
      exact ⟨h, fun _ ↦ rfl⟩
    · rename_i row hlocked
      rw [hlocked] at hs'
      dsimp only at hs'
      split at hs
      · rename_i e hrejected
        rw [hrejected] at hs'
        obtain ⟨rfl, rfl⟩ := Prod.mk.inj (Option.some.inj hs)
        obtain ⟨rfl, rfl⟩ := Prod.mk.inj (Option.some.inj hs')
        exact ⟨h, fun _ ↦ rfl⟩
      · rename_i change hrejected
        rw [hrejected] at hs'
        obtain ⟨rfl, rfl⟩ := Prod.mk.inj (Option.some.inj hs)
        obtain ⟨rfl, rfl⟩ := Prod.mk.inj (Option.some.inj hs')
        exact ⟨h.transact id _, fun _ ↦ rfl⟩
  | get v id =>
    obtain rfl : v = u := by simpa [ServiceCall.user?] using ha
    rw [ActionService.step, ActionService.getPendingAction,
      ActionTable.lockedForOwner_of_own h.rows] at hs
    rw [ActionService.step, ActionService.getPendingAction] at hs'
    split at hs
    · rename_i e hlocked
      rw [hlocked] at hs'
      obtain ⟨rfl, rfl⟩ := Prod.mk.inj (Option.some.inj hs)
      obtain ⟨rfl, rfl⟩ := Prod.mk.inj (Option.some.inj hs')
      exact ⟨h, fun _ ↦ rfl⟩
    · rename_i row hlocked
      rw [hlocked] at hs'
      obtain ⟨rfl, rfl⟩ := Prod.mk.inj (Option.some.inj hs)
      obtain ⟨rfl, rfl⟩ := Prod.mk.inj (Option.some.inj hs')
      exact ⟨h, fun _ ↦ rfl⟩
  | list v status limit pageToken now =>
    obtain rfl : v = u := by simpa [ServiceCall.user?] using ha
    obtain ⟨rfl, rfl⟩ := Prod.mk.inj (Option.some.inj hs)
    obtain ⟨rfl, rfl⟩ := Prod.mk.inj (Option.some.inj hs')
    -- The page is cut from the rows of the owner, which both tables share.
    refine ⟨h, fun _ ↦ ?_⟩
    rw [ActionService.listPendingActions, ActionService.listPendingActions, filter_own, filter_own,
      h.rows]
  -- Not a request of the owner: only the views have to agree, not the replies.
  | background id tx =>
    obtain ⟨rfl, -⟩ := Prod.mk.inj (Option.some.inj hs)
    obtain ⟨rfl, -⟩ := Prod.mk.inj (Option.some.inj hs')
    exact ⟨h.transact id _, by rintro ⟨⟩⟩

/-! ## Without the others -/

namespace ActionService

/-- The primary keys in use. -/
def ids (w : ActionService env) : List ActionId := w.table.rows.map PendingAction.id

theorem ids_transact (id : ActionId) (tx : RowTransaction) : (w.transact id tx).ids = w.ids := by
  rw [ids, ids, transact, ActionTable.transact, List.map_map]
  exact List.map_congr_left fun row _ ↦ (ActionTable.sameContent_transactRow _ _ _ row).id

theorem rows_of_phaseStep (hs : phase.step command table id clock = some (table', next)) :
    table' = table ∨ table'.rows = table.rows ++ [command.row id clock] := by
  cases phase with
  | inserting =>
    rw [CreatePhase.step] at hs
    split at hs
    · rename_i t hinsert
      obtain ⟨rfl, -⟩ := Prod.mk.inj (Option.some.inj hs)
      exact Or.inr (ActionTable.insert?_eq_some hinsert).2.2
    · obtain ⟨rfl, -⟩ := Prod.mk.inj (Option.some.inj hs)
      exact Or.inl rfl
  | lookingUp | lookingAgain | refreshing =>
    rw [CreatePhase.step] at hs
    split at hs
    · obtain ⟨rfl, -⟩ := Prod.mk.inj (Option.some.inj hs)
      exact Or.inl rfl
    · obtain ⟨rfl, -⟩ := Prod.mk.inj (Option.some.inj hs)
      exact Or.inl rfl
  | returned | conflict | integrityError | aborted => cases hs

/-- **No key is lost, and a new one is of a row of the caller.** -/
theorem RequestEffect.ids (h : RequestEffect w a t o) :
    (∀ i ∈ w.ids, i ∈ t.ids) ∧
      ∀ i ∈ t.ids, i ∈ w.ids ∨ ∃ v, a.user? = some v ∧ ∃ row ∈ t.table.own v, row.id = i := by
  cases h with
  | kept | read | called => exact ⟨fun _ hi ↦ hi, fun _ hi ↦ Or.inl hi⟩
  | transacted | background =>
    rw [ids_transact]
    exact ⟨fun _ hi ↦ hi, fun _ hi ↦ Or.inl hi⟩
  | @advanced u n id clock command phase next table user owned current moves =>
    rcases rows_of_phaseStep moves with rfl | hrows
    · exact ⟨fun _ hi ↦ hi, fun _ hi ↦ Or.inl hi⟩
    · have hids : ({ w with table := table }.setCall u n ⟨command, next⟩ owned).ids =
          w.ids ++ [id] := by
        rw [ActionService.ids, setCall_table, hrows, List.map_append]
        rfl
      rw [hids]
      refine ⟨fun _ ↦ List.mem_append_left _, fun i hi ↦ ?_⟩
      rcases List.mem_append.mp hi with hi | hi
      · exact Or.inl hi
      · refine Or.inr ⟨u, user, command.row id clock, ActionTable.mem_own.mpr ⟨?_, owned⟩,
          (List.mem_singleton.mp hi).symm⟩
        rw [setCall_table, hrows]
        exact List.mem_append_right _ (List.mem_singleton_self _)

/-- A phase that has a step in one table has one in any other. -/
theorem exists_phaseStep (hs : phase.step command table id clock = some (table₀, next))
    (table' : ActionTable) :
    ∃ result, phase.step command table' id clock = some result := by
  cases phase with
  | returned | conflict | integrityError | aborted => cases hs
  | lookingUp | inserting | lookingAgain | refreshing =>
    rw [CreatePhase.step]
    split
    · exact ⟨_, rfl⟩
    · exact ⟨_, rfl⟩

/-- **The owner's requests stay enabled.** -/
theorem exists_step_of_view (h : SameView u w w') (ha : a.user? = some u ∨ a.user? = none)
    (hs : w.step columns a = some (t, o)) : ∃ t' o', w'.step columns a = some (t', o') := by
  cases a with
  | create v n actionType payload commandKey =>
    obtain rfl : v = u := by simpa [ServiceCall.user?] using ha
    rw [step, h.calls n] at hs
    rw [step]
    split at hs
    · cases hs
    · split
      · exact ⟨_, _, rfl⟩
      · exact ⟨_, _, rfl⟩
  | advance v n id clock =>
    obtain rfl : v = u := by simpa [ServiceCall.user?] using ha
    rw [step] at hs ⊢
    split at hs
    · cases hs
    · rename_i call hcall
      split at hs
      · cases hs
      · rename_i table next hnext
        obtain ⟨⟨table', next'⟩, hnext'⟩ := exists_phaseStep hnext w'.table
        split
        · rename_i hnone
          rw [← h.calls n, hcall] at hnone
          cases hnone
        · rename_i call' hcall'
          obtain rfl : call = call' := by
            rw [h.calls n, hcall'] at hcall
            exact (Option.some.inj hcall).symm
          rw [hnext']
          exact ⟨_, _, rfl⟩
  | abort v n =>
    obtain rfl : v = u := by simpa [ServiceCall.user?] using ha
    rw [step] at hs ⊢
    split at hs
    · cases hs
    · rename_i call hcall
      split at hs
      · cases hs
      · rename_i hactive
        split
        · rename_i hnone
          rw [← h.calls n, hcall] at hnone
          cases hnone
        · rename_i call' hcall'
          obtain rfl : call = call' := by
            rw [h.calls n, hcall'] at hcall
            exact (Option.some.inj hcall).symm
          rw [if_neg hactive]
          exact ⟨_, _, rfl⟩
  | claim v id token clock =>
    rw [step]
    split
    · exact ⟨_, _, rfl⟩
    · exact ⟨_, _, rfl⟩
  | reject v id clock =>
    rw [step]
    split
    · exact ⟨_, _, rfl⟩
    · split
      · exact ⟨_, _, rfl⟩
      · exact ⟨_, _, rfl⟩
  | get v id =>
    rw [step]
    split
    · exact ⟨_, _, rfl⟩
    · exact ⟨_, _, rfl⟩
  | list v status limit pageToken now => exact ⟨_, _, rfl⟩
  | background id tx => exact ⟨_, _, rfl⟩

end ActionService

/-! ## Isolation -/

/-- The calls that are kept for an owner: the owner's own, and those of the service. -/
def ServiceCall.keptFor (u : UserId) (a : ServiceCall) : Bool :=
  a.user?.all (· = u)

/-- The calls whose answers an owner sees. -/
def ServiceCall.isOf (u : UserId) (a : ServiceCall) : Bool := a.user? = some u

theorem ServiceCall.keptFor_iff : a.keptFor u = true ↔ a.user? = some u ∨ a.user? = none := by
  rw [keptFor]
  cases a.user? with
  | none => simp
  | some v => simp

theorem sameView_of_init (hrows : w.table.own u = w'.table.own u)
    (hinit : (requestService env columns).init w) (hinit' : (requestService env columns).init w') :
    SameView u w w' where
  rows := hrows
  calls n := by rw [hinit u n, hinit' u n]
  stored n command id hcall := by
    rw [hinit u n] at hcall
    cases hcall

theorem hidden_of_step (h : SameView u w w') (ha : a.keptFor u = false)
    (hs : w.step columns a = some (t, o)) : SameView u t w' := by
  cases huser : a.user? with
  | none =>
    rw [ServiceCall.keptFor_iff.mpr (Or.inr huser)] at ha
    cases ha
  | some v =>
    have hne : v ≠ u := by
      rintro rfl
      rw [ServiceCall.keptFor_iff.mpr (Or.inl huser)] at ha
      cases ha
    obtain ⟨hrows, hcalls⟩ := (ActionService.effect_of_step hs).confined huser hne
    refine ⟨hrows.trans h.rows, fun n ↦ (hcalls n).trans (h.calls n), fun n command id hcall ↦ ?_⟩
    rw [hcalls] at hcall
    rw [hrows]
    exact h.stored n command id hcall

/-- The service does not let an owner notice the others. -/
theorem unwinding_requestService (env : PayloadEnv) (columns : ActionId → ListedColumns)
    (u : UserId) :
    (requestService env columns).Unwinding ActionService.FreshIds (ServiceCall.keptFor u)
      (ServiceCall.isOf u) (SameView u) where
  kept_of_observed _ ha := ServiceCall.keptFor_iff.mpr (Or.inl (of_decide_eq_true ha))
  symm := SameView.symm
  hidden h ha _ hs := hidden_of_step h ha hs
  agree h ha hfresh hfresh' hs hs' := by
    obtain ⟨hview, hreply⟩ := h.agree (ServiceCall.keptFor_iff.mp ha) hfresh hfresh' hs hs'
    exact ⟨hview, fun hof ↦ hreply (of_decide_eq_true hof)⟩

/-- A state without the others: it looks the same, and has no more keys in use. -/
structure Purged (u : UserId) (w w' : ActionService env) : Prop where
  view : SameView u w w'
  ids : ∀ i ∈ w'.ids, i ∈ w.ids

theorem Purged.hidden (h : Purged u w w') (ha : a.keptFor u = false)
    (hs : w.step columns a = some (t, o)) : Purged u t w' where
  view := hidden_of_step h.view ha hs
  ids i hi := (ActionService.effect_of_step hs).ids.1 i (h.ids i hi)

theorem Purged.freshIds (h : Purged u w w') (hfresh : w.FreshIds a) : w'.FreshIds a := by
  cases a with
  | advance v n id clock => exact fun hid ↦ hfresh (h.ids id hid)
  | _ => trivial

theorem Purged.follow (h : Purged u w w') (ha : a.keptFor u = true) (hfresh : w.FreshIds a)
    (hs : w.step columns a = some (t, o)) :
    w'.FreshIds a ∧ ∃ t' o', w'.step columns a = some (t', o') ∧ Purged u t t' := by
  have huser := ServiceCall.keptFor_iff.mp ha
  obtain ⟨t', o', hs'⟩ := ActionService.exists_step_of_view h.view huser hs
  obtain ⟨hview, -⟩ := h.view.agree huser hfresh (h.freshIds hfresh) hs hs'
  refine ⟨h.freshIds hfresh, t', o', hs', hview, fun i hi ↦ ?_⟩
  rcases (ActionService.effect_of_step hs').ids.2 i hi with hold | ⟨v, hv, row, hrow, rfl⟩
  · exact (ActionService.effect_of_step hs).ids.1 i (h.ids i hold)
  · obtain rfl : v = u := by
      rcases huser with hu | hnone
      · exact Option.some.inj (hv.symm.trans hu)
      · rw [hnone] at hv
        cases hv
    rw [← hview.rows] at hrow
    exact List.mem_map_of_mem (ActionTable.mem_own.mp hrow).1

end

/-- **What one owner sees of the others**, in any interleaving. -/
structure OwnersIsolated (env : PayloadEnv) (columns : ActionId → ListedColumns) : Prop where
  /-- Two runs from tables with the same rows of the owner, with the same requests of the owner and
  the same steps of the service, give the owner the same answers, whatever the others request. -/
  indistinguishable : ∀ u {w w' t t' tr tr'}, (requestService env columns).init w →
    (requestService env columns).init w' → w.table.own u = w'.table.own u →
    System.Run (requestService env columns) ActionService.FreshIds w tr t →
    System.Run (requestService env columns) ActionService.FreshIds w' tr' t' →
    (System.eventsOf (ServiceCall.keptFor u) tr).map Prod.fst =
      (System.eventsOf (ServiceCall.keptFor u) tr').map Prod.fst →
    System.eventsOf (ServiceCall.isOf u) tr = System.eventsOf (ServiceCall.isOf u) tr' ∧
      t.table.own u = t'.table.own u
  /-- Without the others' requests, the rest is still a run. -/
  purged : ∀ u {w t tr}, (requestService env columns).init w →
    System.Run (requestService env columns) ActionService.FreshIds w tr t →
    ∃ tr' t', System.Run (requestService env columns) ActionService.FreshIds w tr' t' ∧
      tr'.map Prod.fst = (System.eventsOf (ServiceCall.keptFor u) tr).map Prod.fst ∧
      System.eventsOf (ServiceCall.isOf u) tr' = System.eventsOf (ServiceCall.isOf u) tr ∧
      t'.table.own u = t.table.own u
  /-- A request leaves the rows of every other owner as they were. -/
  confined : ∀ u {w t : ActionService env} {a v o}, w.step columns a = some (t, o) →
    a.user? = some v → v ≠ u → t.table.own u = w.table.own u
  /-- The rows in an answer are the owner's. -/
  shown : ∀ u {w t t' tr a o}, (requestService env columns).init w →
    System.Run (requestService env columns) ActionService.FreshIds w tr t →
    t.step columns a = some (t', o) → a.user? = some u → ∀ row ∈ o.rows, row.userId = u
  /-- An action of somebody else looks like one that does not exist. -/
  unseen : ∀ u {w : ActionService env} {id}, (∀ row ∈ w.table.own u, row.id ≠ id) →
    ∀ token clock, w.step columns (.get u id) = some (w, .raised .notFound) ∧
      w.step columns (.claim u id token clock) = some (w, .raised .notFound) ∧
      w.step columns (.reject u id clock) = some (w, .raised .notFound)

section

variable {env : PayloadEnv} {columns : ActionId → ListedColumns} {u : UserId}
  {w t t' : ActionService env} {a : ServiceCall} {o : ServiceAnswer}
  {tr : List (ServiceCall × ServiceAnswer)} {table table' : ActionTable} {command : Command env}
  {phase next : CreatePhase} {id : ActionId} {clock : Clock}

theorem locked_eq_error (h : ∀ row ∈ table.own u, row.id ≠ id) :
    lockedForOwner (table.get? id) u = .error .notFound := by
  cases hlocked : lockedForOwner (table.get? id) u with
  | ok row =>
    obtain ⟨hrow, hid⟩ := ActionTable.lockedForOwner_eq_ok_iff.mp hlocked
    exact absurd hid (h row hrow)
  | error error => rw [ActionTable.lockedForOwner_eq_error hlocked]

/-- The row that a call returns is its owner's. -/
theorem userId_of_returned (howner : command.userId = u)
    (hstored : ∀ m, phase = .refreshing m → ∃ row ∈ table.own u, row.id = m) {row : PendingAction}
    (hs : phase.step command table id clock = some (table', .returned row)) : row.userId = u := by
  have hsettle : ∀ {existing}, table.lookup command.id = some existing →
      command.settle existing = .returned row → row.userId = u := by
    intro existing hfound hsettled
    rw [Command.settle] at hsettled
    split at hsettled
    · cases hsettled
    · obtain rfl := CreatePhase.returned.inj hsettled
      have hkey := (ActionTable.lookup_eq_some_iff.mp hfound).2
      exact (congrArg Prod.fst hkey).trans howner
  cases phase with
  | lookingUp | lookingAgain =>
    rw [CreatePhase.step] at hs
    split at hs
    · rename_i existing hfound
      exact hsettle hfound (Prod.mk.inj (Option.some.inj hs)).2
    · cases hs
  | inserting =>
    rw [CreatePhase.step] at hs
    split at hs
    · cases hs
    · cases hs
  | refreshing m =>
    obtain ⟨own, hown, hid⟩ := hstored m rfl
    obtain ⟨hmem, howned⟩ := ActionTable.mem_own.mp hown
    rw [CreatePhase.step, ActionTable.get?_eq_some_iff.mpr ⟨hmem, hid⟩] at hs
    obtain rfl := CreatePhase.returned.inj (Prod.mk.inj (Option.some.inj hs)).2
    exact howned
  | returned | conflict | integrityError | aborted => cases hs

/-- **An owner is shown the owner's rows only.** -/
theorem SameView.shown (h : SameView u t t) (hs : t.step columns a = some (t', o))
    (ha : a.user? = some u) : ∀ row ∈ o.rows, row.userId = u := by
  cases ActionService.effect_of_step hs with
  | kept silent =>
    rw [silent]
    rintro _ ⟨⟩
  | called _ _ silent =>
    rw [silent]
    rintro _ ⟨⟩
  | background => rintro _ ⟨⟩
  | read user own =>
    obtain rfl := Option.some.inj (user.symm.trans ha)
    intro row hrow
    obtain rfl := List.mem_singleton.mp hrow
    exact (ActionTable.mem_own.mp own).2
  | transacted user alone own =>
    obtain rfl := Option.some.inj (user.symm.trans ha)
    exact own
  | @advanced u' n id clock command phase next table user owned current moves =>
    obtain rfl := Option.some.inj (user.symm.trans ha)
    cases next with
    | returned row =>
      intro shown hshown
      obtain rfl := List.mem_singleton.mp hshown
      refine userId_of_returned owned (fun m hphase ↦ ?_) moves
      refine h.stored n command m ?_
      rw [current, ← hphase]
    | _ => rintro _ ⟨⟩

/-- A state of a run looks like itself. -/
theorem sameView_of_run (u : UserId) (hinit : (requestService env columns).init w)
    (hrun : System.Run (requestService env columns) ActionService.FreshIds w tr t) :
    SameView u t t :=
  ((unwinding_requestService env columns u).noninterference hrun hrun
    (sameView_of_init rfl hinit hinit) rfl).1

end

/-- **Owners do not notice each other.** -/
theorem ownersIsolated (env : PayloadEnv) (columns : ActionId → ListedColumns) :
    OwnersIsolated env columns where
  indistinguishable u w w' t t' tr tr' hinit hinit' hrows hrun hrun' hcalls := by
    obtain ⟨hview, hanswers⟩ := (unwinding_requestService env columns u).noninterference hrun hrun'
      (sameView_of_init hrows hinit hinit') hcalls
    exact ⟨hanswers, hview.rows⟩
  purged u w t tr hinit hrun := by
    have hstart : Purged u w w := ⟨sameView_of_init rfl hinit hinit, fun _ hi ↦ hi⟩
    obtain ⟨tr', t', hrun', hpurged, hcalls⟩ := hrun.purge hstart
      (fun h ha _ hs ↦ h.hidden ha hs) fun h ha hfresh hs ↦ h.follow ha hfresh hs
    -- The purged run consists of the calls that are kept, so keeping these changes nothing in it.
    have hkept : (System.eventsOf (ServiceCall.keptFor u) tr').map Prod.fst =
        (System.eventsOf (ServiceCall.keptFor u) tr).map Prod.fst := by
      rw [← hcalls, System.eventsOf, List.filter_eq_self.mpr]
      intro e he
      have hmem : e.1 ∈ (System.eventsOf (ServiceCall.keptFor u) tr).map Prod.fst := by
        rw [← hcalls]
        exact List.mem_map_of_mem he
      obtain ⟨e', he', heq⟩ := List.mem_map.mp hmem
      rw [← heq]
      exact (List.mem_filter.mp he').2
    obtain ⟨hview, hanswers⟩ := (unwinding_requestService env columns u).noninterference hrun'
      hrun hstart.view hkept
    exact ⟨tr', t', hrun', hcalls, hanswers, hview.rows⟩
  confined u w t a v o hs ha hne := ((ActionService.effect_of_step hs).confined ha hne).1
  shown u w t t' tr a o hinit hrun hs ha := (sameView_of_run u hinit hrun).shown hs ha
  unseen u w id hnone token clock := by
    have hlocked := locked_eq_error hnone
    refine ⟨?_, ?_, ?_⟩
    · rw [ActionService.step, ActionService.getPendingAction, hlocked]
    · rw [ActionService.step, hlocked]
    · rw [ActionService.step, hlocked]

end Onebox.PendingActions
