import Onebox.PendingActions.Integrity

/-!
# The table of actions and its constraints

The rows of `pending_actions` in the order of their insertion, with its two unique constraints: the
primary key, and the pair of owner and command key. An insertion that would violate one of them is
refused; the other transactions of the state service change rows in place and touch neither.
-/

namespace Onebox.PendingActions

open Python

/-- The columns of `uq_pending_actions_user_command_key`. -/
abbrev CommandId := UserId × String

def PendingAction.commandId (row : PendingAction) : CommandId := (row.userId, row.commandKey)

/-! ## Transactions on a row -/

/-- A transaction of the state service on a stored row. -/
inductive RowTransaction
  | claim (userId : UserId) (token : String) (clock : Clock)
  | reject (userId : UserId) (clock : Clock)
  | expireStale (current : Time)
  | finalize (token : String) (args : FinalizeArgs) (clock : Clock)
  | reconcilePromote (operatorUserId : UserId) (clock : Clock)
  | reconcileFinish (operatorUserId : UserId) (outcome : ReconciliationResult) (clock : Clock)

/-- The row that the transaction commits; a transaction that fails commits nothing. -/
def RowTransaction.apply (rules : PayloadRules) (row : PendingAction) :
    RowTransaction → PendingAction
  | .claim userId token clock =>
    if row.userId = userId then (claimPendingAction rules clock token userId row).1.row else row
  | .reject userId clock =>
    if row.userId = userId then
      match rejectPendingAction clock userId row with
      | .error _ => row
      | .ok change => change.row
    else row
  | .expireStale current =>
    match expireStaleAction current row with
    | none => row
    | some change => change.row
  | .finalize token args clock => (finalizeClaimedAction clock token args row).row
  | .reconcilePromote operatorUserId clock =>
    match PendingActions.reconcilePromote clock operatorUserId row with
    | .error _ => row
    | .ok change => change.row
  | .reconcileFinish operatorUserId outcome clock =>
    (PendingActions.reconcileFinish clock operatorUserId outcome row).row

theorem RowTransaction.sameContent (rules : PayloadRules) (row : PendingAction)
    (tx : RowTransaction) : SameContent row (tx.apply rules row) := by
  cases tx with
  | claim userId token clock =>
    rw [RowTransaction.apply]
    split
    · exact sameContent_claimPendingAction _ _ _ _ _
    · exact .refl row
  | reject userId clock =>
    rw [RowTransaction.apply]
    split
    · split
      · exact .refl row
      · rename_i change hchange
        exact sameContent_rejectPendingAction hchange
    · exact .refl row
  | expireStale current =>
    rw [RowTransaction.apply]
    split
    · exact .refl row
    · rename_i change hchange
      exact sameContent_expireStaleAction hchange
  | finalize token args clock => exact sameContent_finalizeClaimedAction _ _ _ _
  | reconcilePromote operatorUserId clock =>
    rw [RowTransaction.apply]
    split
    · exact .refl row
    · rename_i change hchange
      exact sameContent_reconcilePromote hchange
  | reconcileFinish operatorUserId outcome clock => exact sameContent_reconcileFinish _ _ _ _

theorem SameContent.commandId {row row' : PendingAction} (h : SameContent row row') :
    row'.commandId = row.commandId := by
  rw [PendingAction.commandId, PendingAction.commandId, h.userId, h.commandKey]

theorem SameContent.trans {row row' row'' : PendingAction} (h : SameContent row row')
    (h' : SameContent row' row'') : SameContent row row'' where
  id := h'.id.trans h.id
  userId := h'.userId.trans h.userId
  actionType := h'.actionType.trans h.actionType
  payload := h'.payload.trans h.payload
  payloadHash := h'.payloadHash.trans h.payloadHash
  commandKey := h'.commandKey.trans h.commandKey

/-! ## The table -/

/-- The table, with its unique constraints. -/
@[ext] structure ActionTable where
  rows : List PendingAction
  id_nodup : (rows.map PendingAction.id).Nodup
  commandId_nodup : (rows.map PendingAction.commandId).Nodup

namespace ActionTable

/-- The row of a primary key. -/
def get? (t : ActionTable) (id : ActionId) : Option PendingAction :=
  t.rows.find? fun row ↦ row.id = id

/-- The row of an owner and a command key. -/
def lookup (t : ActionTable) (commandId : CommandId) : Option PendingAction :=
  t.rows.find? fun row ↦ row.commandId = commandId

/-- An insertion; `none` is the `IntegrityError`. -/
def insert? (t : ActionTable) (row : PendingAction) : Option ActionTable :=
  if h : row.id ∉ t.rows.map PendingAction.id ∧
      row.commandId ∉ t.rows.map PendingAction.commandId then
    some
      { rows := t.rows ++ [row]
        id_nodup := by
          rw [List.map_append, List.map_singleton, ← List.concat_eq_append]
          exact (List.nodup_concat _ _).mpr ⟨h.1, t.id_nodup⟩
        commandId_nodup := by
          rw [List.map_append, List.map_singleton, ← List.concat_eq_append]
          exact (List.nodup_concat _ _).mpr ⟨h.2, t.commandId_nodup⟩ }
  else none

/-- A transaction on the row of a primary key, applied to any row. -/
def transactRow (rules : PayloadRules) (id : ActionId) (tx : RowTransaction) (row : PendingAction) :
    PendingAction :=
  if row.id = id then tx.apply rules row else row

theorem sameContent_transactRow (rules : PayloadRules) (id : ActionId) (tx : RowTransaction)
    (row : PendingAction) : SameContent row (transactRow rules id tx row) := by
  rw [transactRow]
  split
  · exact tx.sameContent rules row
  · exact .refl row

/-- A transaction on a stored row. -/
def transact (rules : PayloadRules) (t : ActionTable) (id : ActionId) (tx : RowTransaction) :
    ActionTable where
  rows := t.rows.map (transactRow rules id tx)
  id_nodup := by
    rw [List.map_map]
    have hid := List.map_congr_left fun row (_ : row ∈ t.rows) ↦
      (sameContent_transactRow rules id tx row).id
    exact hid ▸ t.id_nodup
  commandId_nodup := by
    rw [List.map_map]
    exact (List.map_congr_left fun row _ ↦ (sameContent_transactRow rules id tx row).commandId) ▸
      t.commandId_nodup

/-- The table as far as one command is concerned. -/
def only (t : ActionTable) (k : CommandId) : ActionTable where
  rows := t.rows.filter fun row ↦ row.commandId = k
  id_nodup := t.id_nodup.sublist (List.filter_sublist.map _)
  commandId_nodup := t.commandId_nodup.sublist (List.filter_sublist.map _)

/-- No row is lost, and none changes its content. -/
def Extends (t t' : ActionTable) : Prop :=
  ∀ row ∈ t.rows, ∃ row' ∈ t'.rows, SameContent row row'

variable {t t' t'' : ActionTable} {k k' : CommandId} {id : ActionId} {row row' : PendingAction}
  {rules : PayloadRules} {tx : RowTransaction}

/-! ### Rows and keys -/

theorem eq_of_id (hrow : row ∈ t.rows) (hrow' : row' ∈ t.rows) (h : row.id = row'.id) :
    row = row' :=
  List.inj_on_of_nodup_map t.id_nodup hrow hrow' h

theorem eq_of_commandId (hrow : row ∈ t.rows) (hrow' : row' ∈ t.rows)
    (h : row.commandId = row'.commandId) : row = row' :=
  List.inj_on_of_nodup_map t.commandId_nodup hrow hrow' h

theorem lookup_eq_some_iff : t.lookup k = some row ↔ row ∈ t.rows ∧ row.commandId = k :=
  find?_eq_some_iff_of_nodup t.commandId_nodup

theorem get?_eq_some_iff : t.get? id = some row ↔ row ∈ t.rows ∧ row.id = id :=
  find?_eq_some_iff_of_nodup t.id_nodup

theorem lookup_eq_none_iff : t.lookup k = none ↔ k ∉ t.rows.map PendingAction.commandId := by
  constructor
  · intro h hmem
    obtain ⟨row, hrow, hkey⟩ := List.mem_map.mp hmem
    rw [lookup_eq_some_iff.mpr ⟨hrow, hkey⟩] at h
    cases h
  · intro h
    cases hlookup : t.lookup k with
    | none => rfl
    | some row =>
      obtain ⟨hrow, hkey⟩ := lookup_eq_some_iff.mp hlookup
      exact absurd (List.mem_map.mpr ⟨row, hrow, hkey⟩) h

theorem insert?_eq_some (h : t.insert? row = some t') :
    row.id ∉ t.rows.map PendingAction.id ∧ row.commandId ∉ t.rows.map PendingAction.commandId ∧
      t'.rows = t.rows ++ [row] := by
  rw [insert?] at h
  split at h
  · rename_i hfree
    obtain rfl := Option.some.inj h
    exact ⟨hfree.1, hfree.2, rfl⟩
  · cases h

/-- With a fresh primary key, an insertion fails on the command key only. -/
theorem insert?_eq_none_iff (hfresh : row.id ∉ t.rows.map PendingAction.id) :
    t.insert? row = none ↔ row.commandId ∈ t.rows.map PendingAction.commandId := by
  rw [insert?]
  constructor
  · intro h
    by_contra hmem
    rw [dif_pos ⟨hfresh, hmem⟩] at h
    cases h
  · exact fun hmem ↦ dif_neg fun hfree ↦ hfree.2 hmem

/-! ### What stays -/

theorem Extends.refl (t : ActionTable) : t.Extends t := fun row hrow ↦ ⟨row, hrow, .refl row⟩

theorem Extends.trans (h : t.Extends t') (h' : t'.Extends t'') : t.Extends t'' := by
  intro row hrow
  obtain ⟨row', hrow', hsame⟩ := h row hrow
  obtain ⟨row'', hrow'', hsame'⟩ := h' row' hrow'
  exact ⟨row'', hrow'', hsame.trans hsame'⟩

theorem extends_insert? (h : t.insert? row = some t') : t.Extends t' := by
  obtain ⟨-, -, hrows⟩ := insert?_eq_some h
  intro other hother
  exact ⟨other, hrows ▸ List.mem_append_left _ hother, .refl other⟩

theorem extends_transact : t.Extends (t.transact rules id tx) := fun row hrow ↦
  ⟨_, List.mem_map_of_mem hrow, sameContent_transactRow rules id tx row⟩

/-! ### One command -/

theorem mem_only : row ∈ (t.only k).rows ↔ row ∈ t.rows ∧ row.commandId = k := by
  rw [only, List.mem_filter, decide_eq_true_iff]

theorem lookup_only (t : ActionTable) (k : CommandId) : (t.only k).lookup k = t.lookup k := by
  ext row
  rw [lookup_eq_some_iff, lookup_eq_some_iff, mem_only]
  tauto

theorem only_transact : (t.transact rules id tx).only k = (t.only k).transact rules id tx := by
  refine ActionTable.ext ?_
  change (t.rows.map _).filter _ = (t.rows.filter _).map _
  rw [List.filter_map]
  refine congrArg _ (List.filter_congr fun row _ ↦ ?_)
  rw [Function.comp_apply, (sameContent_transactRow rules id tx row).commandId]

/-- An insertion under another key is not seen. -/
theorem only_of_insert?_of_ne (h : t.insert? row = some t') (hne : row.commandId ≠ k) :
    t'.only k = t.only k := by
  obtain ⟨-, -, hrows⟩ := insert?_eq_some h
  refine ActionTable.ext ?_
  change t'.rows.filter _ = t.rows.filter _
  rw [hrows, List.filter_append, List.filter_singleton, decide_eq_false hne]
  exact List.append_nil _

/-- With a fresh primary key, the rows of the command decide on its insertion. -/
theorem insert?_only (hfresh : row.id ∉ t.rows.map PendingAction.id) :
    (t.only row.commandId).insert? row = (t.insert? row).map (·.only row.commandId) := by
  have hfresh' : row.id ∉ (t.only row.commandId).rows.map PendingAction.id := fun hmem ↦
    hfresh ((List.filter_sublist.map _).subset hmem)
  have hkey : row.commandId ∈ (t.only row.commandId).rows.map PendingAction.commandId ↔
      row.commandId ∈ t.rows.map PendingAction.commandId := by
    rw [← not_iff_not, ← lookup_eq_none_iff, ← lookup_eq_none_iff, lookup_only]
  cases hinsert : t.insert? row with
  | none =>
    rw [insert?_eq_none_iff hfresh] at hinsert
    exact (insert?_eq_none_iff hfresh').mpr (hkey.mpr hinsert)
  | some t' =>
    obtain ⟨-, hfree, hrows⟩ := insert?_eq_some hinsert
    rw [insert?, dif_pos ⟨hfresh', fun hmem ↦ hfree (hkey.mp hmem)⟩]
    refine congrArg some (ActionTable.ext ?_)
    change t.rows.filter _ ++ [row] = t'.rows.filter _
    rw [hrows, List.filter_append, List.filter_singleton, decide_eq_true rfl]
    rfl

end ActionTable

end Onebox.PendingActions
