import Onebox.Pagination.Listings
import Onebox.PendingActions.Staging
import Onebox.Transition.System

/-!
# The requests of all owners

The requests of all owners on one table of actions: staging (in its separate transactions),
approving, rejecting, reading and listing, next to what the service does by itself, which are
sweeps, finalizations and reconciliations. Each request names its user, who comes from the verified
token.
-/

namespace Onebox.PendingActions

open Python Transition

/-! ## The rows of one owner -/

/-- One owner's rows, in the order of the table. -/
def ActionTable.own (t : ActionTable) (u : UserId) : List PendingAction :=
  t.rows.filter fun row ↦ row.userId = u

namespace ActionTable

variable {t t' : ActionTable} {u v : UserId} {id : ActionId} {row : PendingAction}
  {rules : PayloadRules} {tx : RowTransaction} {k : CommandId}

theorem mem_own : row ∈ t.own u ↔ row ∈ t.rows ∧ row.userId = u := by
  rw [own, List.mem_filter, decide_eq_true_iff]

/-- The owner's rows decide what is found under the owner's keys. -/
theorem lookup_of_own (h : t.own u = t'.own u) (hk : k.1 = u) : t.lookup k = t'.lookup k := by
  have hmem : ∀ {s : ActionTable} {row : PendingAction}, s.lookup k = some row ↔
      row ∈ s.own u ∧ row.commandId = k := by
    intro s row
    rw [lookup_eq_some_iff, mem_own, and_assoc, and_congr_right_iff]
    refine fun _ ↦ ⟨fun hkey ↦ ⟨?_, hkey⟩, And.right⟩
    rw [← hk, ← hkey]
    rfl
  ext row
  rw [hmem, hmem, h]

/-- **The locked select of an owner finds the owner's rows only.** -/
theorem lockedForOwner_eq_ok_iff :
    lockedForOwner (t.get? id) u = .ok row ↔ row ∈ t.own u ∧ row.id = id := by
  rw [mem_own]
  unfold lockedForOwner
  constructor
  · intro h
    split at h
    · cases h
    · rename_i found hfound
      split at h
      · rename_i howner
        obtain rfl := Except.ok.inj h
        obtain ⟨hrow, hid⟩ := get?_eq_some_iff.mp hfound
        exact ⟨⟨hrow, howner⟩, hid⟩
      · cases h
  · rintro ⟨⟨hrow, howner⟩, hid⟩
    rw [get?_eq_some_iff.mpr ⟨hrow, hid⟩]
    exact if_pos howner

/-- Where it finds none, it does not tell why. -/
theorem lockedForOwner_eq_error {error : ActionError}
    (h : lockedForOwner (t.get? id) u = .error error) : error = .notFound := by
  unfold lockedForOwner at h
  split at h
  · exact (Except.error.inj h).symm
  · split at h
    · cases h
    · exact (Except.error.inj h).symm

theorem lockedForOwner_of_own (h : t.own u = t'.own u) (id : ActionId) :
    lockedForOwner (t.get? id) u = lockedForOwner (t'.get? id) u := by
  cases hlocked : lockedForOwner (t.get? id) u with
  | ok row =>
    rw [lockedForOwner_eq_ok_iff, h, ← lockedForOwner_eq_ok_iff] at hlocked
    exact hlocked.symm
  | error error =>
    obtain rfl := lockedForOwner_eq_error hlocked
    cases hlocked' : lockedForOwner (t'.get? id) u with
    | ok row =>
      rw [lockedForOwner_eq_ok_iff, ← h, ← lockedForOwner_eq_ok_iff, hlocked] at hlocked'
      cases hlocked'
    | error error' => rw [lockedForOwner_eq_error hlocked']

/-- A transaction keeps the rows with their owner. -/
theorem own_transact :
    (t.transact rules id tx).own u = (t.own u).map (transactRow rules id tx) := by
  rw [own, own, transact, List.filter_map]
  refine congrArg _ (List.filter_congr fun row _ ↦ ?_)
  rw [Function.comp_apply, (sameContent_transactRow rules id tx row).userId]

/-- A transaction that leaves the owner's rows alone. -/
theorem own_transact_eq_self (h : ∀ row ∈ t.own u, tx.apply rules row = row) :
    (t.transact rules id tx).own u = t.own u := by
  rw [own_transact]
  refine (List.map_congr_left fun row hrow ↦ ?_).trans (List.map_id _)
  rw [transactRow, h row hrow, ite_self]
  rfl

theorem own_insert (h : t.insert? row = some t') :
    t'.own u = t.own u ++ if row.userId = u then [row] else [] := by
  obtain ⟨-, -, hrows⟩ := insert?_eq_some h
  rw [own, own, hrows, List.filter_append, List.filter_singleton]
  by_cases howner : row.userId = u
  · rw [if_pos howner, decide_eq_true howner]
    rfl
  · rw [if_neg howner, decide_eq_false howner]
    rfl

theorem own_insert_of_ne (h : t.insert? row = some t') (hne : row.userId ≠ u) :
    t'.own u = t.own u := by
  rw [own_insert h, if_neg hne, List.append_nil]

/-- With fresh ids, the owner's rows decide whether an insertion is refused. -/
theorem insert?_isSome_of_own (h : t.own u = t'.own u) (howner : row.userId = u)
    (hfresh : row.id ∉ t.rows.map PendingAction.id)
    (hfresh' : row.id ∉ t'.rows.map PendingAction.id) :
    t.insert? row = none ↔ t'.insert? row = none := by
  rw [insert?_eq_none_iff hfresh, insert?_eq_none_iff hfresh', ← not_iff_not,
    ← lookup_eq_none_iff, ← lookup_eq_none_iff, lookup_of_own h (k := row.commandId) howner]

end ActionTable

/-! ## The system -/

/-- The columns of a row that are written once, when it is inserted. -/
structure ListedColumns where
  id : Uuid
  summary : String
  createdAt : AwareDateTime
  expiresAt : AwareDateTime

/-- An item of the listing. -/
def PendingAction.toSummary (columns : ActionId → ListedColumns) (now : AwareDateTime)
    (row : PendingAction) : Pagination.ActionSummary where
  id := (columns row.id).id
  actionType := row.actionType
  summary := (columns row.id).summary
  status := row.status
  createdAt := (columns row.id).createdAt
  expiresAt := (columns row.id).expiresAt
  isExpired := row.status = .pending && (columns row.id).expiresAt.moment ≤ now.moment

/-- The transactions of the service that no owner asks for by name. -/
inductive BackgroundTransaction
  | expireStale (current : Time)
  | finalize (token : String) (args : FinalizeArgs) (clock : Clock)
  | reconcilePromote (operatorUserId : UserId) (clock : Clock)
  | reconcileFinish (operatorUserId : UserId) (outcome : ReconciliationResult) (clock : Clock)

def BackgroundTransaction.toRow : BackgroundTransaction → RowTransaction
  | expireStale current => .expireStale current
  | finalize token args clock => .finalize token args clock
  | reconcilePromote operatorUserId clock => .reconcilePromote operatorUserId clock
  | reconcileFinish operatorUserId outcome clock =>
    .reconcileFinish operatorUserId outcome clock

/-- The table and the `create_pending_action` calls of each user. -/
structure ActionService (env : PayloadEnv) where
  table : ActionTable
  calls : UserId → ℕ → Option (CreateCall env)
  owned : ∀ u n call, calls u n = some call → call.command.userId = u

/-- What is asked of the service. -/
inductive ServiceCall
  | create (userId : UserId) (n : ℕ) (actionType : ActionType) (payload : Json)
      (commandKey : String)
  /-- The next query or commit of a `create_pending_action`. -/
  | advance (userId : UserId) (n : ℕ) (id : ActionId) (clock : Clock)
  | abort (userId : UserId) (n : ℕ)
  | claim (userId : UserId) (id : ActionId) (token : String) (clock : Clock)
  | reject (userId : UserId) (id : ActionId) (clock : Clock)
  | get (userId : UserId) (id : ActionId)
  | list (userId : UserId) (status : ActionStatus) (limit : ℕ) (pageToken : Option String)
      (now : AwareDateTime)
  | background (id : ActionId) (tx : BackgroundTransaction)

/-- Who asks. -/
def ServiceCall.user? : ServiceCall → Option UserId
  | create u _ _ _ _ | advance u _ _ _ | abort u _ | claim u _ _ _ | reject u _ _ | get u _
  | list u _ _ _ _ => some u
  | background _ _ => none

/-- What the service answers. -/
inductive ServiceAnswer
  | none
  | invalid
  | create (phase : CreatePhase)
  | claim (row : PendingAction) (claimed : Bool)
  | action (row : PendingAction)
  /-- `none` is `InvalidPageToken`. -/
  | page (response : Option (Pagination.Response Pagination.ActionSummary))
  | raised (error : ActionError)

/-- The rows that an answer shows. -/
def ServiceAnswer.rows : ServiceAnswer → List PendingAction
  | create (.returned row) | claim row _ | action row => [row]
  | _ => []

theorem userId_of_prepare {env : PayloadEnv} {request : CreateRequest} {command : Command env}
    {u : UserId} (h : prepare env request = some command) (hu : request.userId = some u) :
    command.userId = u := by
  rw [prepare] at h
  split at h
  · rw [hu] at h
    dsimp only at h
    split at h
    · split at h
      · cases h
      · obtain rfl := Option.some.inj h
        rfl
    · cases h
  · cases h

namespace ActionService

variable {env : PayloadEnv}

/-- Set a call of a user. -/
def setCall (w : ActionService env) (u : UserId) (n : ℕ) (call : CreateCall env)
    (howned : call.command.userId = u) : ActionService env where
  table := w.table
  calls v m := if v = u ∧ m = n then some call else w.calls v m
  owned v m other h := by
    split at h
    · rename_i hsame
      obtain rfl := Option.some.inj h
      rw [hsame.1, howned]
    · exact w.owned v m other h

/-- A transaction on a stored row. -/
def transact (w : ActionService env) (id : ActionId) (tx : RowTransaction) : ActionService env :=
  { w with table := w.table.transact (payloadRules env) id tx }

/-- `get_pending_action`. -/
def getPendingAction (w : ActionService env) (u : UserId) (id : ActionId) :
    Except ActionError PendingAction :=
  lockedForOwner (w.table.get? id) u

/-- `list_pending_actions`. -/
def listPendingActions (columns : ActionId → ListedColumns) (w : ActionService env) (u : UserId)
    (status : ActionStatus) (limit : ℕ) (pageToken : Option String) (now : AwareDateTime) :
    Option (Pagination.Response Pagination.ActionSummary) :=
  Pagination.listRows (fun row ↦ (columns row.id).createdAt) (fun row ↦ (columns row.id).id)
    (PendingAction.toSummary columns now) limit pageToken
    (w.table.rows.filter fun row ↦ row.userId = u && row.status = status)

/-- One step. -/
def step (columns : ActionId → ListedColumns) (w : ActionService env) :
    ServiceCall → Option (ActionService env × ServiceAnswer)
  | .create u n actionType payload commandKey =>
    match w.calls u n with
    | some _ => none
    | none =>
      match h : prepare env ⟨some u, actionType, payload, commandKey⟩ with
      | none => some (w, .invalid)
      | some command =>
        some (w.setCall u n ⟨command, .lookingUp⟩ (userId_of_prepare h rfl), .create .lookingUp)
  | .advance u n id clock =>
    match h : w.calls u n with
    | none => none
    | some call =>
      match call.phase.step call.command w.table id clock with
      | none => none
      | some (t, phase) =>
        some ({ w with table := t }.setCall u n ⟨call.command, phase⟩ (w.owned u n call h),
          .create phase)
  | .abort u n =>
    match h : w.calls u n with
    | none => none
    | some call =>
      if call.phase.ended then none
      else some (w.setCall u n ⟨call.command, .aborted⟩ (w.owned u n call h), .create .aborted)
  | .claim u id token clock =>
    match lockedForOwner (w.table.get? id) u with
    | .error e => some (w, .raised e)
    | .ok row =>
      let result := claimPendingAction (payloadRules env) clock token u row
      some (w.transact id (.claim u token clock), .claim result.1.row result.2)
  | .reject u id clock =>
    match lockedForOwner (w.table.get? id) u with
    | .error e => some (w, .raised e)
    | .ok row =>
      match rejectPendingAction clock u row with
      | .error e => some (w, .raised e)
      | .ok change => some (w.transact id (.reject u clock), .action change.row)
  | .get u id =>
    match w.getPendingAction u id with
    | .error e => some (w, .raised e)
    | .ok row => some (w, .action row)
  | .list u status limit pageToken now =>
    some (w, .page (w.listPendingActions columns u status limit pageToken now))
  | .background id tx => some (w.transact id tx.toRow, .none)

/-- A drawn id is not in use. -/
def FreshIds (w : ActionService env) : ServiceCall → Prop
  | .advance _ _ id _ => id ∉ w.table.rows.map PendingAction.id
  | _ => True

end ActionService

/-- The action service, on any table and with no call in progress. -/
def requestService (env : PayloadEnv) (columns : ActionId → ListedColumns) :
    System (ActionService env) ServiceCall ServiceAnswer where
  init w := ∀ u n, w.calls u n = none
  step := ActionService.step columns

end Onebox.PendingActions
