import Mathlib.Data.Int.Order.Basic
import Mathlib.Data.Prod.Lex
import Onebox.Notifications.Triage
import Onebox.Pagination.Keyset
import Onebox.Pagination.PageToken
import Onebox.PendingActions.Model

/-!
# The two listings

`list_pending_actions` and `list_triage_results`: the rows of one owner in one status, newest first,
a page at a time. A page token moves the position inside the owner's rows. The rows and the
owner's mailbox may have changed in any way by the time of the next request.
-/

namespace Onebox.Pagination

open Python

/-- What rows are ordered by: `(created_at, id)`. -/
abbrev Position := ℤ ×ₗ Uuid

/-- The position of a row. -/
def position (createdAt : AwareDateTime) (id : Uuid) : Position := toLex (createdAt.moment, id)

/-- The position of a row, given two of its columns. -/
def positionOf {Row : Type*} (createdAt : Row → AwareDateTime) (id : Row → Uuid) (row : Row) :
    Position :=
  position (createdAt row) (id row)

/-! ## Both listings

Their bodies differ in the conditions on a row and in the columns they return. -/

/-- A response: its `actions` or `results`, and `next_page_token`. -/
structure Response (Item : Type*) where
  items : List Item
  nextPageToken : Option String

/-- The position that a request asks for; `none` is `InvalidPageToken`. -/
def requestedPosition (pageToken : Option String) : Option (Option Position) :=
  match pageToken with
  | none => some none
  | some token => (decodePageToken token).map fun cursor ↦ some (position cursor.1 cursor.2)

/-- The body of both listings, from the rows that meet the other conditions on. -/
def listRows {Row Item : Type*} (createdAt : Row → AwareDateTime) (id : Row → Uuid)
    (item : Row → Item) (limit : ℕ) (pageToken : Option String) (matching : List Row) :
    Option (Response Item) :=
  match requestedPosition pageToken with
  | none => none
  | some cursor =>
    let rows := (Keyset.after (positionOf createdAt id) cursor matching).take (limit + 1)
    let page := rows.take limit
    some {
      items := page.map item
      nextPageToken :=
        if limit < rows.length then
          page.getLast?.map fun row ↦ encodePageToken (createdAt row) (id row)
        else none }

/-! ## Pending actions -/

/-- A row of `pending_actions`, as far as the listing reads it. -/
structure ListedAction where
  id : Uuid
  userId : Uuid
  actionType : PendingActions.ActionType
  summary : String
  status : PendingActions.ActionStatus
  createdAt : AwareDateTime
  expiresAt : AwareDateTime

/-- An item of the response. -/
structure ActionSummary where
  id : Uuid
  actionType : PendingActions.ActionType
  summary : String
  status : PendingActions.ActionStatus
  createdAt : AwareDateTime
  expiresAt : AwareDateTime
  isExpired : Bool

/-- The summary of a row. -/
def ListedAction.toSummary (now : AwareDateTime) (row : ListedAction) : ActionSummary where
  id := row.id
  actionType := row.actionType
  summary := row.summary
  status := row.status
  createdAt := row.createdAt
  expiresAt := row.expiresAt
  isExpired := row.status = .pending && row.expiresAt.moment ≤ now.moment

/-- The position of a row. -/
def ListedAction.position (row : ListedAction) : Position :=
  Pagination.position row.createdAt row.id

/-- The position of an item. -/
def ActionSummary.position (item : ActionSummary) : Position :=
  Pagination.position item.createdAt item.id

/-- The table `pending_actions`. -/
abbrev ActionTable := {rows : List ListedAction // (rows.map ListedAction.position).Nodup}

/-- One owner's rows in one status. -/
def ownActions (userId : Uuid) (status : PendingActions.ActionStatus) (table : ActionTable) :
    List ListedAction :=
  table.1.filter fun row ↦ row.userId = userId && row.status = status

/-- `list_pending_actions`; `none` is `InvalidPageToken`. -/
def listPendingActions (table : ActionTable) (now : AwareDateTime) (userId : Uuid)
    (status : PendingActions.ActionStatus) (limit : ℕ) (pageToken : Option String) :
    Option (Response ActionSummary) :=
  listRows ListedAction.createdAt ListedAction.id (·.toSummary now) limit pageToken
    (ownActions userId status table)

/-! ## Triage results -/

/-- A row of `gmail_triage_work`, as far as the listing reads it. -/
structure ListedTriageWork where
  id : Uuid
  mailboxEmail : String
  messageId : String
  state : Notifications.TriageState
  triageSummary : Option String
  lastErrorCode : Option String
  createdAt : AwareDateTime
  processedAt : Option AwareDateTime

/-- An item of the response. -/
structure TriageResult where
  id : Uuid
  messageId : String
  state : Notifications.TriageState
  summaryPreview : Option String
  lastErrorCode : Option String
  createdAt : AwareDateTime
  processedAt : Option AwareDateTime

/-- `PREVIEW_CHARS`. -/
def previewChars : ℕ := 280

/-- The preview of a row. -/
def ListedTriageWork.toResult (row : ListedTriageWork) : TriageResult where
  id := row.id
  messageId := row.messageId
  state := row.state
  summaryPreview := row.triageSummary.map fun summary ↦
    String.ofList (summary.toList.take previewChars)
  lastErrorCode := row.lastErrorCode
  createdAt := row.createdAt
  processedAt := row.processedAt

/-- The position of a row. -/
def ListedTriageWork.position (row : ListedTriageWork) : Position :=
  Pagination.position row.createdAt row.id

/-- The position of an item. -/
def TriageResult.position (item : TriageResult) : Position :=
  Pagination.position item.createdAt item.id

/-- `gmail_triage_work`, and of `onebox_tokens` what the listing reads: the mailbox of each user, by
the primary key. -/
structure TriageTables where
  googleEmailNormalized : List (Uuid × Option String)
  works : List ListedTriageWork
  positions_nodup : (works.map ListedTriageWork.position).Nodup

/-- `_owner_mailbox`; `none` is `NULL`. -/
def ownerMailbox (tables : TriageTables) (userId : Uuid) : Option String :=
  (tables.googleEmailNormalized.lookup userId).join

/-- One owner's rows in one state. -/
def ownTriageWorks (userId : Uuid) (state : Notifications.TriageState) (tables : TriageTables) :
    List ListedTriageWork :=
  tables.works.filter fun row ↦
    some row.mailboxEmail = ownerMailbox tables userId && row.state = state

/-- `list_triage_results`; `none` is `InvalidPageToken`. -/
def listTriageResults (tables : TriageTables) (userId : Uuid) (state : Notifications.TriageState)
    (limit : ℕ) (pageToken : Option String) : Option (Response TriageResult) :=
  listRows ListedTriageWork.createdAt ListedTriageWork.id ListedTriageWork.toResult limit pageToken
    (ownTriageWorks userId state tables)

/-! ## Following the tokens

A client asks for the first page and then for the page of each token it is given. `request n` is
what the service answers at the time of the request after `n` others. -/

section

variable {Item Row : Type*}

/-- The token of each request, while there are any. -/
def tokenAt (request : ℕ → Option String → Option (Response Item)) : ℕ → Option (Option String)
  | 0 => some none
  | n + 1 =>
    match tokenAt request n with
    | none => none
    | some token =>
      match request n token with
      | none => none
      | some response => response.nextPageToken.map some

/-- The items of a request. -/
def itemsAt (request : ℕ → Option String → Option (Response Item)) (n : ℕ) : List Item :=
  match tokenAt request n with
  | none => []
  | some token =>
    match request n token with
    | none => []
    | some response => response.items

/-- The items of the first requests. -/
def itemsUpTo (request : ℕ → Option String → Option (Response Item)) : ℕ → List Item
  | 0 => []
  | n + 1 => itemsUpTo request n ++ itemsAt request n

/-- What following the tokens comes to, when request `n` is to show `matching n`. -/
structure PagesWell (request : ℕ → Option String → Option (Response Item))
    (matching : ℕ → List Row) (item : ℕ → Row → Item) (rowPosition : Row → Position)
    (itemPosition : Item → Position) : Prop where
  /-- Whatever the token, what is returned are rows that meet the conditions. -/
  sound : ∀ n token response, request n token = some response →
    ∀ i ∈ response.items, ∃ row ∈ matching n, i = item n row
  /-- The tokens returned are accepted. -/
  accepted : ∀ n token, tokenAt request n = some token → (request n token).isSome
  /-- When only finitely many rows ever meet the conditions, there is a last page. -/
  ends : ∀ positions : Finset Position, (∀ n, ∀ row ∈ matching n, rowPosition row ∈ positions) →
    tokenAt request (positions.card + 1) = none
  /-- The items descend strictly. -/
  descending : ∀ n, (itemsUpTo request n).Pairwise fun i i' ↦ itemPosition i' < itemPosition i
  /-- A row that meets the conditions at each request made is returned exactly once. -/
  complete : ∀ n row, tokenAt request n = none →
    (∀ m, (tokenAt request m).isSome → row ∈ matching m) →
      ∃ m, (itemsUpTo request n).filter (fun i ↦ itemPosition i = rowPosition row) = [item m row]

variable {request : ℕ → Option String → Option (Response Item)} {matching : ℕ → List Row}
  {createdAt : Row → AwareDateTime} {id : Row → Uuid} {item : ℕ → Row → Item} {limit n : ℕ}
  {itemPosition : Item → Position} {token : Option String} {cursor : Option Position}

theorem requestedPosition_encode (createdAt : AwareDateTime) (id : Uuid) :
    requestedPosition (some (encodePageToken createdAt id)) =
      some (some (position createdAt id)) := by
  rw [requestedPosition, decodePageToken_encode]
  rfl

/-- A request at a position returns the page there, and the token of the position after it. -/
theorem listRows_eq (createdAt : Row → AwareDateTime) (id : Row → Uuid) (item : Row → Item)
    (limit : ℕ) (rows : List Row) (h : requestedPosition token = some cursor) :
    ∃ next, listRows createdAt id item limit token rows =
        some ⟨(Keyset.page (positionOf createdAt id) limit cursor rows).rows.map item, next⟩ ∧
      ((next = none ∧ (Keyset.page (positionOf createdAt id) limit cursor rows).next = none) ∨
        ∃ next' k, next = some next' ∧ requestedPosition (some next') = some (some k) ∧
          (Keyset.page (positionOf createdAt id) limit cursor rows).next = some k) := by
  rw [listRows, h]
  refine ⟨_, rfl, ?_⟩
  rw [Keyset.page]
  dsimp only
  by_cases hmore : limit < ((Keyset.after (positionOf createdAt id) cursor rows).take
      (limit + 1)).length
  · rw [if_pos hmore, if_pos hmore]
    cases hlast : (((Keyset.after (positionOf createdAt id) cursor rows).take (limit + 1)).take
        limit).getLast? with
    | none => exact Or.inl ⟨rfl, rfl⟩
    | some row => exact Or.inr ⟨_, _, rfl, requestedPosition_encode _ _, rfl⟩
  · rw [if_neg hmore, if_neg hmore]
    exact Or.inl ⟨rfl, rfl⟩

/-- In a list that descends strictly, a member is the only one at its position. -/
theorem filter_position_eq {items : List Item} {i : Item}
    (h : items.Pairwise fun i i' ↦ itemPosition i' < itemPosition i) (hi : i ∈ items) :
    items.filter (fun i' ↦ itemPosition i' = itemPosition i) = [i] := by
  obtain ⟨before, rest, rfl⟩ := List.append_of_mem hi
  obtain ⟨-, hrest, hbefore⟩ := List.pairwise_append.mp h
  have hnone : before.filter (fun i' ↦ itemPosition i' = itemPosition i) = [] :=
    List.filter_eq_nil_iff.mpr fun i' hi' ↦ by
      simpa using (hbefore i' hi' i List.mem_cons_self).ne'
  have hnone' : rest.filter (fun i' ↦ itemPosition i' = itemPosition i) = [] :=
    List.filter_eq_nil_iff.mpr fun i' hi' ↦ by
      simpa using ((List.pairwise_cons.mp hrest).1 i' hi').ne
  rw [List.filter_append, hnone, List.filter_cons_of_pos (by simp), hnone']
  rfl

section

variable (hrequest : ∀ n token,
  request n token = listRows createdAt id (item n) limit token (matching n))

include hrequest

/-- **The tokens stand for the positions of a walk.** -/
theorem tokenAt_eq (n : ℕ) :
    (tokenAt request n = none ∧ Keyset.cursorAt (positionOf createdAt id) limit matching n = none) ∨
      ∃ token cursor, tokenAt request n = some token ∧
        Keyset.cursorAt (positionOf createdAt id) limit matching n = some cursor ∧
          requestedPosition token = some cursor := by
  induction n with
  | zero => exact Or.inr ⟨none, none, rfl, rfl, rfl⟩
  | succ n ih =>
    rw [tokenAt, Keyset.cursorAt]
    rcases ih with ⟨htoken, hcursor⟩ | ⟨token, cursor, htoken, hcursor, hposition⟩
    · rw [htoken, hcursor]
      exact Or.inl ⟨rfl, rfl⟩
    · rw [htoken, hcursor]
      dsimp only
      rw [hrequest]
      obtain ⟨next, hlist, ⟨rfl, hend⟩ | ⟨next', k, rfl, hnext', hnext⟩⟩ :=
        listRows_eq createdAt id (item n) limit (matching n) hposition
      · rw [hlist, hend]
        exact Or.inl ⟨rfl, rfl⟩
      · rw [hlist, hnext]
        exact Or.inr ⟨some next', some k, rfl, rfl, hnext'⟩

/-- **The items are those of the walk.** -/
theorem itemsAt_eq (n : ℕ) :
    itemsAt request n =
      (Keyset.shownAt (positionOf createdAt id) limit matching n).map (item n) := by
  rw [itemsAt, Keyset.shownAt]
  rcases tokenAt_eq hrequest n with ⟨htoken, hcursor⟩ | ⟨token, cursor, htoken, hcursor, hposition⟩
  · rw [htoken, hcursor]
    rfl
  · obtain ⟨next, hlist, -⟩ :=
      listRows_eq createdAt id (item n) limit (matching n) hposition
    rw [htoken, hcursor]
    dsimp only
    rw [hrequest, hlist]

theorem tokenAt_eq_none_iff : tokenAt request n = none ↔
    Keyset.cursorAt (positionOf createdAt id) limit matching n = none := by
  rcases tokenAt_eq hrequest n with ⟨htoken, hcursor⟩ | ⟨token, cursor, htoken, hcursor, -⟩
  · rw [htoken, hcursor]
    exact iff_of_true rfl rfl
  · rw [htoken, hcursor]
    exact iff_of_false nofun nofun

/-- Whatever the token, the items of a request come from its rows. -/
theorem exists_of_mem_items {response : Response Item} (h : request n token = some response)
    {i : Item} (hi : i ∈ response.items) : ∃ row ∈ matching n, i = item n row := by
  rw [hrequest] at h
  cases hposition : requestedPosition token with
  | none =>
    rw [listRows, hposition] at h
    cases h
  | some cursor =>
    obtain ⟨next, hlist, -⟩ :=
        listRows_eq createdAt id (item n) limit (matching n) hposition
    rw [hlist] at h
    obtain rfl := Option.some.inj h
    obtain ⟨row, hrow, rfl⟩ := List.mem_map.mp hi
    exact ⟨row, (Keyset.mem_rows_page hrow).1, rfl⟩

variable (hposition : ∀ n row, itemPosition (item n row) = positionOf createdAt id row)

include hposition

theorem map_itemsUpTo (n : ℕ) : (itemsUpTo request n).map itemPosition =
    (Keyset.shown (positionOf createdAt id) limit matching n).map (positionOf createdAt id) := by
  induction n with
  | zero => rfl
  | succ n ih =>
    have hitems : itemPosition ∘ item n = positionOf createdAt id := funext (hposition n)
    rw [itemsUpTo, Keyset.shown_succ, List.map_append, List.map_append, ih, itemsAt_eq hrequest,
      List.map_map, hitems]

/-- **A listing of rows with distinct positions pages well.** -/
theorem pagesWell (hlimit : 0 < limit)
    (hnodup : ∀ n, ((matching n).map (positionOf createdAt id)).Nodup) :
    PagesWell request matching item (positionOf createdAt id) itemPosition := by
  -- What is shown over all pages descends strictly, so no item is shown twice.
  have hdescending : ∀ n,
      (itemsUpTo request n).Pairwise fun i i' ↦ itemPosition i' < itemPosition i := by
    intro n
    have hshown : ((Keyset.shown (positionOf createdAt id) limit matching n).map
        (positionOf createdAt id)).Pairwise fun k k' ↦ k' < k :=
      List.pairwise_map.mpr (Keyset.pairwise_shown hnodup)
    rw [← map_itemsUpTo hrequest hposition] at hshown
    exact List.pairwise_map.mp hshown
  refine ⟨fun n token response h i hi ↦ exists_of_mem_items hrequest h hi, ?_, ?_, hdescending, ?_⟩
  · intro n token htoken
    rcases tokenAt_eq hrequest n with ⟨hnone, -⟩ | ⟨token', cursor, htoken', -, hcursor⟩
    · rw [hnone] at htoken
      cases htoken
    · rw [htoken'] at htoken
      obtain rfl := Option.some.inj htoken
      obtain ⟨next, hlist, -⟩ :=
        listRows_eq createdAt id (item n) limit (matching n) hcursor
      rw [hrequest, hlist]
      rfl
  · intro positions hpositions
    exact (tokenAt_eq_none_iff hrequest).mpr (Keyset.cursorAt_eq_none hnodup hpositions)
  · intro n row hended hrow
    have hshown : row ∈ Keyset.shown (positionOf createdAt id) limit matching n := by
      refine Keyset.mem_shown_of_ended hnodup hlimit ((tokenAt_eq_none_iff hrequest).mp hended)
        fun m hm ↦ hrow m ?_
      rw [Option.isSome_iff_ne_none] at hm ⊢
      exact fun hnone ↦ hm ((tokenAt_eq_none_iff hrequest).mp hnone)
    -- The row was on one of the pages, rendered as it was when that page was read.
    obtain ⟨m, hm⟩ : ∃ m, item m row ∈ itemsUpTo request n := by
      clear hended
      induction n with
      | zero => exact absurd hshown List.not_mem_nil
      | succ n ih =>
        rcases List.mem_append.mp hshown with hbefore | hlast
        · obtain ⟨m, hm⟩ := ih hbefore
          exact ⟨m, List.mem_append_left _ hm⟩
        · refine ⟨n, List.mem_append_right _ ?_⟩
          rw [itemsAt_eq hrequest]
          exact List.mem_map_of_mem hlast
    refine ⟨m, ?_⟩
    rw [← hposition m row]
    exact filter_position_eq (hdescending n) hm

end

end

/-! ## Both listings page well -/

/-- **Keyset pagination has no gaps and no duplicates.** The tables may change in any way between
the requests. -/
theorem listings_page_well {limit : ℕ} (hlimit : 0 < limit) (userId : Uuid) :
    (∀ createdAt rowId,
      decodePageToken (encodePageToken createdAt rowId) = some (createdAt, rowId)) ∧
    (∀ status (tables : ℕ → ActionTable) (now : ℕ → AwareDateTime),
      PagesWell (fun n ↦ listPendingActions (tables n) (now n) userId status limit)
        (fun n ↦ ownActions userId status (tables n)) (fun n ↦ ListedAction.toSummary (now n))
        ListedAction.position ActionSummary.position) ∧
    ∀ state (tables : ℕ → TriageTables),
      PagesWell (fun n ↦ listTriageResults (tables n) userId state limit)
        (fun n ↦ ownTriageWorks userId state (tables n)) (fun _ ↦ ListedTriageWork.toResult)
        ListedTriageWork.position TriageResult.position := by
  refine ⟨decodePageToken_encode, ?_, ?_⟩
  · intro status tables now
    refine pagesWell (fun _ _ ↦ rfl) (fun _ _ ↦ rfl) hlimit fun n ↦ ?_
    exact (tables n).2.sublist (List.filter_sublist.map ListedAction.position)
  · intro state tables
    refine pagesWell (fun _ _ ↦ rfl) (fun _ _ ↦ rfl) hlimit fun n ↦ ?_
    exact (tables n).positions_nodup.sublist (List.filter_sublist.map ListedTriageWork.position)

/-- New Year's Eve, an hour and a half ahead of UTC. -/
def sampleCreatedAt : AwareDateTime where
  shown := ⟨2025, 12, 31, 23, 59, 59, 999999, by decide, by decide⟩
  offset := ⟨5400000000, by decide⟩

/-- Two actions staged at the same moment. -/
def sampleActions : ActionTable :=
  ⟨[⟨1, 7, .sendEmail, "first", .pending, sampleCreatedAt, sampleCreatedAt⟩,
    ⟨2, 7, .sendEmail, "second", .pending, sampleCreatedAt, sampleCreatedAt⟩], by decide⟩

/-- Pages of one row each, of rows that differ in their ids alone. -/
theorem listings_page_well_sample :
    PagesWell (fun _ ↦ listPendingActions sampleActions sampleCreatedAt 7 .pending 1)
      (fun _ ↦ ownActions 7 .pending sampleActions)
      (fun _ ↦ ListedAction.toSummary sampleCreatedAt)
      ListedAction.position ActionSummary.position :=
  (listings_page_well Nat.one_pos 7).2.1 .pending (fun _ ↦ sampleActions)
    fun _ ↦ sampleCreatedAt

end Onebox.Pagination
