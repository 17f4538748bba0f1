import Onebox.Notifications.History
import Onebox.Python.Lists

/-!
# History as a list of items

The nested loops over a page do one thing after the other: they read a history id, they meet a
message id, or they come to something that they cannot read. A page is the list of these items, and
reading the page is folding over it. What the fold returns is then said in terms of the list alone.
-/

namespace Onebox.Notifications

open Python

/-! ## Items -/

inductive HistoryItem
  /-- Something that the loops raise on. -/
  | malformed
  | shown (historyId : ℕ)
  | message (messageId : MessageId)
  deriving DecidableEq

/-- What a history id comes to. -/
def historyIdItems (unicode : UnicodeData) (value : Option Json) : List HistoryItem :=
  match historyId unicode value with
  | .error _ => [.malformed]
  | .ok none => []
  | .ok (some shown) => [.shown shown]

/-- The items of a record. -/
def recordItems (unicode : UnicodeData) (history : Json) : List HistoryItem :=
  historyIdItems unicode (history.get? "id") ++
    match entries history "messagesAdded" with
    | none => [.malformed]
    | some added => (added.filterMap addedMessageId).map .message

/-- The items of a page. -/
def pageItems (unicode : UnicodeData) (response : Json) : List HistoryItem :=
  if (orEmpty response).isDict then
    historyIdItems unicode ((orEmpty response).get? "historyId") ++
      match entries (orEmpty response) "history" with
      | none => [.malformed]
      | some records => (records.filter Json.isDict).flatMap (recordItems unicode)
  else [.malformed]

/-- The message ids among the items. -/
def itemMessages (items : List HistoryItem) : List MessageId :=
  items.filterMap fun
    | .message messageId => some messageId
    | _ => none

/-- The history ids among the items. -/
def itemShown (items : List HistoryItem) : List ℕ :=
  items.filterMap fun
    | .shown historyId => some historyId
    | _ => none

/-- What the loops do with an item. -/
def takeItem (maxMessages : ℕ) (work : HistoryWork) :
    HistoryItem → Except HistoryFailure HistoryWork
  | .malformed => .error .internal
  | .shown historyId => .ok { work with latestCursor := max work.latestCursor historyId }
  | .message messageId =>
    if messageId ∈ work.messageIds then .ok work
    else if maxMessages ≤ work.messageIds.length then .error .workLimitExceeded
    else .ok { work with messageIds := work.messageIds ++ [messageId] }

def takeItems (maxMessages : ℕ) (items : List HistoryItem) (work : HistoryWork) :
    Except HistoryFailure HistoryWork :=
  items.foldlM (takeItem maxMessages) work

section

variable {unicode : UnicodeData} {maxMessages : ℕ} {work : HistoryWork}
  {items items' : List HistoryItem}

theorem itemMessages_append :
    itemMessages (items ++ items') = itemMessages items ++ itemMessages items' :=
  List.filterMap_append

theorem itemShown_append : itemShown (items ++ items') = itemShown items ++ itemShown items' :=
  List.filterMap_append

theorem itemMessages_map (messageIds : List MessageId) :
    itemMessages (messageIds.map .message) = messageIds := by
  rw [itemMessages, List.filterMap_map]
  exact List.filterMap_some

theorem itemShown_map (messageIds : List MessageId) :
    itemShown (messageIds.map .message) = [] := by
  rw [itemShown, List.filterMap_map]
  exact List.filterMap_eq_nil_iff.mpr fun _ _ ↦ rfl

theorem takeItems_cons (item : HistoryItem) :
    takeItems maxMessages (item :: items) work =
      match takeItem maxMessages work item with
      | .error e => .error e
      | .ok work => takeItems maxMessages items work := by
  rw [takeItems, List.foldlM_cons]
  cases takeItem maxMessages work item with
  | error | ok => rfl

theorem takeItems_append :
    takeItems maxMessages (items ++ items') work =
      match takeItems maxMessages items work with
      | .error e => .error e
      | .ok work => takeItems maxMessages items' work := by
  rw [takeItems, List.foldlM_append, takeItems]
  cases List.foldlM (takeItem maxMessages) work items with
  | error | ok => rfl

/-! ## The loops -/

theorem addMessages_eq_takeItems (added : List Json) (work : HistoryWork) :
    addMessages maxMessages added work =
      takeItems maxMessages ((added.filterMap addedMessageId).map .message) work := by
  induction added generalizing work with
  | nil => rfl
  | cons entry rest ih =>
    rw [addMessages]
    cases hentry : addedMessageId entry with
    | none =>
      rw [List.filterMap_cons_none hentry]
      exact ih work
    | some messageId =>
      rw [List.filterMap_cons_some hentry, List.map_cons, takeItems_cons, takeItem]
      dsimp only
      split
      · exact ih work
      · split
        · rfl
        · exact ih _

theorem historyId_eq_error {value : Option Json} {e : HistoryFailure}
    (h : historyId unicode value = .error e) : e = .internal := by
  rw [historyId.eq_def] at h
  split at h
  · split at h
    · cases h
    · split at h
      · exact (Except.error.inj h).symm
      · dsimp only at h
        split at h
        · cases h
        · cases h
  · cases h

/-- Reading a history id. -/
theorem takeItems_historyIdItems (value : Option Json) (work : HistoryWork) :
    takeItems maxMessages (historyIdItems unicode value) work =
      match historyId unicode value with
      | .error e => .error e
      | .ok read => .ok { work with
          latestCursor := max work.latestCursor (read.getD work.latestCursor) } := by
  rw [historyIdItems]
  cases hread : historyId unicode value with
  | error e =>
    rw [historyId_eq_error hread]
    rfl
  | ok read =>
    cases read with
    | none =>
      dsimp only
      rw [Option.getD_none, max_self]
      rfl
    | some shown => rfl

theorem addRecords_eq_takeItems (records : List Json) (work : HistoryWork) :
    addRecords unicode maxMessages records work =
      takeItems maxMessages ((records.filter Json.isDict).flatMap (recordItems unicode)) work := by
  induction records generalizing work with
  | nil => rfl
  | cons history rest ih =>
    rw [addRecords]
    split
    · rename_i hdict
      rw [List.filter_cons_of_pos hdict, List.flatMap_cons, takeItems_append, recordItems,
        takeItems_append, takeItems_historyIdItems]
      cases historyId unicode (history.get? "id") with
      | error e => rfl
      | ok read =>
        dsimp only
        cases entries history "messagesAdded" with
        | none => rfl
        | some added =>
          dsimp only
          rw [addMessages_eq_takeItems]
          cases takeItems maxMessages ((added.filterMap addedMessageId).map .message) _ with
          | error e => rfl
          | ok work => exact ih work
    · rename_i hdict
      rw [List.filter_cons_of_neg (by simpa using hdict)]
      exact ih work

/-- **Reading a page is folding over its items.** -/
theorem readPage_eq_takeItems (response : Json) (work : HistoryWork) :
    readPage unicode maxMessages response work =
      takeItems maxMessages (pageItems unicode response) work := by
  rw [readPage, pageItems]
  split
  · rw [takeItems_append, takeItems_historyIdItems]
    cases historyId unicode ((orEmpty response).get? "historyId") with
    | error e => rfl
    | ok read =>
      dsimp only
      cases entries (orEmpty response) "history" with
      | none => rfl
      | some records => exact addRecords_eq_takeItems records _
  · rfl

/-! ## What the items show -/

theorem itemMessages_historyIdItems (value : Option Json) :
    itemMessages (historyIdItems unicode value) = [] := by
  rw [historyIdItems]
  split
  · rfl
  · rfl
  · rfl

/-- The history id that a value gives. -/
def shownId (unicode : UnicodeData) (value : Option Json) : Option ℕ :=
  match historyId unicode value with
  | .error _ => none
  | .ok shown => shown

theorem itemShown_historyIdItems (value : Option Json) :
    itemShown (historyIdItems unicode value) = (shownId unicode value).toList := by
  rw [historyIdItems, shownId]
  cases historyId unicode value with
  | error e => rfl
  | ok read =>
    cases read with
    | none => rfl
    | some shown => rfl

theorem itemMessages_recordItems (history : Json) :
    itemMessages (recordItems unicode history) =
      ((entries history "messagesAdded").getD []).filterMap addedMessageId := by
  rw [recordItems, itemMessages_append, itemMessages_historyIdItems, List.nil_append]
  cases entries history "messagesAdded" with
  | none => rfl
  | some added => exact itemMessages_map _

theorem itemShown_recordItems (history : Json) :
    itemShown (recordItems unicode history) = (shownId unicode (history.get? "id")).toList := by
  rw [recordItems, itemShown_append, itemShown_historyIdItems]
  cases entries history "messagesAdded" with
  | none => exact List.append_nil _
  | some added =>
    dsimp only
    rw [itemShown_map, List.append_nil]

theorem itemMessages_flatMap (records : List Json) :
    itemMessages (records.flatMap (recordItems unicode)) =
      records.flatMap fun history ↦
        ((entries history "messagesAdded").getD []).filterMap addedMessageId := by
  induction records with
  | nil => rfl
  | cons history rest ih =>
    rw [List.flatMap_cons, List.flatMap_cons, itemMessages_append, itemMessages_recordItems, ih]

theorem itemShown_flatMap (records : List Json) :
    itemShown (records.flatMap (recordItems unicode)) =
      records.filterMap fun history ↦ shownId unicode (history.get? "id") := by
  induction records with
  | nil => rfl
  | cons history rest ih =>
    rw [List.flatMap_cons, itemShown_append, itemShown_recordItems, ih, List.filterMap_cons]
    cases shownId unicode (history.get? "id") with
    | none | some => rfl

/-- What is no dictionary has no fields. -/
theorem get?_of_not_isDict {value : Json} (h : value.isDict = false) (key : String) :
    value.get? key = none := by
  cases value with
  | obj fields => cases h
  | _ => rfl

/-- **The items of a page mention the messages that the page mentions.** -/
theorem itemMessages_pageItems (response : Json) :
    itemMessages (pageItems unicode response) = mentionedMessages response := by
  rw [pageItems, mentionedMessages, pageRecords]
  split
  · rw [itemMessages_append, itemMessages_historyIdItems, List.nil_append]
    cases entries (orEmpty response) "history" with
    | none => rfl
    | some records => exact itemMessages_flatMap _
  · rename_i hdict
    rw [entries, get?_of_not_isDict (Bool.eq_false_of_not_eq_true hdict)]
    rfl

/-- And they show the history ids that the page shows. -/
theorem itemShown_pageItems (response : Json) :
    itemShown (pageItems unicode response) = shownIds unicode response := by
  have hown : pageHistoryId unicode response =
      shownId unicode ((orEmpty response).get? "historyId") := rfl
  rw [pageItems, shownIds, pageRecords, hown]
  split
  · rw [itemShown_append, itemShown_historyIdItems]
    cases entries (orEmpty response) "history" with
    | none => rfl
    | some records =>
      rw [itemShown_flatMap]
      rfl
  · rename_i hdict
    have hnone := get?_of_not_isDict (Bool.eq_false_of_not_eq_true hdict)
    rw [entries, hnone, hnone]
    rfl

end

end Onebox.Notifications
