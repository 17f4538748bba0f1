import Onebox.Notifications.Settings
import Onebox.Python.Bytes
import Onebox.Python.Json
import Onebox.Python.Text

/-!
# Collecting history

`_history_message_ids` reads the pages of `history.list` from a start cursor on, whatever their
shape, within bounds on pages and messages. What the pages show is read off them separately, by
`shownIds` and `mentionedMessages`; `historyMessageIds_spec` compares the two.
-/

namespace Onebox.Notifications

open Python

/-- The exceptions that end the collection. -/
inductive HistoryFailure
  /-- `HistoryWorkLimitExceeded`. -/
  | workLimitExceeded
  | rejected (statusCode : Option ℕ)
  | credentialsUnavailable
  /-- Every other `GoogleProviderError`. -/
  | providerUnavailable
  /-- Any other exception. -/
  | internal
  deriving DecidableEq

/-! ## History ids -/

/-- `str.isdecimal`, with the digits. -/
def decimalDigits (unicode : UnicodeData) (s : String) : Option (List ℕ) :=
  if s = "" then none else s.toList.mapM unicode.decimal

/-- `_history_id`. A conversion of too many digits raises. -/
def historyId (unicode : UnicodeData) (value : Option Json) :
    Except HistoryFailure (Option ℕ) :=
  match value with
  | some (.str s) =>
    match decimalDigits unicode s with
    | none => .ok none
    | some digits =>
      if Bytes.maxStrDigits < digits.length then .error .internal
      else
        let parsed := Nat.ofDigits 10 digits.reverse
        if 0 < parsed ∧ parsed ≤ 9223372036854775807 then .ok (some parsed) else .ok none
  | _ => .ok none

/-! ## One page -/

/-- `message_ids`, which is also `seen`, and `latest_cursor`. -/
structure HistoryWork where
  messageIds : List MessageId
  latestCursor : ℕ
  deriving DecidableEq

/-- The message id of an entry of `messagesAdded`, if it has one. -/
def addedMessageId (added : Json) : Option MessageId :=
  match (added.get? "message").bind (·.get? "id") with
  | some (.str messageId) => if messageId = "" then none else some messageId
  | _ => none

/-- The innermost loop of `_history_message_ids`. -/
def addMessages (maxMessages : ℕ) : List Json → HistoryWork → Except HistoryFailure HistoryWork
  | [], work => .ok work
  | added :: rest, work =>
    match addedMessageId added with
    | none => addMessages maxMessages rest work
    | some messageId =>
      if messageId ∈ work.messageIds then addMessages maxMessages rest work
      else if maxMessages ≤ work.messageIds.length then .error .workLimitExceeded
      else
        addMessages maxMessages rest
          { work with messageIds := work.messageIds ++ [messageId] }

/-- `for item in value.get(key, [])`; `none` is the `TypeError`. -/
def entries (value : Json) (key : String) : Option (List Json) :=
  match value.get? key with
  | none => some []
  | some items => items.iter?

/-- The loop over the records of a page. -/
def addRecords (unicode : UnicodeData) (maxMessages : ℕ) :
    List Json → HistoryWork → Except HistoryFailure HistoryWork
  | [], work => .ok work
  | history :: rest, work =>
    if history.isDict then
      match historyId unicode (history.get? "id") with
      | .error e => .error e
      | .ok historyCursor =>
        let work := { work with
          latestCursor := max work.latestCursor (historyCursor.getD work.latestCursor) }
        match entries history "messagesAdded" with
        | none => .error .internal
        | some added =>
          match addMessages maxMessages added work with
          | .error e => .error e
          | .ok work => addRecords unicode maxMessages rest work
    else addRecords unicode maxMessages rest work

/-- `response or {}`. -/
def orEmpty (response : Json) : Json := if response.truthy then response else .obj []

/-- `response.get("nextPageToken")` is set. -/
def hasNextPage (response : Json) : Bool :=
  ((orEmpty response).get? "nextPageToken").any Json.truthy

/-- One round of the outer loop, up to its end tests. -/
def readPage (unicode : UnicodeData) (maxMessages : ℕ) (response : Json) (work : HistoryWork) :
    Except HistoryFailure HistoryWork :=
  if (orEmpty response).isDict then
    match historyId unicode ((orEmpty response).get? "historyId") with
    | .error e => .error e
    | .ok responseCursor =>
      let work := { work with
        latestCursor := max work.latestCursor (responseCursor.getD work.latestCursor) }
      match entries (orEmpty response) "history" with
      | none => .error .internal
      | some records => addRecords unicode maxMessages records work
  else .error .internal

/-! ## The pages -/

/-- The outer loop, after `pageCount` pages; `none` while the next response is awaited. -/
def readPages (unicode : UnicodeData) (maxMessages maxPages : ℕ) :
    List (Except HistoryFailure Json) → ℕ → HistoryWork →
      Option (Except HistoryFailure HistoryWork)
  | [], _, _ => none
  | .error e :: _, _, _ => some (.error e)
  | .ok response :: rest, pageCount, work =>
    match readPage unicode maxMessages response work with
    | .error e => some (.error e)
    | .ok work =>
      if hasNextPage response then
        if maxPages ≤ pageCount + 1 ∨ maxMessages ≤ work.messageIds.length then
          some (.error .workLimitExceeded)
        else readPages unicode maxMessages maxPages rest (pageCount + 1) work
      else some (.ok work)

/-- `_history_message_ids`: the message ids and the provider's final history cursor. -/
def historyMessageIds (unicode : UnicodeData) (settings : Settings)
    (responses : List (Except HistoryFailure Json)) (cursor : ℕ) :
    Option (Except HistoryFailure HistoryWork) :=
  readPages unicode settings.historyMaxMessages settings.historyMaxPages responses 0 ⟨[], cursor⟩

/-! ## What the pages show -/

/-- The records of a page. -/
def pageRecords (response : Json) : List Json :=
  ((entries (orEmpty response) "history").getD []).filter Json.isDict

/-- The message ids that a page mentions. -/
def mentionedMessages (response : Json) : List MessageId :=
  (pageRecords response).flatMap fun history ↦
    ((entries history "messagesAdded").getD []).filterMap addedMessageId

/-- The history id that a page gives for the mailbox. -/
def pageHistoryId (unicode : UnicodeData) (response : Json) : Option ℕ :=
  match historyId unicode ((orEmpty response).get? "historyId") with
  | .error _ => none
  | .ok shown => shown

/-- The history ids that a page shows, its own and those of its records. -/
def shownIds (unicode : UnicodeData) (response : Json) : List ℕ :=
  (pageHistoryId unicode response).toList ++
    (pageRecords response).filterMap fun history ↦
      match historyId unicode (history.get? "id") with
      | .error _ => none
      | .ok shown => shown

section

variable {unicode : UnicodeData} {maxMessages maxPages : ℕ} {work work' : HistoryWork}

theorem addMessages_spec {items : List Json}
    (h : addMessages maxMessages items work = .ok work') :
    work'.latestCursor = work.latestCursor ∧ work.messageIds ⊆ work'.messageIds ∧
      ∀ messageId ∈ items.filterMap addedMessageId, messageId ∈ work'.messageIds := by
  induction items generalizing work with
  | nil =>
    obtain rfl := by simpa [addMessages] using h
    exact ⟨rfl, List.Subset.refl _, by simp⟩
  | cons added rest ih =>
    rw [addMessages] at h
    split at h
    · rename_i hnone
      obtain ⟨hcursor, hsub, hall⟩ := ih h
      refine ⟨hcursor, hsub, ?_⟩
      rwa [List.filterMap_cons_none hnone]
    · rename_i messageId hsome
      split at h
      · rename_i hmem
        obtain ⟨hcursor, hsub, hall⟩ := ih h
        refine ⟨hcursor, hsub, ?_⟩
        rw [List.filterMap_cons_some hsome]
        exact List.forall_mem_cons.mpr ⟨hsub hmem, hall⟩
      · split at h
        · cases h
        · obtain ⟨hcursor, hsub, hall⟩ := ih h
          have hsub' := List.append_subset.mp hsub
          refine ⟨hcursor, hsub'.1, ?_⟩
          rw [List.filterMap_cons_some hsome]
          exact List.forall_mem_cons.mpr ⟨hsub'.2 (List.mem_singleton_self _), hall⟩

theorem addRecords_spec {records : List Json} {bound : ℕ}
    (h : addRecords unicode maxMessages records work = .ok work')
    (hbound : ∀ history ∈ records.filter Json.isDict, ∀ shown,
      historyId unicode (history.get? "id") = .ok (some shown) → shown ≤ bound)
    (hwork : work.latestCursor ≤ bound) :
    work'.latestCursor ≤ bound ∧ work.messageIds ⊆ work'.messageIds ∧
      ∀ history ∈ records.filter Json.isDict,
        ∀ messageId ∈ ((entries history "messagesAdded").getD []).filterMap addedMessageId,
          messageId ∈ work'.messageIds := by
  induction records generalizing work with
  | nil =>
    obtain rfl := by simpa [addRecords] using h
    exact ⟨hwork, List.Subset.refl _, by simp⟩
  | cons history rest ih =>
    rw [addRecords] at h
    split at h
    · rename_i hdict
      rw [List.filter_cons_of_pos hdict] at hbound ⊢
      rw [List.forall_mem_cons] at hbound
      split at h
      · cases h
      · rename_i historyCursor hcursor
        split at h
        · cases h
        · rename_i added hentries
          dsimp only at h
          split at h
          · cases h
          · rename_i middle hadd
            obtain ⟨hlatest, hsub, hall⟩ := addMessages_spec hadd
            -- The cursor of this record is one that the page shows.
            have hmiddle : middle.latestCursor ≤ bound := by
              rw [hlatest]
              refine max_le hwork ?_
              cases historyCursor with
              | none => exact hwork
              | some shown => exact hbound.1 shown hcursor
            obtain ⟨hlatest', hsub', hall'⟩ := ih h hbound.2 hmiddle
            refine ⟨hlatest', List.Subset.trans hsub hsub', ?_⟩
            rw [List.forall_mem_cons]
            refine ⟨fun messageId hmem ↦ hsub' (hall messageId ?_), hall'⟩
            simpa [hentries] using hmem
    · rename_i hdict
      rw [List.filter_cons_of_neg (by simpa using hdict)] at hbound ⊢
      exact ih h hbound hwork

theorem readPage_spec {response : Json} {bound : ℕ}
    (h : readPage unicode maxMessages response work = .ok work')
    (hbound : ∀ shown ∈ shownIds unicode response, shown ≤ bound)
    (hwork : work.latestCursor ≤ bound) :
    work'.latestCursor ≤ bound ∧ work.messageIds ⊆ work'.messageIds ∧
      ∀ messageId ∈ mentionedMessages response, messageId ∈ work'.messageIds := by
  rw [readPage] at h
  split at h
  · split at h
    · cases h
    · rename_i responseCursor hcursor
      split at h
      · cases h
      · rename_i records hrecords
        have hpage : pageRecords response = records.filter Json.isDict := by
          rw [pageRecords, hrecords, Option.getD_some]
        have hstart : max work.latestCursor (responseCursor.getD work.latestCursor) ≤ bound := by
          refine max_le hwork ?_
          cases responseCursor with
          | none => exact hwork
          | some shown =>
            refine hbound shown (List.mem_append_left _ ?_)
            rw [pageHistoryId, hcursor]
            exact List.mem_singleton_self _
        have hids : ∀ history ∈ records.filter Json.isDict, ∀ shown,
            historyId unicode (history.get? "id") = .ok (some shown) → shown ≤ bound := by
          intro history hmem shown hshown
          refine hbound shown (List.mem_append_right _ ?_)
          rw [hpage, List.mem_filterMap]
          exact ⟨history, hmem, by rw [hshown]⟩
        obtain ⟨hlatest, hsub, hall⟩ := addRecords_spec h hids hstart
        refine ⟨hlatest, hsub, fun messageId hmem ↦ ?_⟩
        rw [mentionedMessages, hpage, List.mem_flatMap] at hmem
        obtain ⟨history, hhistory, hmessage⟩ := hmem
        exact hall history hhistory messageId hmessage
  · cases h

/-- The responses are the pages of one listing, the last of them its last page. -/
def Paged : List Json → Prop
  | [] => False
  | [response] => hasNextPage response = false
  | response :: rest => hasNextPage response = true ∧ Paged rest

instance Paged.decidable : DecidablePred Paged
  | [] => isFalse id
  | [response] => inferInstanceAs (Decidable (hasNextPage response = false))
  | response :: second :: rest =>
    have := Paged.decidable (second :: rest)
    inferInstanceAs (Decidable (hasNextPage response = true ∧ Paged (second :: rest)))

theorem readPages_spec {pages : List Json} {pageCount bound : ℕ} (hpaged : Paged pages)
    (h : readPages unicode maxMessages maxPages (pages.map .ok) pageCount work = some (.ok work'))
    (hbound : ∀ response ∈ pages, ∀ shown ∈ shownIds unicode response, shown ≤ bound)
    (hwork : work.latestCursor ≤ bound) :
    work'.latestCursor ≤ bound ∧ work.messageIds ⊆ work'.messageIds ∧
      ∀ response ∈ pages, ∀ messageId ∈ mentionedMessages response,
        messageId ∈ work'.messageIds := by
  -- On the pages left; `Paged` places the end of the collection at the last of them.
  induction pages generalizing work pageCount with
  | nil => exact hpaged.elim
  | cons response rest ih =>
    rw [List.map_cons, readPages] at h
    rw [List.forall_mem_cons] at hbound
    split at h
    · cases h
    · rename_i middle hpage
      obtain ⟨hlatest, hsub, hall⟩ := readPage_spec hpage hbound.1 hwork
      split at h
      · rename_i hnext
        split at h
        · cases h
        · cases rest with
          | nil =>
            have hlast : hasNextPage response = false := hpaged
            rw [hlast] at hnext
            cases hnext
          | cons second rest =>
            obtain ⟨hlatest', hsub', hall'⟩ := ih hpaged.2 h hbound.2 hlatest
            refine ⟨hlatest', List.Subset.trans hsub hsub', ?_⟩
            rw [List.forall_mem_cons]
            exact ⟨fun messageId hmem ↦ hsub' (hall messageId hmem), hall'⟩
      · rename_i hlast
        obtain rfl := by simpa using h
        cases rest with
        | nil =>
          refine ⟨hlatest, hsub, ?_⟩
          rw [List.forall_mem_cons]
          exact ⟨hall, by simp⟩
        | cons second rest => exact absurd hpaged.1 hlast

/-- **History collection is complete**: what it returns holds every message that its pages
mention, and its cursor is no further than what they show. -/
theorem historyMessageIds_spec {settings : Settings} {pages : List Json} {cursor bound : ℕ}
    (hpaged : Paged pages)
    (h : historyMessageIds unicode settings (pages.map .ok) cursor = some (.ok work'))
    (hbound : ∀ response ∈ pages, ∀ shown ∈ shownIds unicode response, shown ≤ bound)
    (hcursor : cursor ≤ bound) :
    work'.latestCursor ≤ bound ∧
      ∀ response ∈ pages, ∀ messageId ∈ mentionedMessages response,
        messageId ∈ work'.messageIds := by
  obtain ⟨hlatest, -, hall⟩ := readPages_spec hpaged h hbound hcursor
  exact ⟨hlatest, hall⟩

end

end Onebox.Notifications
