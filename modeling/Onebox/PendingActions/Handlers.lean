import Mathlib.Data.List.Infix
import Onebox.PendingActions.Model
import Onebox.Python.Text

/-!
# Dispatch and lookup

What the provider protocol makes of the provider's answers. A write ends in an `Outcome`, which
decides how the attempt is finalized; a lookup ends in a `ReconciliationResult`. Resources that a
provider returns for a write are JSON; the ones a lookup reads are records of the fields it reads.

`HandlerEnv` collects what comes from elsewhere: the payload rules, the Unicode database, SHA-256
and the address parser.
-/

namespace Onebox.PendingActions

open Python

/-- The code that the handlers call. -/
structure HandlerEnv where
  rules : PayloadRules
  unicode : UnicodeData
  /-- `hashlib.sha256(key.encode("utf-8")).hexdigest()`. -/
  sha256Hexdigest : String → String
  /-- The addresses of `email.utils.getaddresses([header])`. -/
  getaddresses : String → List String

/-- The exceptions of a Google operation, as far as the handlers tell them apart. -/
inductive GoogleError
  /-- `GoogleOperationRejected`. -/
  | rejected (statusCode : Option ℕ)
  /-- Every other `GoogleProviderError`: a timeout, no capacity, a quota, a transport failure. -/
  | other
  deriving DecidableEq

/-! ## Markers -/

def gmailMessageId (env : HandlerEnv) (commandKey : String) : String :=
  "<onebox." ++ String.ofList ((env.sha256Hexdigest commandKey).toList.take 32) ++
    "@onebox.invalid>"

def calendarEventId (env : HandlerEnv) (commandKey : String) : String :=
  "ob" ++ String.ofList ((env.sha256Hexdigest commandKey).toList.take 40)

def taskMarker (commandKey : String) : String := "[onebox-command-key:" ++ commandKey ++ "]"

/-! ## The write -/

/-- How `execute_action` ends. -/
inductive Outcome
  | returned (result : Json)
  /-- `ConfirmedActionFailure`. -/
  | confirmedFailure (code : String)
  /-- `AmbiguousActionOutcome`. -/
  | ambiguous (code : String)
  /-- Any other exception. -/
  | unexpected

/-- How the one provider operation of a write ends on its thread. -/
inductive CallResult
  | returned (value : Json)
  | confirmedFailure (code : String)
  | ambiguous (code : String)
  | raised (error : GoogleError)

/-- `f"provider_rejected_{exc.status_code or 'unknown'}"`. -/
def rejectionCode (statusCode : Option ℕ) : String :=
  "provider_rejected_" ++
    match statusCode with
    | none | some 0 => "unknown"
    | some n => toString n

/-- The check that a returned resource carries an id. -/
def confirmResource (unconfirmed : String) (resource : Json) (result : Json → Json) : Outcome :=
  if resource.truthy then
    if resource.isDict then
      match resource.get? "id" with
      | none => .ambiguous unconfirmed
      | some id => if id.truthy then .returned (result id) else .ambiguous unconfirmed
    else .unexpected
  else .ambiguous unconfirmed

/-- `execute_action` from the end of its provider operation on. -/
def writeOutcome (actionType : ActionType) (payload : Json) : CallResult → Outcome
  | .confirmedFailure code => .confirmedFailure code
  | .ambiguous code => .ambiguous code
  | .raised (.rejected statusCode) =>
    -- A conflict on a deterministic event id may mean that the event exists.
    if actionType = .createEvent ∧ statusCode = some 409 then .ambiguous "calendar_id_conflict"
    else .confirmedFailure (rejectionCode statusCode)
  | .raised .other => .ambiguous "provider_outcome_unknown"
  | .returned value =>
    match actionType with
    | .sendEmail => confirmResource "gmail_unconfirmed" value fun id ↦
        .obj [("external_id", id), ("provider", .str "gmail")]
    | .sendReply => confirmResource "gmail_unconfirmed" value fun id ↦
        .obj [("external_id", id),
          ("original_message_id", (payload.get? "original_message_id").getD .null),
          ("provider", .str "gmail")]
    | .createEvent => confirmResource "calendar_unconfirmed" value fun id ↦
        .obj [("external_id", id), ("provider", .str "calendar")]
    | .createTask => .returned value
    | .other _ => .confirmedFailure "unsupported_action"

/-- `_create_task_sync` up to the insertion of the task, given the task lists and the resource that
the insertion of a missing list returns: the id of the list, or how the operation ends. -/
def selectTaskList (tasklists : List Json) (insertedList : Json) : Except CallResult Json :=
  if tasklists.all Json.isDict then
    match tasklists.filter fun item ↦
      (item.get? "title").bind Json.str? = some "Executive Agent Tasks" with
    | _ :: _ :: _ => .error (.confirmedFailure "task_list_ambiguous")
    | [selected] =>
      match selected.get? "id" with
      | some id =>
        if id.truthy then .ok id else .error (.confirmedFailure "task_list_not_confirmed")
      | none => .error (.confirmedFailure "task_list_not_confirmed")
    | [] =>
      if insertedList.truthy && !insertedList.isDict then .error (.raised .other)
      else
        match insertedList.get? "id" with
        | some id => if id.truthy then .ok id else .error (.ambiguous "task_list_unconfirmed")
        | none => .error (.ambiguous "task_list_unconfirmed")
  else .error (.raised .other)

/-- `_create_task_sync` from the answer to the insertion of the task on. -/
def taskInserted (taskListId task : Json) : CallResult :=
  if task.truthy then
    if task.isDict then
      match task.get? "id" with
      | none => .ambiguous "task_unconfirmed"
      | some id =>
        if id.truthy then
          .returned (.obj [("external_id", id), ("task_list_id", taskListId),
            ("provider", .str "tasks")])
        else .ambiguous "task_unconfirmed"
    else .raised .other
  else .ambiguous "task_unconfirmed"

/-- How `execute_action` can end before its provider operation runs. -/
inductive EarlyEnd
  /-- No slot, no lock or no time left for the operation. -/
  | notAdmitted
  /-- An exception while the request is built. -/
  | raised
  deriving DecidableEq

/-- `execute_action` up to its provider operation; `none` when it goes on to the operation. -/
def beforeOperation (rules : PayloadRules) (action : PendingAction) : Option Outcome :=
  match rules.canonicalizeActionPayload action.actionType action.payload with
  | none => some (.confirmedFailure "payload_invalid")
  | some _ =>
    match action.actionType with
    | .other _ => some (.confirmedFailure "unsupported_action")
    | _ => none

/-- The outcome of an execution that ends early. -/
def EarlyEnd.outcome : EarlyEnd → Outcome
  | notAdmitted => .ambiguous "provider_outcome_unknown"
  | raised => .unexpected

/-- The finalization that `execute_claimed_action` asks for. -/
def executeClaimedAction : Outcome → FinalizeArgs
  | .returned result =>
    ⟨.succeeded, some result, none, .succeeded, [("dispatch", .text "confirmed")]⟩
  | .confirmedFailure code =>
    ⟨.failed, none, some code, .confirmedFailure, [("dispatch", .text "not_accepted")]⟩
  | .ambiguous code =>
    ⟨.reconciliationRequired, none, some code, .providerOutcomeAmbiguous,
      [("dispatch", .text "acceptance_unknown")]⟩
  | .unexpected =>
    ⟨.reconciliationRequired, none, some "execution_interrupted", .executionInterrupted,
      [("dispatch", .text "acceptance_unknown")]⟩

/-! ## The lookup -/

/-- One page of a Gmail search. -/
structure SearchPage where
  messages : List String
  nextPageToken : Option String

/-- The metadata of a Gmail message. -/
structure MessageMetadata where
  id : String
  threadId : Option String
  headers : List (String × String)

/-- A Calendar event. -/
structure CalendarEvent where
  id : Option String
  oneboxCommandKey : Option String

/-- A task, with its notes. -/
structure TaskItem where
  id : String
  notes : Option String

/-- A task list and its tasks. -/
structure TaskListing where
  id : Option String
  tasks : List TaskItem

/-- What the provider answers to the reads of one lookup. -/
structure LookupAnswers where
  /-- The lookup got a service to work with. -/
  service : Bool
  search : List (Except GoogleError SearchPage)
  message : Except GoogleError MessageMetadata
  event : Except GoogleError (Option CalendarEvent)
  tasklists : Except GoogleError (List TaskListing)

/-- `get_header_value`. -/
def getHeaderValue (env : HandlerEnv) (headers : List (String × String)) (name : String) :
    Option String :=
  (headers.find? fun header ↦ env.unicode.lower header.1 = env.unicode.lower name).map Prod.snd

/-- The search loop of `_reconcile_gmail`, from the matches found so far on. A search that is cut
off is a read that failed. -/
def searchMatches : List (Except GoogleError SearchPage) → List String →
    Except GoogleError (List String)
  | [], _ => .error .other
  | .error e :: _, _ => .error e
  | .ok page :: rest, found =>
    let found := found ++ page.messages
    if found.length > 1 then .ok found
    else
      match page.nextPageToken with
      | none => .ok found
      | some token => if token = "" then .ok found else searchMatches rest found

/-- `ReconciliationResult` of a lookup that settles nothing. -/
def unsettled (errorCode : String) (evidence : Evidence) : ReconciliationResult :=
  ⟨.reconciliationRequired, none, some errorCode, evidence⟩

/-- `ReconciliationResult` of a lookup that found nothing. -/
def providerNotFound : ReconciliationResult :=
  ⟨.failed, none, some "provider_not_found", [("lookup", .text "not_found")]⟩

/-- The comparison of a found message with the command. -/
def messageMatches (env : HandlerEnv) (action : PendingAction) (payload : Json)
    (message : MessageMetadata) : Bool :=
  let marker := getHeaderValue env message.headers "X-OneBox-Command-Key"
  let actualMessageId :=
    String.join (split ((getHeaderValue env message.headers "Message-ID").getD ""))
  let recipients :=
    ((env.getaddresses ((getHeaderValue env message.headers "To").getD "")).filter (· ≠ "")).map
      env.unicode.casefold
  marker = some action.commandKey && actualMessageId = gmailMessageId env action.commandKey
    && (match (payload.get? "recipient_email").bind Json.str? with
      | none => false
      | some recipient => recipients.contains recipient)
    && (action.actionType ≠ .sendReply
      || message.threadId = (payload.get? "thread_id").bind Json.str?)

/-- `_reconcile_gmail`. -/
def reconcileGmail (env : HandlerEnv) (action : PendingAction) (payload : Json)
    (answers : LookupAnswers) : Except GoogleError ReconciliationResult :=
  match searchMatches answers.search [] with
  | .error e => .error e
  | .ok [] => .ok providerNotFound
  | .ok [_] =>
    match answers.message with
    | .error e => .error e
    | .ok message =>
      if messageMatches env action payload message then
        .ok ⟨.succeeded,
          some (.obj [("external_id", .str message.id), ("provider", .str "gmail")]), none,
          [("lookup", .text "exact_marker")]⟩
      else .ok (unsettled "gmail_marker_mismatch" [("lookup", .text "marker_mismatch")])
  | .ok found =>
    .ok (unsettled "gmail_marker_conflict" [("match_count", .number found.length)])

/-- `_reconcile_calendar`. -/
def reconcileCalendar (env : HandlerEnv) (action : PendingAction) (answers : LookupAnswers) :
    Except GoogleError ReconciliationResult :=
  let eventId := calendarEventId env action.commandKey
  let mismatch := unsettled "calendar_marker_mismatch" [("lookup", .text "marker_mismatch")]
  match answers.event with
  | .error e => .error e
  | .ok none => .ok mismatch
  | .ok (some event) =>
    if event.id = some eventId ∧ event.oneboxCommandKey = some action.commandKey then
      .ok ⟨.succeeded,
        some (.obj [("external_id", .str eventId), ("provider", .str "calendar")]), none,
        [("lookup", .text "exact_marker")]⟩
    else .ok mismatch

/-- `marker in (task.get("notes") or "")`. -/
def TaskItem.hasMarker (marker : String) (task : TaskItem) : Bool :=
  marker.toList <:+: (task.notes.getD "").toList

/-- `_scan_task_marker_sync`, once everything is read. An empty id is no id. -/
def scanTaskMarker (tasklists : List TaskListing) (marker : String) : List (TaskItem × String) :=
  tasklists.flatMap fun taskList ↦
    match taskList.id.filter (· ≠ "") with
    | none => []
    | some taskListId => (taskList.tasks.filter (TaskItem.hasMarker marker)).map (·, taskListId)

/-- `_reconcile_task`. -/
def reconcileTask (action : PendingAction) (answers : LookupAnswers) :
    Except GoogleError ReconciliationResult :=
  match answers.tasklists with
  | .error e => .error e
  | .ok tasklists =>
    -- No match can be delayed visibility, and several are unsafe: neither is a verdict.
    match scanTaskMarker tasklists (taskMarker action.commandKey) with
    | [(task, taskListId)] =>
      .ok ⟨.succeeded,
        some (.obj [("external_id", .str task.id), ("task_list_id", .str taskListId),
          ("provider", .str "tasks")]), none, [("lookup", .text "exact_marker")]⟩
    | [] => .ok (unsettled "task_marker_not_found" [("match_count", .number 0)])
    | found => .ok (unsettled "task_marker_not_unique" [("match_count", .number found.length)])

/-- The `except` clauses of `reconcile_action`. -/
def lookupFailure (actionType : ActionType) : GoogleError → ReconciliationResult
  | .rejected statusCode =>
    -- Gmail searches and Calendar gets have a provider-confirmed 404.
    if actionType ≠ .createTask ∧ statusCode = some 404 then providerNotFound
    else unsettled "reconciliation_lookup_rejected"
      [("status", match statusCode with
        | none => .none
        | some status => .number status)]
  | .other => unsettled "reconciliation_lookup_unavailable" [("lookup", .text "unavailable")]

/-- A lookup with a service, or the answer that there is none. -/
def withService (actionType : ActionType) (answers : LookupAnswers) (unavailable : String)
    (lookup : Except GoogleError ReconciliationResult) : ReconciliationResult :=
  if answers.service then
    match lookup with
    | .ok result => result
    | .error e => lookupFailure actionType e
  else unsettled unavailable [("lookup", .text "not_started")]

/-- `reconcile_action`. -/
def reconcileAction (env : HandlerEnv) (action : PendingAction) (answers : LookupAnswers) :
    ReconciliationResult :=
  match env.rules.canonicalizeActionPayload action.actionType action.payload with
  | none => unsettled "payload_invalid" [("lookup", .text "payload_invalid")]
  | some payload =>
    match action.actionType with
    | .sendEmail | .sendReply =>
      withService action.actionType answers "gmail_lookup_unavailable"
        (reconcileGmail env action payload answers)
    | .createEvent =>
      withService action.actionType answers "calendar_lookup_unavailable"
        (reconcileCalendar env action answers)
    | .createTask =>
      withService action.actionType answers "tasks_lookup_unavailable"
        (reconcileTask action answers)
    | .other _ => unsettled "unsupported_action" [("lookup", .text "invalid")]

/-! ### When a lookup reports that nothing was accepted -/

/-- The read was answered with a 404. -/
def isNotFound {α : Type} : Except GoogleError α → Bool
  | .error (.rejected (some 404)) => true
  | _ => false

/-- The provider denies the write: a complete search without a match, or a 404. -/
def LookupAnswers.denies (actionType : ActionType) (answers : LookupAnswers) : Bool :=
  match actionType with
  | .sendEmail | .sendReply =>
    match searchMatches answers.search [] with
    | .error e => isNotFound (.error e : Except GoogleError Unit)
    | .ok [] => true
    | .ok _ => isNotFound answers.message
  | .createEvent => isNotFound answers.event
  | .createTask | .other _ => false

/-- The provider shows a write with the command's markers. -/
def LookupAnswers.shows (action : PendingAction) (answers : LookupAnswers) : Bool :=
  match action.actionType with
  | .sendEmail | .sendReply =>
    match searchMatches answers.search [] with
    | .error _ => false
    | .ok found => !found.isEmpty
  | .createEvent =>
    match answers.event with
    | .ok (some _) => true
    | _ => false
  | .createTask =>
    match answers.tasklists with
    | .error _ => false
    | .ok tasklists => !(scanTaskMarker tasklists (taskMarker action.commandKey)).isEmpty
  | .other _ => false

theorem isNotFound_of_lookupFailure {actionType : ActionType} {e : GoogleError}
    (h : (lookupFailure actionType e).status = .failed) :
    actionType ≠ .createTask ∧ e = .rejected (some 404) := by
  cases e with
  | rejected statusCode =>
    simp only [lookupFailure] at h
    split at h
    · rename_i h404
      exact ⟨h404.1, by rw [h404.2]⟩
    · cases h
  | other => cases h

/-- A lookup ends in the verdict that nothing was accepted: it answers so, or with a 404. -/
def ReportsFailure (outcome : Except GoogleError ReconciliationResult) : Prop :=
  (∃ result, outcome = .ok result ∧ result.status = .failed) ∨
    outcome = .error (.rejected (some 404))

theorem reportsFailure_error_iff {e : GoogleError} :
    ReportsFailure (.error e) ↔ e = .rejected (some 404) := by
  refine ⟨?_, fun h ↦ Or.inr (congrArg Except.error h)⟩
  rintro (⟨result, hok, -⟩ | herr)
  · cases hok
  · exact Except.error.inj herr

theorem reportsFailure_ok_iff {result : ReconciliationResult} :
    ReportsFailure (.ok result) ↔ result.status = .failed := by
  refine ⟨?_, fun h ↦ Or.inl ⟨result, rfl, h⟩⟩
  rintro (⟨other, hok, hfailed⟩ | herr)
  · rwa [Except.ok.inj hok]
  · cases herr

theorem reportsFailure_of_withService {actionType : ActionType} {answers : LookupAnswers}
    {unavailable : String} {lookup : Except GoogleError ReconciliationResult}
    (h : (withService actionType answers unavailable lookup).status = .failed) :
    ReportsFailure lookup ∧
      (actionType = .createTask → ∃ result, lookup = .ok result ∧ result.status = .failed) := by
  unfold withService at h
  split at h
  · split at h
    · rename_i result
      exact ⟨reportsFailure_ok_iff.mpr h, fun _ ↦ ⟨result, rfl, h⟩⟩
    · obtain ⟨htype, rfl⟩ := isNotFound_of_lookupFailure h
      exact ⟨Or.inr rfl, fun htask ↦ absurd htask htype⟩
  · cases h

/-- What a Gmail lookup that reports a failure has seen. -/
theorem denies_of_reconcileGmail {env : HandlerEnv} {action : PendingAction} {payload : Json}
    {answers : LookupAnswers} (h : ReportsFailure (reconcileGmail env action payload answers)) :
    answers.denies .sendEmail = true := by
  rw [reconcileGmail] at h
  rw [LookupAnswers.denies]
  split at h
  · rename_i e he
    rw [he, reportsFailure_error_iff.mp h]
    rfl
  · rename_i he
    rw [he]
  · rename_i found he
    rw [he]
    split at h
    · rename_i e hmessage
      rw [hmessage, reportsFailure_error_iff.mp h]
      rfl
    · -- A message was read, so the result is a success or is unsettled.
      split at h
      · exact absurd (reportsFailure_ok_iff.mp h) nofun
      · exact absurd (reportsFailure_ok_iff.mp h) nofun
  · exact absurd (reportsFailure_ok_iff.mp h) nofun

theorem denies_of_reconcileCalendar {env : HandlerEnv} {action : PendingAction}
    {answers : LookupAnswers} (h : ReportsFailure (reconcileCalendar env action answers)) :
    answers.denies .createEvent = true := by
  rw [reconcileCalendar] at h
  rw [LookupAnswers.denies]
  split at h
  · rename_i e he
    rw [he, reportsFailure_error_iff.mp h]
    rfl
  · exact absurd (reportsFailure_ok_iff.mp h) nofun
  · split at h
    · exact absurd (reportsFailure_ok_iff.mp h) nofun
    · exact absurd (reportsFailure_ok_iff.mp h) nofun

/-- A task lookup never reports a failure. -/
theorem reconcileTask_ne_failed {action : PendingAction} {answers : LookupAnswers}
    {result : ReconciliationResult} (h : reconcileTask action answers = .ok result) :
    result.status ≠ .failed := by
  rw [reconcileTask] at h
  split at h
  · cases h
  · split at h <;> (cases h; exact fun hfailed ↦ by cases hfailed)

/-- **`failed` is the verdict on nothing but a denial.** -/
theorem denies_of_reconcileAction {env : HandlerEnv} {action : PendingAction}
    {answers : LookupAnswers} (h : (reconcileAction env action answers).status = .failed) :
    answers.denies action.actionType = true := by
  rw [reconcileAction] at h
  split at h
  · cases h
  · rename_i payload _
    split at h
    · rename_i htype
      rw [htype] at h ⊢
      exact denies_of_reconcileGmail (reportsFailure_of_withService h).1
    · rename_i htype
      rw [htype] at h ⊢
      exact denies_of_reconcileGmail (reportsFailure_of_withService h).1
    · rename_i htype
      rw [htype] at h ⊢
      exact denies_of_reconcileCalendar (reportsFailure_of_withService h).1
    · rename_i htype
      rw [htype] at h
      obtain ⟨result, hok, hfailed⟩ := (reportsFailure_of_withService h).2 rfl
      exact absurd hfailed (reconcileTask_ne_failed hok)
    · cases h

end Onebox.PendingActions
