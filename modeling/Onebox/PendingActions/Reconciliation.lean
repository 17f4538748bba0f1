import Onebox.Paging.Reading
import Onebox.PendingActions.Handlers

/-!
# Verdicts on whole listings

A lookup reads its provider page by page. A Gmail search stops as soon as it has two matches, and a
scan for a task goes through the pages of all task lists and then through the pages of each. The
verdicts are those that the whole listings call for.
-/

namespace Onebox.PendingActions

open Python Paging

/-! ## Pages of task lists and of tasks -/

/-- A page of task lists or of tasks. -/
structure ItemsPage (α : Type) where
  items : List α
  nextPageToken : Option String

/-- A task list, with what the provider answers to the reads of its tasks. -/
structure TasklistEntry where
  id : Option String
  tasks : List (Except GoogleError (ItemsPage TaskItem))

/-- The loop of `_list_all_tasklists_sync` and `_list_all_tasks_sync`, from the items found so far
on. A listing that is cut off is a read that failed. -/
def listAll {α : Type} : List (Except GoogleError (ItemsPage α)) → List α →
    Except GoogleError (List α)
  | [], _ => .error .other
  | .error e :: _, _ => .error e
  | .ok page :: rest, found =>
    let found := found ++ page.items
    match page.nextPageToken with
    | none => .ok found
    | some token => if token = "" then .ok found else listAll rest found

/-- `_list_all_tasklists_sync`. -/
def listAllTasklists (answers : List (Except GoogleError (ItemsPage TasklistEntry))) :
    Except GoogleError (List TasklistEntry) :=
  listAll answers []

/-- `_list_all_tasks_sync`. -/
def listAllTasks (answers : List (Except GoogleError (ItemsPage TaskItem))) :
    Except GoogleError (List TaskItem) :=
  listAll answers []

/-- The loop of `_scan_task_marker_sync` over the task lists, from the matches found so far on. -/
def scanTasklists (marker : String) : List TasklistEntry → List (TaskItem × String) →
    Except GoogleError (List (TaskItem × String))
  | [], found => .ok found
  | taskList :: rest, found =>
    match taskList.id.filter (· ≠ "") with
    | none => scanTasklists marker rest found
    | some taskListId =>
      match listAllTasks taskList.tasks with
      | .error e => .error e
      | .ok tasks =>
        scanTasklists marker rest
          (found ++ (tasks.filter (TaskItem.hasMarker marker)).map (·, taskListId))

/-- `_scan_task_marker_sync`. -/
def scanTaskMarkerPages (answers : List (Except GoogleError (ItemsPage TasklistEntry)))
    (marker : String) : Except GoogleError (List (TaskItem × String)) :=
  match listAllTasklists answers with
  | .error e => .error e
  | .ok tasklists => scanTasklists marker tasklists []

/-! ## The lookup, page by page -/

/-- What the provider answers to the reads of one lookup, page by page. -/
structure LookupPages where
  /-- The lookup got a service to work with. -/
  service : Bool
  search : List (Except GoogleError SearchPage)
  message : Except GoogleError MessageMetadata
  event : Except GoogleError (Option CalendarEvent)
  tasklists : List (Except GoogleError (ItemsPage TasklistEntry))

/-- A task list with all its tasks. They are not read if it has no id. -/
def readTaskListing (taskList : TasklistEntry) : Except GoogleError TaskListing :=
  match taskList.id.filter (· ≠ "") with
  | none => .ok ⟨taskList.id, []⟩
  | some _ => (listAllTasks taskList.tasks).map (⟨taskList.id, ·⟩)

/-- All task lists with all their tasks. -/
def readTaskListings (answers : List (Except GoogleError (ItemsPage TasklistEntry))) :
    Except GoogleError (List TaskListing) :=
  match listAllTasklists answers with
  | .error e => .error e
  | .ok tasklists => tasklists.mapM readTaskListing

/-- The answers once everything is read. -/
def LookupPages.answers (pages : LookupPages) : LookupAnswers where
  service := pages.service
  search := pages.search
  message := pages.message
  event := pages.event
  tasklists := readTaskListings pages.tasklists

/-! ## The listings -/

def SearchPage.hasNext (page : SearchPage) : Bool := page.nextPageToken.any (· ≠ "")

def ItemsPage.hasNext {α : Type} (page : ItemsPage α) : Bool := page.nextPageToken.any (· ≠ "")

section

variable {α : Type} {found all : List α} {marker : String}
  {matched matched' : List (TaskItem × String)}
  {taskList : TasklistEntry} {tasklists : List TasklistEntry}

/-- Two matches are enough for a search. -/
def twoMatches (found : List String) : Bool := 1 < found.length

theorem searchMatches_eq_readUntil (answers : List (Except GoogleError SearchPage))
    (found : List String) :
    searchMatches answers found =
      readUntil SearchPage.messages SearchPage.hasNext twoMatches .other answers found := by
  induction answers generalizing found with
  | nil => rfl
  | cons answer rest ih =>
    cases answer with
    | error e => rfl
    | ok page =>
      rw [searchMatches, readUntil, twoMatches, SearchPage.hasNext]
      simp only [decide_eq_true_eq]
      split
      · rfl
      · cases htoken : page.nextPageToken with
        | none => rfl
        | some token =>
          by_cases hempty : token = ""
          · simp [hempty]
          · simp [hempty, ih]

theorem listAll_eq_readUntil (answers : List (Except GoogleError (ItemsPage α))) (found : List α) :
    listAll answers found =
      readUntil ItemsPage.items ItemsPage.hasNext (fun _ ↦ false) .other answers found := by
  induction answers generalizing found with
  | nil => rfl
  | cons answer rest ih =>
    cases answer with
    | error e => rfl
    | ok page =>
      rw [listAll, readUntil, if_neg Bool.false_ne_true, ItemsPage.hasNext]
      cases htoken : page.nextPageToken with
      | none => rfl
      | some token =>
        by_cases hempty : token = ""
        · simp [hempty]
        · simp [hempty, ih]

/-- A listing is read to its end. -/
theorem listAll_eq_ok_iff {answers : List (Except GoogleError (ItemsPage α))} :
    listAll answers [] = .ok all ↔
      ∃ pages, Complete ItemsPage.hasNext answers pages ∧ all = pages.flatMap ItemsPage.items := by
  have hnever : ∀ found later : List α, (fun _ : List α ↦ false) found = true →
      (fun _ : List α ↦ false) (found ++ later) = true := nofun
  rw [listAll_eq_readUntil, readUntil_eq_ok_iff hnever rfl]
  rfl

/-- The marked tasks of a list, with the id of the list. -/
def markedTasks (marker : String) (tasks : TasklistEntry → List TaskItem)
    (taskList : TasklistEntry) : List (TaskItem × String) :=
  match taskList.id.filter (· ≠ "") with
  | none => []
  | some taskListId => ((tasks taskList).filter (TaskItem.hasMarker marker)).map (·, taskListId)

/-- The tasks of a list that can be read. -/
def tasksOf (taskList : TasklistEntry) : List TaskItem :=
  match listAllTasks taskList.tasks with
  | .error _ => []
  | .ok tasks => tasks

theorem tasksOf_of_ok {tasks : List TaskItem} (h : listAllTasks taskList.tasks = .ok tasks) :
    tasksOf taskList = tasks := by
  rw [tasksOf, h]

/-- The list has no id, or its tasks can be read. -/
def Readable (taskList : TasklistEntry) : Prop :=
  (taskList.id.filter (· ≠ "")).isSome → listAllTasks taskList.tasks = .ok (tasksOf taskList)

/-- The scan succeeds if every list with an id can be read to its end. -/
theorem scanTasklists_eq_ok_iff :
    scanTasklists marker tasklists matched = .ok matched' ↔
      (∀ taskList ∈ tasklists, Readable taskList) ∧
        matched' = matched ++ tasklists.flatMap (markedTasks marker tasksOf) := by
  induction tasklists generalizing matched with
  | nil =>
    rw [scanTasklists, List.flatMap_nil, List.append_nil]
    exact ⟨fun h ↦ ⟨nofun, (Except.ok.inj h).symm⟩, fun h ↦ congrArg Except.ok h.2.symm⟩
  | cons taskList rest ih =>
    rw [scanTasklists, List.forall_mem_cons, List.flatMap_cons, Readable, markedTasks]
    cases taskList.id.filter (· ≠ "") with
    | none =>
      simp only [Option.isSome_none, Bool.false_eq_true, false_imp_iff, true_and, List.nil_append]
      exact ih
    | some taskListId =>
      rw [tasksOf]
      simp only [Option.isSome_some, true_imp_iff]
      cases listAllTasks taskList.tasks with
      | error e => simp
      | ok tasks =>
        simp only [true_and]
        rw [ih, List.append_assoc]

/-- **What a scan returns**: the marked tasks on all pages of all task lists with an id. -/
theorem scanTaskMarkerPages_eq_ok_iff
    {answers : List (Except GoogleError (ItemsPage TasklistEntry))} :
    scanTaskMarkerPages answers marker = .ok matched ↔
      ∃ listPages, Complete ItemsPage.hasNext answers listPages ∧
        (∀ taskList ∈ listPages.flatMap ItemsPage.items, Readable taskList) ∧
        matched = (listPages.flatMap ItemsPage.items).flatMap (markedTasks marker tasksOf) := by
  rw [scanTaskMarkerPages]
  cases hlists : listAllTasklists answers with
  | error e =>
    refine iff_of_false nofun ?_
    rintro ⟨listPages, hcomplete, -⟩
    have hread : listAllTasklists answers = .ok (listPages.flatMap ItemsPage.items) :=
      listAll_eq_ok_iff.mpr ⟨listPages, hcomplete, rfl⟩
    rw [hlists] at hread
    cases hread
  | ok tasklists =>
    obtain ⟨listPages, hcomplete, rfl⟩ := listAll_eq_ok_iff.mp hlists
    dsimp only
    rw [scanTasklists_eq_ok_iff, List.nil_append]
    constructor
    · exact fun h ↦ ⟨listPages, hcomplete, h⟩
    · rintro ⟨listPages', hcomplete', h⟩
      rwa [hcomplete.unique hcomplete'] at h

/-! ## Reading everything first -/

theorem scanTaskMarker_cons (listing : TaskListing) (listings : List TaskListing) :
    scanTaskMarker (listing :: listings) marker =
      scanTaskMarker [listing] marker ++ scanTaskMarker listings marker := by
  rw [scanTaskMarker, ← List.singleton_append, List.flatMap_append]
  rfl

theorem scanTasklists_eq (tasklists : List TasklistEntry) (matched : List (TaskItem × String)) :
    scanTasklists marker tasklists matched =
      match tasklists.mapM readTaskListing with
      | .error e => .error e
      | .ok listings => .ok (matched ++ scanTaskMarker listings marker) := by
  induction tasklists generalizing matched with
  | nil =>
    rw [scanTasklists, List.mapM_nil]
    exact congrArg Except.ok (List.append_nil matched).symm
  | cons taskList rest ih =>
    rw [scanTasklists, List.mapM_cons, readTaskListing]
    cases hid : taskList.id.filter (· ≠ "") with
    | none =>
      dsimp only
      rw [ih]
      cases rest.mapM readTaskListing with
      | error e => rfl
      | ok listings =>
        refine congrArg Except.ok (congrArg (matched ++ ·) ?_)
        have hskip : scanTaskMarker [⟨taskList.id, []⟩] marker = [] := by
          rw [scanTaskMarker, List.flatMap_singleton, hid]
        rw [scanTaskMarker_cons, hskip, List.nil_append]
    | some taskListId =>
      dsimp only
      cases listAllTasks taskList.tasks with
      | error e => rfl
      | ok tasks =>
        dsimp only
        rw [ih]
        cases rest.mapM readTaskListing with
        | error e => rfl
        | ok listings =>
          have hread : scanTaskMarker [⟨taskList.id, tasks⟩] marker =
              (tasks.filter (TaskItem.hasMarker marker)).map (·, taskListId) := by
            rw [scanTaskMarker, List.flatMap_singleton, hid]
          refine congrArg Except.ok ?_
          rw [scanTaskMarker_cons, hread, List.append_assoc]

/-- **Scanning page by page is scanning what is read.** -/
theorem scanTaskMarkerPages_eq (answers : List (Except GoogleError (ItemsPage TasklistEntry))) :
    scanTaskMarkerPages answers marker =
      match readTaskListings answers with
      | .error e => .error e
      | .ok listings => .ok (scanTaskMarker listings marker) := by
  rw [scanTaskMarkerPages, readTaskListings]
  cases listAllTasklists answers with
  | error e => rfl
  | ok tasklists => exact scanTasklists_eq tasklists []

end

/-! ## The verdicts -/

/-- The lookup gets as far as its first read. -/
structure Started (env : HandlerEnv) (action : PendingAction) (pages : LookupPages)
    (payload : Json) : Prop where
  canonical : env.rules.canonicalizeActionPayload action.actionType action.payload = some payload
  service : pages.service = true

/-- All pages of the search together have these matches. -/
def Found (pages : LookupPages) (matched : List String) : Prop :=
  ∃ searchPages, Complete SearchPage.hasNext pages.search searchPages ∧
    matched = searchPages.flatMap SearchPage.messages

/-- A page of the search is answered with a 404, before there are two matches. -/
def SearchNotFound (pages : LookupPages) : Prop :=
  ∃ searchPages later, Past SearchPage.hasNext pages.search searchPages
      (.error (.rejected (some 404)) :: later) ∧
    (searchPages.flatMap SearchPage.messages).length ≤ 1

/-- The message carries what the command derives, and goes where the payload says. -/
structure Carries (env : HandlerEnv) (action : PendingAction) (payload : Json)
    (message : MessageMetadata) : Prop where
  marker : getHeaderValue env message.headers "X-OneBox-Command-Key" = some action.commandKey
  messageId : String.join (split ((getHeaderValue env message.headers "Message-ID").getD "")) =
    gmailMessageId env action.commandKey
  recipient : ∃ address ∈ env.getaddresses ((getHeaderValue env message.headers "To").getD ""),
    address ≠ "" ∧ payload.get? "recipient_email" = some (.str (env.unicode.casefold address))
  thread : action.actionType = .sendReply →
    message.threadId = (payload.get? "thread_id").bind Json.str?

structure GmailVerdict (env : HandlerEnv) (action : PendingAction) (pages : LookupPages)
    (verdict : FinalStatus) : Prop where
  succeeded_iff : verdict = .succeeded ↔ ∃ payload messageId message,
    Started env action pages payload ∧ Found pages [messageId] ∧ pages.message = .ok message ∧
      Carries env action payload message
  failed_iff : verdict = .failed ↔ ∃ payload, Started env action pages payload ∧
    (Found pages [] ∨ SearchNotFound pages ∨
      ∃ messageId, Found pages [messageId] ∧ pages.message = .error (.rejected (some 404)))
  conflict : ∀ matched, Found pages matched → 1 < matched.length → verdict = .reconciliationRequired
  otherwise : verdict ≠ .succeeded → verdict ≠ .failed → verdict = .reconciliationRequired

structure TaskVerdict (env : HandlerEnv) (action : PendingAction) (pages : LookupPages)
    (verdict : FinalStatus) : Prop where
  scan : ∀ marker matched, scanTaskMarkerPages pages.tasklists marker = .ok matched ↔
    ∃ listPages, Complete ItemsPage.hasNext pages.tasklists listPages ∧
      ∃ tasks : TasklistEntry → List TaskItem,
        (∀ taskList ∈ listPages.flatMap ItemsPage.items, (taskList.id.filter (· ≠ "")).isSome →
          ∃ taskPages, Complete ItemsPage.hasNext taskList.tasks taskPages ∧
            tasks taskList = taskPages.flatMap ItemsPage.items) ∧
        matched = (listPages.flatMap ItemsPage.items).flatMap (markedTasks marker tasks)
  succeeded_iff : verdict = .succeeded ↔ ∃ payload found, Started env action pages payload ∧
    scanTaskMarkerPages pages.tasklists (taskMarker action.commandKey) = .ok [found]
  ne_failed : verdict ≠ .failed

section

variable {env : HandlerEnv} {action : PendingAction} {pages : LookupPages} {payload : Json}
  {answers : LookupAnswers} {actionType : ActionType} {unavailable : String}
  {lookup : Except GoogleError ReconciliationResult} {message : MessageMetadata}
  {matched : List String}

theorem twoMatches_eq_false_iff (found : List String) :
    twoMatches found = false ↔ found.length ≤ 1 := by
  rw [twoMatches, decide_eq_false_iff_not]
  exact Nat.not_lt

/-- More matches do not undo a conflict. -/
theorem twoMatches_append (found later : List String) (h : twoMatches found = true) :
    twoMatches (found ++ later) = true := by
  rw [twoMatches, decide_eq_true_eq] at h ⊢
  rw [List.length_append]
  exact Nat.lt_add_right _ h

theorem found_iff (hfew : matched.length ≤ 1) :
    Found pages matched ↔ searchMatches pages.search [] = .ok matched := by
  have hstop := (twoMatches_eq_false_iff matched).mpr hfew
  rw [searchMatches_eq_readUntil, readUntil_eq_ok_iff twoMatches_append hstop]
  rfl

theorem found_nil_iff : Found pages [] ↔ searchMatches pages.search [] = .ok [] :=
  found_iff (Nat.zero_le 1)

theorem found_singleton_iff {messageId : String} :
    Found pages [messageId] ↔ searchMatches pages.search [] = .ok [messageId] :=
  found_iff (Nat.le_refl 1)

theorem searchNotFound_iff :
    SearchNotFound pages ↔ searchMatches pages.search [] = .error (.rejected (some 404)) := by
  rw [searchMatches_eq_readUntil, readUntil_eq_error_iff twoMatches_append rfl, SearchNotFound]
  simp only [List.nil_append, twoMatches_eq_false_iff]
  constructor
  · rintro ⟨searchPages, later, hpast, hfew⟩
    exact ⟨searchPages, _, hpast, hfew, Or.inr ⟨later, rfl⟩⟩
  · rintro ⟨searchPages, rest, hpast, hfew, ⟨-, hother⟩ | ⟨later, rfl⟩⟩
    · cases hother
    · exact ⟨searchPages, later, hpast, hfew⟩

theorem messageMatches_iff : messageMatches env action payload message = true ↔
    Carries env action payload message := by
  rw [messageMatches]
  simp only [Bool.and_eq_true, Bool.or_eq_true, decide_eq_true_eq, ne_eq]
  constructor
  · rintro ⟨⟨⟨hmarker, hmessageId⟩, hrecipient⟩, hthread⟩
    refine ⟨hmarker, hmessageId, ?_, fun h ↦ hthread.resolve_left fun hne ↦ hne h⟩
    split at hrecipient
    · cases hrecipient
    · rename_i recipient hread
      rw [List.contains_iff_mem, List.mem_map] at hrecipient
      obtain ⟨address, hmem, rfl⟩ := hrecipient
      obtain ⟨hmem, hne⟩ := List.mem_filter.mp hmem
      refine ⟨address, hmem, of_decide_eq_true hne, ?_⟩
      obtain ⟨held, hget, hheld⟩ := Option.bind_eq_some_iff.mp hread
      rw [hget, Json.str?_eq_some_iff.mp hheld]
  · rintro ⟨hmarker, hmessageId, ⟨address, hmem, hne, hrecipient⟩, hthread⟩
    refine ⟨⟨⟨hmarker, hmessageId⟩, ?_⟩, or_iff_not_imp_left.mpr fun h ↦ hthread (not_not.mp h)⟩
    rw [hrecipient]
    exact List.contains_iff_mem.mpr
      (List.mem_map_of_mem (List.mem_filter.mpr ⟨hmem, decide_eq_true hne⟩))

/-- The lookup proves that the command was accepted. -/
def Succeeds (lookup : Except GoogleError ReconciliationResult) : Prop :=
  ∃ result, lookup = .ok result ∧ result.status = .succeeded

theorem lookupFailure_status_ne_succeeded (e : GoogleError) :
    (lookupFailure actionType e).status ≠ .succeeded := by
  cases e with
  | rejected statusCode =>
    simp only [lookupFailure]
    split
    · rintro ⟨⟩
    · rintro ⟨⟩
  | other => rintro ⟨⟩

theorem withService_succeeded_iff :
    (withService actionType answers unavailable lookup).status = .succeeded ↔
      answers.service = true ∧ Succeeds lookup := by
  rw [withService.eq_def, Succeeds]
  split
  · rename_i hservice
    cases lookup with
    | ok result => simp [hservice]
    | error e => simp [lookupFailure_status_ne_succeeded]
  · rename_i hservice
    simp [hservice, unsettled]

theorem lookupFailure_failed_iff (e : GoogleError) :
    (lookupFailure actionType e).status = .failed ↔
      actionType ≠ .createTask ∧ e = .rejected (some 404) := by
  refine ⟨isNotFound_of_lookupFailure, ?_⟩
  rintro ⟨htype, rfl⟩
  simp only [lookupFailure, if_pos, htype, ne_eq, not_false_eq_true, and_self, providerNotFound]

theorem withService_failed_iff (htype : actionType ≠ .createTask) :
    (withService actionType answers unavailable lookup).status = .failed ↔
      answers.service = true ∧ ReportsFailure lookup := by
  rw [withService.eq_def]
  split
  · rename_i hservice
    cases lookup with
    | ok result => simp [hservice, reportsFailure_ok_iff]
    | error e => simp [hservice, lookupFailure_failed_iff, reportsFailure_error_iff, htype]
  · rename_i hservice
    simp [hservice, unsettled]

theorem succeeds_reconcileGmail_iff :
    Succeeds (reconcileGmail env action payload answers) ↔
      ∃ messageId message, searchMatches answers.search [] = .ok [messageId] ∧
        answers.message = .ok message ∧ messageMatches env action payload message = true := by
  rw [reconcileGmail, Succeeds]
  split
  · rename_i hsearch
    simp [hsearch]
  · rename_i hsearch
    simp [hsearch, providerNotFound]
  · rename_i messageId hsearch
    rw [hsearch]
    cases answers.message with
    | error e => simp
    | ok message =>
      dsimp only
      split
      · rename_i hmatches
        simp [hmatches]
      · rename_i hmatches
        simp [hmatches, unsettled]
  · rename_i found hnil hone hsearch
    refine iff_of_false ?_ ?_
    · rintro ⟨result, hresult, hsucceeded⟩
      rw [← Except.ok.inj hresult] at hsucceeded
      cases hsucceeded
    · rintro ⟨messageId, message, hsearch', -⟩
      exact hone messageId (Except.ok.inj (hsearch.symm.trans hsearch'))

theorem reportsFailure_reconcileGmail_iff :
    ReportsFailure (reconcileGmail env action payload answers) ↔
      searchMatches answers.search [] = .ok [] ∨
        searchMatches answers.search [] = .error (.rejected (some 404)) ∨
        ∃ messageId, searchMatches answers.search [] = .ok [messageId] ∧
          answers.message = .error (.rejected (some 404)) := by
  rw [reconcileGmail]
  split
  · rename_i hsearch
    simp [hsearch, reportsFailure_error_iff]
  · rename_i hsearch
    simp [hsearch, reportsFailure_ok_iff, providerNotFound]
  · rename_i messageId hsearch
    rw [hsearch]
    cases answers.message with
    | error e => simp [reportsFailure_error_iff]
    | ok message =>
      dsimp only
      split
      · simp [reportsFailure_ok_iff]
      · simp [reportsFailure_ok_iff, unsettled]
  · rename_i found hnil hone hsearch
    refine iff_of_false ?_ ?_
    · intro h
      cases reportsFailure_ok_iff.mp h
    · rintro (hsearch' | hsearch' | ⟨messageId, hsearch', -⟩)
      · exact hnil (Except.ok.inj (hsearch.symm.trans hsearch'))
      · cases hsearch.symm.trans hsearch'
      · exact hone messageId (Except.ok.inj (hsearch.symm.trans hsearch'))

theorem succeeds_reconcileTask_iff :
    Succeeds (reconcileTask action pages.answers) ↔
      ∃ found,
        scanTaskMarkerPages pages.tasklists (taskMarker action.commandKey) = .ok [found] := by
  rw [reconcileTask, Succeeds, scanTaskMarkerPages_eq, LookupPages.answers]
  dsimp only
  cases readTaskListings pages.tasklists with
  | error e => simp
  | ok listings =>
    dsimp only
    split
    · rename_i task taskListId hscan
      simp [hscan]
    · rename_i hscan
      simp [hscan, unsettled]
    · rename_i hone hnil
      refine iff_of_false ?_ ?_
      · rintro ⟨result, hresult, hsucceeded⟩
        rw [← Except.ok.inj hresult] at hsucceeded
        cases hsucceeded
      · rintro ⟨⟨task, taskListId⟩, hfound⟩
        exact hone task taskListId (Except.ok.inj hfound)

/-- Where the payload is refused, nothing is looked up. -/
theorem status_reconcileAction_of_none (answers : LookupAnswers)
    (h : env.rules.canonicalizeActionPayload action.actionType action.payload = none) :
    (reconcileAction env action answers).status = .reconciliationRequired := by
  rw [reconcileAction, h]
  rfl

theorem Found.unique {matched' : List String} (h : Found pages matched)
    (h' : Found pages matched') : matched' = matched := by
  obtain ⟨searchPages, hcomplete, rfl⟩ := h
  obtain ⟨searchPages', hcomplete', rfl⟩ := h'
  rw [hcomplete.unique hcomplete']

theorem Found.not_searchNotFound (h : Found pages matched) : ¬SearchNotFound pages := by
  obtain ⟨searchPages, hcomplete, -⟩ := h
  rintro ⟨searchPages', later, hpast, -⟩
  obtain ⟨rest, hrest⟩ := hcomplete.of_past hpast
  cases hrest

theorem eq_reconciliationRequired {verdict : FinalStatus} (hsucceeded : verdict ≠ .succeeded)
    (hfailed : verdict ≠ .failed) : verdict = .reconciliationRequired := by
  cases verdict with
  | succeeded => exact absurd rfl hsucceeded
  | failed => exact absurd rfl hfailed
  | reconciliationRequired => rfl

/-- The lookup that a Gmail action gets. -/
theorem reconcileAction_gmail (answers : LookupAnswers)
    (htype : action.actionType = .sendEmail ∨ action.actionType = .sendReply)
    (h : env.rules.canonicalizeActionPayload action.actionType action.payload = some payload) :
    reconcileAction env action answers =
      withService action.actionType answers "gmail_lookup_unavailable"
        (reconcileGmail env action payload answers) := by
  rw [reconcileAction, h]
  obtain htype | htype := htype
  · rw [htype]
  · rw [htype]

theorem reconcileAction_task (answers : LookupAnswers) (htype : action.actionType = .createTask)
    (h : env.rules.canonicalizeActionPayload action.actionType action.payload = some payload) :
    reconcileAction env action answers =
      withService action.actionType answers "tasks_lookup_unavailable"
        (reconcileTask action answers) := by
  rw [reconcileAction, h, htype]

theorem succeeded_iff_of_gmail
    (htype : action.actionType = .sendEmail ∨ action.actionType = .sendReply) :
    (reconcileAction env action pages.answers).status = .succeeded ↔
      ∃ payload messageId message, Started env action pages payload ∧ Found pages [messageId] ∧
        pages.message = .ok message ∧ Carries env action payload message := by
  constructor
  · intro h
    cases hcanonical : env.rules.canonicalizeActionPayload action.actionType action.payload with
    | none =>
      rw [status_reconcileAction_of_none _ hcanonical] at h
      cases h
    | some payload =>
      rw [reconcileAction_gmail _ htype hcanonical, withService_succeeded_iff,
        succeeds_reconcileGmail_iff] at h
      obtain ⟨hservice, messageId, message, hsearch, hmessage, hmatches⟩ := h
      exact ⟨payload, messageId, message, ⟨hcanonical, hservice⟩, found_singleton_iff.mpr hsearch,
        hmessage, messageMatches_iff.mp hmatches⟩
  · rintro ⟨payload, messageId, message, ⟨hcanonical, hservice⟩, hfound, hmessage, hcarries⟩
    rw [reconcileAction_gmail _ htype hcanonical, withService_succeeded_iff,
      succeeds_reconcileGmail_iff]
    exact ⟨hservice, messageId, message, found_singleton_iff.mp hfound, hmessage,
      messageMatches_iff.mpr hcarries⟩

theorem failed_iff_of_gmail
    (htype : action.actionType = .sendEmail ∨ action.actionType = .sendReply) :
    (reconcileAction env action pages.answers).status = .failed ↔
      ∃ payload, Started env action pages payload ∧ (Found pages [] ∨ SearchNotFound pages ∨
        ∃ messageId, Found pages [messageId] ∧
          pages.message = .error (.rejected (some 404))) := by
  have htask : action.actionType ≠ .createTask := by
    obtain htype | htype := htype
    · rw [htype]
      nofun
    · rw [htype]
      nofun
  constructor
  · intro h
    cases hcanonical : env.rules.canonicalizeActionPayload action.actionType action.payload with
    | none =>
      rw [status_reconcileAction_of_none _ hcanonical] at h
      cases h
    | some payload =>
      rw [reconcileAction_gmail _ htype hcanonical, withService_failed_iff htask,
        reportsFailure_reconcileGmail_iff] at h
      obtain ⟨hservice, hempty | hrejected | ⟨messageId, hsearch, hmessage⟩⟩ := h
      · exact ⟨payload, ⟨hcanonical, hservice⟩, Or.inl (found_nil_iff.mpr hempty)⟩
      · exact ⟨payload, ⟨hcanonical, hservice⟩, Or.inr (Or.inl (searchNotFound_iff.mpr hrejected))⟩
      · exact ⟨payload, ⟨hcanonical, hservice⟩,
          Or.inr (Or.inr ⟨messageId, found_singleton_iff.mpr hsearch, hmessage⟩)⟩
  · rintro ⟨payload, ⟨hcanonical, hservice⟩, hverdict⟩
    rw [reconcileAction_gmail _ htype hcanonical, withService_failed_iff htask,
      reportsFailure_reconcileGmail_iff]
    refine ⟨hservice, ?_⟩
    obtain hempty | hrejected | ⟨messageId, hfound, hmessage⟩ := hverdict
    · exact Or.inl (found_nil_iff.mp hempty)
    · exact Or.inr (Or.inl (searchNotFound_iff.mp hrejected))
    · exact Or.inr (Or.inr ⟨messageId, found_singleton_iff.mp hfound, hmessage⟩)

theorem gmailVerdict_reconcileAction
    (htype : action.actionType = .sendEmail ∨ action.actionType = .sendReply) :
    GmailVerdict env action pages (reconcileAction env action pages.answers).status := by
  refine ⟨succeeded_iff_of_gmail htype, failed_iff_of_gmail htype, fun matched hfound hmany ↦ ?_,
    eq_reconciliationRequired⟩
  -- Several matches in all are neither one match nor none.
  have hne : ∀ few : List String, few.length ≤ 1 → ¬Found pages few := by
    intro few hfew h
    rw [hfound.unique h] at hfew
    exact Nat.not_lt.mpr hfew hmany
  refine eq_reconciliationRequired (fun h ↦ ?_) fun h ↦ ?_
  · obtain ⟨-, messageId, -, -, hone, -⟩ := (succeeded_iff_of_gmail htype).mp h
    exact hne [messageId] (Nat.le_refl 1) hone
  · obtain ⟨-, -, hnone | hrejected | ⟨messageId, hone, -⟩⟩ := (failed_iff_of_gmail htype).mp h
    · exact hne [] (Nat.zero_le 1) hnone
    · exact hfound.not_searchNotFound hrejected
    · exact hne [messageId] (Nat.le_refl 1) hone

theorem taskVerdict_reconcileAction (htype : action.actionType = .createTask) :
    TaskVerdict env action pages (reconcileAction env action pages.answers).status where
  scan marker matched := by
    rw [scanTaskMarkerPages_eq_ok_iff]
    constructor
    · rintro ⟨listPages, hcomplete, hreadable, hmatched⟩
      refine ⟨listPages, hcomplete, tasksOf, fun taskList hmem hid ↦ ?_, hmatched⟩
      exact listAll_eq_ok_iff.mp (hreadable taskList hmem hid)
    · rintro ⟨listPages, hcomplete, tasks, htasks, hmatched⟩
      have hread : ∀ taskList ∈ listPages.flatMap ItemsPage.items,
          (taskList.id.filter (· ≠ "")).isSome →
            listAllTasks taskList.tasks = .ok (tasks taskList) :=
        fun taskList hmem hid ↦ listAll_eq_ok_iff.mpr (htasks taskList hmem hid)
      refine ⟨listPages, hcomplete, fun taskList hmem hid ↦ ?_, ?_⟩
      · rw [tasksOf_of_ok (hread taskList hmem hid)]
        exact hread taskList hmem hid
      · rw [hmatched]
        refine List.flatMap_congr fun taskList hmem ↦ ?_
        rw [markedTasks, markedTasks]
        cases hid : taskList.id.filter (· ≠ "") with
        | none => rfl
        | some taskListId => rw [tasksOf_of_ok (hread taskList hmem (by rw [hid]; rfl))]
  succeeded_iff := by
    constructor
    · intro h
      cases hcanonical : env.rules.canonicalizeActionPayload action.actionType action.payload with
      | none =>
        rw [status_reconcileAction_of_none _ hcanonical] at h
        cases h
      | some payload =>
        rw [reconcileAction_task _ htype hcanonical, withService_succeeded_iff,
          succeeds_reconcileTask_iff] at h
        obtain ⟨hservice, found, hscan⟩ := h
        exact ⟨payload, found, ⟨hcanonical, hservice⟩, hscan⟩
    · rintro ⟨payload, found, ⟨hcanonical, hservice⟩, hscan⟩
      rw [reconcileAction_task _ htype hcanonical, withService_succeeded_iff,
        succeeds_reconcileTask_iff]
      exact ⟨hservice, found, hscan⟩
  ne_failed h := by
    have hdenies := denies_of_reconcileAction h
    rw [htype] at hdenies
    cases hdenies

end

/-- The verdict on an action follows the whole listings. -/
structure FollowsListings (env : HandlerEnv) (action : PendingAction) (pages : LookupPages)
    (verdict : FinalStatus) : Prop where
  gmail : action.actionType = .sendEmail ∨ action.actionType = .sendReply →
    GmailVerdict env action pages verdict
  tasks : action.actionType = .createTask → TaskVerdict env action pages verdict

/-- **Verdicts follow the whole listings.** -/
theorem followsListings_reconcileAction (env : HandlerEnv) (action : PendingAction)
    (pages : LookupPages) :
    FollowsListings env action pages (reconcileAction env action pages.answers).status :=
  ⟨gmailVerdict_reconcileAction, taskVerdict_reconcileAction⟩

end Onebox.PendingActions
