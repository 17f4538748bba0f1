import Onebox.Mail.MessagePage

/-!
# A page is complete or an error

Whatever comes in, and whenever, is put under the id that it carries. So the details hold, under
each id, something that Gmail has given for it; the page is put together from them once all
requested ids are there.
-/

namespace Onebox.Mail

open Python Cache

variable {env : MessageEnv} {gmail : MessageGmail} {request : PageRequest}
  {details : List (String × Json)} {messageIds : List String}

/-! ## Details -/

/-- Gmail has returned the value for a single message or has passed it to a callback. -/
def MessageGmail.Gave (gmail : MessageGmail) (detail : Json) : Prop :=
  (∃ messageId, gmail.detail messageId = .returned detail) ∨
    ∃ callback : BatchCallback, callback.response = detail ∧ callback.raised = false ∧
      ((∃ attempt ∈ gmail.attempts, callback ∈ attempt) ∨ ∃ look, callback ∈ gmail.late look)

/-- Under each id is something that Gmail has given for it. -/
def Filed (gmail : MessageGmail) (details : List (String × Json)) : Prop :=
  ∀ messageId detail, details.lookup messageId = some detail →
    metadataId detail = some messageId ∧ gmail.Gave detail

theorem Filed.insert (h : Filed gmail details) {messageId : String} {detail : Json}
    (hid : metadataId detail = some messageId) (hgave : gmail.Gave detail) :
    Filed gmail (insertField messageId detail details) := by
  intro name found hfound
  rw [lookup_insertField] at hfound
  by_cases hname : name = messageId
  · rw [if_pos hname] at hfound
    obtain rfl := Option.some.inj hfound
    exact ⟨hname ▸ hid, hgave⟩
  · rw [if_neg hname] at hfound
    exact h name found hfound

/-- A callback files its response, or nothing; nothing is lost. -/
theorem parseBatchResponse_cases (details : List (String × Json)) (callback : BatchCallback) :
    parseBatchResponse details callback = details ∨
      ∃ messageId, callback.raised = false ∧ metadataId callback.response = some messageId ∧
        parseBatchResponse details callback =
          insertField messageId callback.response details := by
  rw [parseBatchResponse]
  split
  · exact .inl rfl
  · rename_i hkept
    split
    · rename_i messageId hid
      refine .inr ⟨messageId, ?_, ?_, rfl⟩
      · rw [Bool.or_eq_true, not_or] at hkept
        exact Bool.eq_false_iff.mpr hkept.1
      · rw [metadataId, hid]
        rfl
    · exact .inl rfl

theorem Filed.callbacks (h : Filed gmail details) {callbacks : List BatchCallback}
    (hgiven : ∀ callback ∈ callbacks, callback.raised = false → gmail.Gave callback.response) :
    Filed gmail (callbacks.foldl parseBatchResponse details) := by
  induction callbacks generalizing details with
  | nil => exact h
  | cons callback callbacks ih =>
    refine ih ?_ fun later hlater ↦ hgiven later (List.mem_cons_of_mem _ hlater)
    rcases parseBatchResponse_cases details callback with hsame | ⟨messageId, hraised, hid, heq⟩
    · exact hsame.symm ▸ h
    · exact heq.symm ▸ h.insert hid (hgiven callback List.mem_cons_self hraised)

theorem Filed.late (h : Filed gmail details) (look : ℕ) :
    Filed gmail ((gmail.late look).foldl parseBatchResponse details) :=
  h.callbacks fun callback hmem hraised ↦ .inr ⟨callback, rfl, hraised, .inr ⟨look, hmem⟩⟩

theorem filed_attempts (gmail : MessageGmail) :
    Filed gmail (gmail.attempts.flatten.foldl parseBatchResponse []) := by
  have hnil : Filed gmail [] := fun _ _ hfound ↦ absurd hfound (Option.some_ne_none _).symm
  refine hnil.callbacks fun callback hmem hraised ↦ .inr ⟨callback, rfl, hraised, .inl ?_⟩
  exact List.mem_flatten.mp hmem

theorem Filed.fillDetails {look : ℕ} {filled : List (String × Json)} (h : Filed gmail details)
    (hfill : fillDetails gmail look messageIds details = .ok filled) : Filed gmail filled := by
  induction messageIds generalizing look details with
  | nil =>
    obtain rfl := Except.ok.inj hfill
    exact h
  | cons messageId messageIds ih =>
    rw [Mail.fillDetails] at hfill
    have hlate := h.late look
    split at hfill
    · exact ih hlate hfill
    · split at hfill
      · cases hfill
      · cases hfill
      · rename_i detail hdetail
        split at hfill
        · rename_i hid
          exact ih (hlate.insert hid (.inl ⟨messageId, hdetail⟩)) hfill
        · cases hfill

/-! ## Pages -/

/-- The item of a page for an id: from a detail that Gmail has given for that id. -/
def ItemFor (env : MessageEnv) (gmail : MessageGmail) (messageId : String) (item : EmailListItem) :
    Prop :=
  ∃ detail email, gmail.Gave detail ∧ detail.get? "id" = some (.str messageId) ∧
    parseMessage env detail = .ok email ∧ item = toEmailListItem email ∧ item.id = .str messageId

theorem get?_id_of_metadataId {detail : Json} {messageId : String}
    (h : metadataId detail = some messageId) : detail.get? "id" = some (.str messageId) := by
  obtain ⟨value, hvalue, hstr⟩ := Option.bind_eq_some_iff.mp h
  rw [hvalue, Json.str?_eq_some_iff.mp hstr]

theorem Filed.listEmails {look : ℕ} {emails : List EmailListItem} (h : Filed gmail details)
    (hlist : listEmails env gmail look messageIds details = .ok emails) :
    List.Forall₂ (ItemFor env gmail) messageIds emails := by
  induction messageIds generalizing look details emails with
  | nil =>
    obtain rfl := Except.ok.inj hlist
    exact .nil
  | cons messageId messageIds ih =>
    rw [Mail.listEmails] at hlist
    have hlate := h.late look
    split at hlist
    · cases hlist
    · rename_i detail hdetail
      split at hlist
      · cases hlist
      · rename_i email hparse
        split at hlist
        · cases hlist
        · rename_i rest hrest
          obtain rfl := Except.ok.inj hlist
          obtain ⟨hid, hgave⟩ := hlate messageId detail hdetail
          have hget := get?_id_of_metadataId hid
          refine .cons ⟨detail, email, hgave, hget, hparse, rfl, ?_⟩ (ih hlate hrest)
          change email.id = _
          rw [id_of_parseMessage hparse, hget]
          rfl

theorem forall₂_fetchDetails {emails : List EmailListItem}
    (h : fetchDetails env gmail messageIds = .ok emails) :
    List.Forall₂ (ItemFor env gmail) messageIds emails := by
  rw [fetchDetails] at h
  split at h
  · cases h
  · split at h
    · cases h
    all_goals
      split at h
      · cases h
      · rename_i hfill
        exact ((filed_attempts gmail).fillDetails hfill).listEmails h

/-- The ids that a listing shows, where they are strings. -/
def listedIds (response : Json) : List (Option String) :=
  match response.get? "messages" with
  | some (.arr messages) => messages.map metadataId
  | _ => []

/-- A page is what Gmail lists: an item for each of the first `limit` ids, in their order, and the
token of the next page. -/
def CompletePage (env : MessageEnv) (gmail : MessageGmail) (request : PageRequest)
    (page : EmailPage) : Prop :=
  ∃ response messageIds, gmail.listing request.params = .returned response ∧
    (listedIds response).take request.limit = messageIds.map some ∧
    page.nextPageToken = (response.get? "nextPageToken").getD .null ∧
    List.Forall₂ (ItemFor env gmail) messageIds page.emails

theorem listedIds_of_not_cons {response : Json}
    (h : ∀ first rest, response.get? "messages" = some (.arr (first :: rest)) → False) :
    listedIds response = [] := by
  rw [listedIds]
  split
  · rename_i messages hmessages
    rcases messages with _ | ⟨first, rest⟩
    · rfl
    · exact absurd hmessages (h first rest)
  · rfl

theorem completePage_of_fetchMessagePage {page : EmailPage}
    (h : fetchMessagePage env gmail request = .ok page) :
    CompletePage env gmail request page := by
  rw [fetchMessagePage] at h
  split at h
  · cases h
  · cases h
  · rename_i response hlisting
    split at h
    · dsimp only at h
      split at h
      · rename_i first rest hmessages
        split at h
        · cases h
        · rename_i messageIds hids
          split at h
          · cases h
          · rename_i emails hemails
            obtain rfl := Except.ok.inj h
            refine ⟨response, messageIds, hlisting, ?_, rfl, forall₂_fetchDetails hemails⟩
            rw [listedIds, hmessages, ← List.map_take]
            exact map_eq_of_mapM hids
      · rename_i hnone
        obtain rfl := Except.ok.inj h
        refine ⟨response, [], hlisting, ?_, rfl, .nil⟩
        rw [listedIds_of_not_cons hnone, List.take_nil, List.map_nil]
    · cases h

/-! ## Routes -/

/-- What a route does on top of a fetch: if it raises it has written nothing, and it writes nothing
but a page that the fetch has returned. -/
def WritesOnly (fetch : Except PageError EmailPage)
    (answer : Except HttpException RouteAnswer × List CacheWrite) : Prop :=
  (∀ e, fetch = .error e → answer.2 = []) ∧ (∀ e, answer.1 = .error e → answer.2 = []) ∧
    ∀ write ∈ answer.2, fetch = .ok write.page

theorem writesOnly_cachedPage (cacheGet : CacheKey → Option Json) (key : CacheKey)
    (fetch : Except PageError EmailPage) : WritesOnly fetch (cachedPage cacheGet key fetch) := by
  unfold cachedPage
  split
  · exact ⟨fun _ _ ↦ rfl, fun _ _ ↦ rfl, nofun⟩
  · rcases fetch with e | page
    · exact ⟨fun _ _ ↦ rfl, fun _ _ ↦ rfl, nofun⟩
    · refine ⟨nofun, nofun, fun write hmem ↦ ?_⟩
      rw [List.mem_singleton.mp hmem]

/-- Both routes write complete pages only, and nothing if they raise. -/
structure CachesCompletePages (env : MessageEnv) (gmail : MessageGmail)
    (answer : Except HttpException RouteAnswer × List CacheWrite) (request : PageRequest) :
    Prop where
  raising : ∀ e, fetchMessagePage env gmail request = .error e → answer.2 = []
  raised : ∀ e, answer.1 = .error e → answer.2 = []
  complete : ∀ write ∈ answer.2, CompletePage env gmail request write.page

theorem cachesCompletePages_of_writesOnly
    {answer : Except HttpException RouteAnswer × List CacheWrite}
    {fetch : Except PageError EmailPage} (h : WritesOnly fetch answer)
    (hfails : ∀ e, fetchMessagePage env gmail request = .error e → ∃ e', fetch = .error e')
    (hsame : ∀ page, fetch = .ok page → fetchMessagePage env gmail request = .ok page) :
    CachesCompletePages env gmail answer request := by
  obtain ⟨hfailed, hraised, hwrites⟩ := h
  refine ⟨fun e he ↦ ?_, hraised, fun write hmem ↦ ?_⟩
  · obtain ⟨e', he'⟩ := hfails e he
    exact hfailed e' he'
  · exact completePage_of_fetchMessagePage (hsame _ (hwrites write hmem))

theorem searchEmails_eq_ok_iff {page : EmailPage} :
    searchEmails env gmail request = .ok page ↔ fetchMessagePage env gmail request = .ok page := by
  rw [searchEmails]
  split
  · rename_i page' hfetch
    rw [hfetch]
  · rename_i e hfetch
    rw [hfetch]
    exact ⟨nofun, nofun⟩

/-- **A mail page is complete or an error**, and an error is not cached. -/
theorem mailPagesComplete (env : MessageEnv) (gmail : MessageGmail) :
    (∀ request page, fetchMessagePage env gmail request = .ok page →
      CompletePage env gmail request page) ∧
    ∀ (route : RouteEnv) (limit : ℕ) (pageToken : Option String),
      (∀ folder labelIds, labelMap.lookup folder = some labelIds →
        CachesCompletePages env gmail (fetchEmails env route gmail folder limit pageToken)
          { userId := "me", limit := limit, pageToken := pageToken, labelIds := labelIds }) ∧
      (∀ folder, labelMap.lookup folder = none →
        (fetchEmails env route gmail folder limit pageToken).2 = []) ∧
      ∀ q, CachesCompletePages env gmail (searchEndpoint env route gmail q limit pageToken)
        { userId := "me", limit := limit, pageToken := pageToken, query := some q } := by
  refine ⟨fun request page ↦ completePage_of_fetchMessagePage, fun route limit pageToken ↦
    ⟨fun folder labelIds hfolder ↦ ?_, fun folder hfolder ↦ ?_, fun q ↦ ?_⟩⟩
  · rw [fetchEmails, hfolder]
    exact cachesCompletePages_of_writesOnly (writesOnly_cachedPage _ _ _)
      (fun e he ↦ ⟨e, he⟩) fun page hpage ↦ hpage
  · rw [fetchEmails, hfolder]
  · refine cachesCompletePages_of_writesOnly (writesOnly_cachedPage _ _ _) (fun e he ↦ ?_)
      fun page ↦ searchEmails_eq_ok_iff.mp
    refine ⟨.http (pageHttpException e), ?_⟩
    rw [searchEmails, he]

/-- A message with an id and nothing else. -/
def bareMessage (messageId : String) : Json := .obj [("id", .str messageId)]

/-- A header is its only address, and no date can be read. -/
def plainMessageEnv : MessageEnv where
  unicode := .ascii
  htmlParser := plainMarkup
  getaddresses header := [header]
  headerDate _ := none
  internalDate _ := none
  now := "2024-01-01T00:00:00+00:00"

/-- The batch fails after it has failed for the second message. -/
def failingBatch : MessageGmail where
  listing _ := .returned (.obj [("messages", .arr [bareMessage "one", bareMessage "two"]),
    ("nextPageToken", .str "next")])
  attempts := [[⟨"one", bareMessage "one", false⟩, ⟨"two", .null, true⟩]]
  batchEnd := .http ⟨503, "Gmail is temporarily unavailable. Please try again."⟩
  late _ := []
  detail messageId := .returned (bareMessage messageId)

theorem extractMailContent_empty (env : MimeEnv) :
    extractMailContent env (.obj []) = .ok { body := "" } := by
  rw [extractMailContent, collectBodies, walkParts_leaf rfl rfl]
  rfl

theorem parseMessage_bareMessage (messageId : String) :
    parseMessage plainMessageEnv (bareMessage messageId) =
      match extractMailContent plainMessageEnv.toMimeEnv (.obj []) with
      | .error e => .error (.mail e)
      | .ok content => emailDetail plainMessageEnv (bareMessage messageId) [] content := rfl

theorem exists_parseMessage_bareMessage (messageId : String) :
    ∃ email, parseMessage plainMessageEnv (bareMessage messageId) = .ok email := by
  have hparse := parseMessage_bareMessage messageId
  rw [extractMailContent_empty plainMessageEnv.toMimeEnv] at hparse
  exact ⟨_, hparse⟩

theorem fetchMessagePage_failingBatch :
    fetchMessagePage plainMessageEnv failingBatch { userId := "me", limit := 2 } =
      match fetchDetails plainMessageEnv failingBatch ["one", "two"] with
      | .error e => .error e
      | .ok emails => .ok ⟨emails, .str "next"⟩ := rfl

/-- The second message is asked for again. -/
theorem mailPagesComplete_failingBatch : ∃ page,
    fetchMessagePage plainMessageEnv failingBatch { userId := "me", limit := 2 } = .ok page ∧
      CompletePage plainMessageEnv failingBatch { userId := "me", limit := 2 } page ∧
      page.emails.map EmailListItem.id = [.str "one", .str "two"] := by
  obtain ⟨one, hone⟩ := exists_parseMessage_bareMessage "one"
  obtain ⟨two, htwo⟩ := exists_parseMessage_bareMessage "two"
  have hdetails : fetchDetails plainMessageEnv failingBatch ["one", "two"] =
      listEmails plainMessageEnv failingBatch 2 ["one", "two"]
        [("one", bareMessage "one"), ("two", bareMessage "two")] := rfl
  have hlist : listEmails plainMessageEnv failingBatch 2 ["one", "two"]
      [("one", bareMessage "one"), ("two", bareMessage "two")] =
        .ok [toEmailListItem one, toEmailListItem two] := by
    simp [listEmails, failingBatch, List.lookup_cons, hone, htwo]
  have hfetch : fetchMessagePage plainMessageEnv failingBatch { userId := "me", limit := 2 } =
      .ok ⟨[toEmailListItem one, toEmailListItem two], .str "next"⟩ := by
    rw [fetchMessagePage_failingBatch, hdetails, hlist]
  refine ⟨_, hfetch, (mailPagesComplete plainMessageEnv failingBatch).1 _ _ hfetch, ?_⟩
  rw [List.map_cons, List.map_cons, List.map_nil]
  change [one.id, two.id] = _
  rw [id_of_parseMessage hone, id_of_parseMessage htwo]
  rfl

end Onebox.Mail
