import Onebox.Cache.MailCache
import Onebox.Mail.Message
import Onebox.Python.JsonRead
import Onebox.Python.Lists

/-!
# A page of messages

`fetch_message_page` lists ids and asks for the details in one batch; what the batch has left open
it asks for once more, one by one. The details come in through callbacks, under the id that each of
them carries, from any number of attempts of the batch; a thread that was given up may still make
callbacks while the page is put together. The routes cache the pages that come of it.
-/

namespace Onebox.Mail

open Python Cache

/-! ## Requests -/

/-- `HTTPException`. -/
structure HttpException where
  status : ℕ
  detail : String
  deriving DecidableEq

/-- Any other exception. -/
inductive OtherException
  /-- `HttpError`. -/
  | httpError (status : ℕ)
  | other

/-- How `execute_gmail_request` ends. -/
inductive GmailOutcome
  | returned (value : Json)
  | http (e : HttpException)
  | raised (e : OtherException)

/-- The arguments of a callback of the batch. -/
structure BatchCallback where
  requestId : String
  response : Json
  raised : Bool

/-- What the requests of one call of `fetch_message_page` meet. -/
structure MessageGmail where
  /-- The listing, for its parameters. -/
  listing : List (String × Json) → GmailOutcome
  /-- The callbacks that each attempt of the batch makes. -/
  attempts : List (List BatchCallback)
  batchEnd : GmailOutcome
  /-- The callbacks that a given up attempt makes before the details are looked at for the `n`th
  time. -/
  late : ℕ → List BatchCallback
  /-- The request for a single message. -/
  detail : String → GmailOutcome

/-- How `fetch_message_page` raises. -/
inductive PageError
  | http (e : HttpException)
  | raised (e : OtherException)

/-- "Gmail returned an incomplete message page." -/
def incompletePage : PageError :=
  .http ⟨502, "Gmail returned an incomplete message page. Please try again."⟩

/-- The arguments of `fetch_message_page`. -/
structure PageRequest where
  userId : String
  limit : ℕ
  pageToken : Option String := none
  labelIds : List String := []
  query : Option String := none

/-- `EmailPage`. -/
structure EmailPage where
  emails : List EmailListItem
  nextPageToken : Json

/-- `request_params`. -/
def PageRequest.params (request : PageRequest) : List (String × Json) :=
  [("userId", .str request.userId), ("maxResults", .num request.limit)] ++
    ((request.pageToken.filter (· ≠ "")).toList.map fun token ↦ ("pageToken", .str token)) ++
    (if request.labelIds = [] then []
      else [("labelIds", .arr (request.labelIds.map Json.str))]) ++
    (request.query.filter (· ≠ "")).toList.map fun query ↦ ("q", .str query)

/-! ## Details -/

/-- `parse_batch_response`, on `message_details`. -/
def parseBatchResponse (details : List (String × Json)) (callback : BatchCallback) :
    List (String × Json) :=
  if callback.raised || !callback.response.isDict then details
  else
    match callback.response.get? "id" with
    | some (.str messageId) => insertField messageId callback.response details
    | _ => details

/-- The id of a listed message, if it is a string. -/
def metadataId (metadata : Json) : Option String := (metadata.get? "id").bind Json.str?

/-- The loop over the messages that the batch has left open. -/
def fillDetails (gmail : MessageGmail) : ℕ → List String → List (String × Json) →
    Except PageError (List (String × Json))
  | _, [], details => .ok details
  | look, messageId :: messageIds, details =>
    let details := (gmail.late look).foldl parseBatchResponse details
    if (details.lookup messageId).isSome then fillDetails gmail (look + 1) messageIds details
    else
      match gmail.detail messageId with
      | .http e => .error (.http e)
      | .raised e => .error (.raised e)
      | .returned detail =>
        if metadataId detail = some messageId then
          fillDetails gmail (look + 1) messageIds (insertField messageId detail details)
        else .error incompletePage

/-- The list of `emails`. -/
def listEmails (env : MessageEnv) (gmail : MessageGmail) : ℕ → List String →
    List (String × Json) → Except PageError (List EmailListItem)
  | _, [], _ => .ok []
  | look, messageId :: messageIds, details =>
    let details := (gmail.late look).foldl parseBatchResponse details
    match details.lookup messageId with
    -- `KeyError`
    | none => .error (.raised .other)
    | some detail =>
      match parseMessage env detail with
      | .error _ => .error (.raised .other)
      | .ok email =>
        match listEmails env gmail (look + 1) messageIds details with
        | .error e => .error e
        | .ok emails => .ok (toEmailListItem email :: emails)

/-- `fetch_message_page` from the ids on. -/
def fetchDetails (env : MessageEnv) (gmail : MessageGmail) (messageIds : List String) :
    Except PageError (List EmailListItem) :=
  -- `batch.add` raises if it has a request of that id.
  if ¬messageIds.Nodup then .error (.raised .other)
  else
    match gmail.batchEnd with
    | .raised e => .error (.raised e)
    | .returned _ | .http _ =>
      match fillDetails gmail 0 messageIds (gmail.attempts.flatten.foldl parseBatchResponse []) with
      | .error e => .error e
      | .ok details => listEmails env gmail messageIds.length messageIds details

/-- `fetch_message_page`. -/
def fetchMessagePage (env : MessageEnv) (gmail : MessageGmail) (request : PageRequest) :
    Except PageError EmailPage :=
  match gmail.listing request.params with
  | .http e => .error (.http e)
  | .raised e => .error (.raised e)
  | .returned response =>
    if response.isDict then
      let nextPageToken := (response.get? "nextPageToken").getD .null
      match response.get? "messages" with
      | some (.arr (first :: rest)) =>
        match ((first :: rest).take request.limit).mapM metadataId with
        | none => .error incompletePage
        | some messageIds =>
          match fetchDetails env gmail messageIds with
          | .error e => .error e
          | .ok emails => .ok ⟨emails, nextPageToken⟩
      | _ => .ok ⟨[], nextPageToken⟩
    else .error (.raised .other)

/-! ## Routes -/

def mailPageCacheTtlSeconds : ℕ := 60

/-- A call of `cache_set`. -/
structure CacheWrite where
  key : CacheKey
  page : EmailPage
  ttl : ℕ

/-- What a route returns. -/
inductive RouteAnswer
  | cached (data : Json)
  | page (page : EmailPage)

/-- What the routes make of an exception. -/
def pageHttpException : PageError → HttpException
  | .http e => e
  | .raised (.httpError status) => ⟨status, "Gmail request failed. Please try again."⟩
  | .raised .other => ⟨500, "Mail operation failed. Please try again."⟩

/-- `search_emails`. -/
def searchEmails (env : MessageEnv) (gmail : MessageGmail) (request : PageRequest) :
    Except PageError EmailPage :=
  match fetchMessagePage env gmail request with
  | .ok page => .ok page
  | .error e => .error (.http (pageHttpException e))

/-- A route that reads through the cache: what it answers, and what it writes to the cache. -/
def cachedPage (cacheGet : CacheKey → Option Json) (key : CacheKey)
    (fetch : Except PageError EmailPage) : Except HttpException RouteAnswer × List CacheWrite :=
  match (cacheGet key).filter Json.isDict with
  | some data => (.ok (.cached data), [])
  | none =>
    match fetch with
    | .ok page => (.ok (.page page), [⟨key, page, mailPageCacheTtlSeconds⟩])
    | .error e => (.error (pageHttpException e), [])

/-- What the routes have around them: `hashlib.sha256(text.encode()).hexdigest()`, the generation of
the user's cache as Redis answers it, and what `cache_get` returns. -/
structure RouteEnv where
  sha256Hexdigest : String → String
  generation : RedisReply (Option ℕ)
  cacheGet : CacheKey → Option Json

/-- `label_map`. -/
def labelMap : List (String × List String) :=
  [("inbox", ["INBOX"]), ("sent", ["SENT"]), ("spam", ["SPAM"]), ("trash", ["TRASH"]),
    ("starred", ["STARRED"]), ("all", [])]

/-- `(page_token or "first")`, hashed. -/
def RouteEnv.tokenHash (route : RouteEnv) (pageToken : Option String) : String :=
  route.sha256Hexdigest ((pageToken.filter (· ≠ "")).getD "first")

/-- `fetch_emails`. -/
def fetchEmails (env : MessageEnv) (route : RouteEnv) (gmail : MessageGmail) (folder : String)
    (limit : ℕ) (pageToken : Option String) :
    Except HttpException RouteAnswer × List CacheWrite :=
  match labelMap.lookup folder with
  | none => (.error ⟨400, "Invalid folder"⟩, [])
  | some labelIds =>
    let ns := "page:" ++ folder ++ ":" ++ toString limit ++ ":" ++ route.tokenHash pageToken
    cachedPage route.cacheGet (userMailCacheKey route.generation ns)
      (fetchMessagePage env gmail
        { userId := "me", limit := limit, pageToken := pageToken, labelIds := labelIds })

/-- `search_endpoint`. -/
def searchEndpoint (env : MessageEnv) (route : RouteEnv) (gmail : MessageGmail) (q : String)
    (limit : ℕ) (pageToken : Option String) :
    Except HttpException RouteAnswer × List CacheWrite :=
  let ns := "search:" ++ route.sha256Hexdigest q ++ ":" ++ toString limit ++ ":" ++
    route.tokenHash pageToken
  cachedPage route.cacheGet (userMailCacheKey route.generation ns)
    (searchEmails env gmail
      { userId := "me", limit := limit, pageToken := pageToken, query := some q })

end Onebox.Mail
