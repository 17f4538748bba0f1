import Mathlib.Data.List.Infix
import Onebox.Mail.Mime
import Onebox.Python.NormalText

/-!
# A message as it is shown

`parse_message` on the detail that Gmail returns, and the summary of it that a page lists. What
`email.utils` makes of an address header and of a date header, and the time of day, are not looked
into.
-/

namespace Onebox.Mail

open Python

def maxHeaderValueChars : ℕ := 4096

/-- What the parsing of a message rests on. -/
structure MessageEnv extends MimeEnv where
  /-- The addresses of `email.utils.getaddresses([header])`. -/
  getaddresses : String → List String
  /-- `parsedate_to_datetime(value)`, in UTC where it names no zone, as `isoformat` writes it;
  `none` if it raises. -/
  headerDate : String → Option String
  /-- `datetime.fromtimestamp(int(value) / 1000, tz=timezone.utc).isoformat()`; `none` if it
  raises. -/
  internalDate : Json → Option String
  /-- `datetime.now(timezone.utc).isoformat()`. -/
  now : String

/-- The exceptions that leave `parse_message`. -/
inductive MessageError
  | mail (e : MailError)
  /-- `TypeError`. -/
  | type

/-! ## Headers -/

/-- `value[:MAX_HEADER_VALUE_CHARS]`. -/
def clip (value : String) : String := String.ofList (value.toList.take maxHeaderValueChars)

/-- The test of `parse_recipient_addresses`. -/
def isRecipient (address : String) : Bool :=
  let parts := rsplitOnce '@' address.toList
  address.toList.contains '@' && !parts.1.isEmpty && !parts.2.isEmpty &&
    !address.toList.any isSpace

/-- `parse_recipient_addresses`. -/
def parseRecipientAddresses (env : MessageEnv) (value : Option String) : List String :=
  match value with
  | none => []
  | some value => (env.getaddresses (clip value)).filter isRecipient

/-- `first_recipient_address`. -/
def firstRecipientAddress (env : MessageEnv) (value : Option String) (fallback : String) : String :=
  (parseRecipientAddresses env value).head?.getD fallback

/-- `parse_message_date`. -/
def parseMessageDate (env : MessageEnv) (value : Option String) (internalDate : Json) : String :=
  match value.bind fun value ↦ env.headerDate (clip value) with
  | some date => date
  | none => (env.internalDate internalDate).getD env.now

/-- One round of the loop over the headers; a later header comes first. -/
def addHeader (unicode : UnicodeData) (headers : List (String × String)) (header : Json) :
    List (String × String) :=
  match header.get? "name", header.get? "value" with
  | some (.str name), some (.str value) => (unicode.lower name, clip value) :: headers
  | _, _ => headers

/-- `text in value`; `none` is the `TypeError`. -/
def contains? (text : String) : Json → Option Bool
  | .arr items => some (items.any fun item ↦ item.str? = some text)
  | .obj fields => some (fields.any fun field ↦ field.1 = text)
  | .str s => some (decide (text.toList <:+: s.toList))
  | .null | .bool _ | .num _ => none

/-! ## Messages -/

/-- What `parse_message` returns. -/
structure EmailDetail where
  id : Json
  threadId : Json
  subject : String
  sender : String
  toAddresses : List String
  cc : List String
  snippet : String
  body : String
  sanitizedHtml : Option String
  isRead : Bool
  isStarred : Bool
  labels : Json
  date : String

/-- What `to_email_list_item` returns. -/
structure EmailListItem where
  id : Json
  threadId : Json
  subject : String
  sender : String
  toAddresses : List String
  snippet : String
  isRead : Bool
  isStarred : Bool
  labels : Json
  date : String

/-- `parse_message` from the headers and the content on. -/
def emailDetail (env : MessageEnv) (msg : Json) (headers : List (String × String))
    (content : MailContent) : Except MessageError EmailDetail :=
  let snippet := (((msg.get? "snippet").bind Json.str?).map clip).getD ""
  let sender := headers.lookup "from"
  let fallback :=
    match sender with
    | some sender => if sender = "" then "Unknown Sender" else sender
    | none => "Unknown Sender"
  let labels := (msg.get? "labelIds").getD (.arr [])
  match contains? "UNREAD" labels, contains? "STARRED" labels with
  | some isUnread, some isStarred =>
    .ok
      { id := (msg.get? "id").getD .null
        threadId := (msg.get? "threadId").getD .null
        subject := (headers.lookup "subject").getD "(No Subject)"
        sender := firstRecipientAddress env sender fallback
        toAddresses := parseRecipientAddresses env (headers.lookup "to")
        cc := parseRecipientAddresses env (headers.lookup "cc")
        snippet := snippet
        body := if content.body = "" then snippet else content.body
        sanitizedHtml := content.sanitizedHtml
        isRead := !isUnread
        isStarred := isStarred
        labels := labels
        date := parseMessageDate env (headers.lookup "date")
          ((msg.get? "internalDate").getD .null) }
  | _, _ => .error .type

/-- `parse_message`. -/
def parseMessage (env : MessageEnv) (msg : Json) : Except MessageError EmailDetail :=
  let payload := ((msg.get? "payload").filter Json.isDict).getD (.obj [])
  match ((payload.get? "headers").getD (.arr [])).iter? with
  | none => .error .type
  | some headers =>
    match extractMailContent env.toMimeEnv payload with
    | .error e => .error (.mail e)
    | .ok content => emailDetail env msg (headers.foldl (addHeader env.unicode) []) content

/-- `to_email_list_item`. -/
def toEmailListItem (email : EmailDetail) : EmailListItem where
  id := email.id
  threadId := email.threadId
  subject := email.subject
  sender := email.sender
  toAddresses := email.toAddresses
  snippet := email.snippet
  isRead := email.isRead
  isStarred := email.isStarred
  labels := email.labels
  date := email.date

/-- A message keeps its id. -/
theorem id_of_parseMessage {env : MessageEnv} {msg : Json} {email : EmailDetail}
    (h : parseMessage env msg = .ok email) : email.id = (msg.get? "id").getD .null := by
  rw [parseMessage] at h
  split at h
  · cases h
  · split at h
    · cases h
    · rw [emailDetail] at h
      split at h
      · obtain rfl := Except.ok.inj h
        rfl
      · cases h

end Onebox.Mail
