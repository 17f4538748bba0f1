import Mathlib.Data.List.Infix
import Onebox.Mail.BodyBound
import Onebox.Mail.Message
import Onebox.Mail.Walks
import Onebox.Python.Lists

/-!
# What triage reads of a mail

`extract_email_content` takes bounded fields out of an untrusted message, or answers with an error;
`should_process_email` decides on them whether the message is analysed. Of the headers of one name
the first counts, while `parse_message` goes by the last.
-/

namespace Onebox.Mail

open Python

def maxInboundHeaders : ℕ := 200

def maxInboundHeaderNameChars : ℕ := 128

def maxInboundLabels : ℕ := 100

def maxInboundLabelChars : ℕ := 128

/-- `_TRIAGE_HEADERS`. -/
def triageHeaders : List String := ["subject", "from", "to", "date"]

/-- What `extract_email_content` returns of a well-formed message. -/
structure EmailContent where
  id : Json
  threadId : Json
  subject : String
  sender : String
  recipient : String
  date : String
  labels : List String
  body : String

/-- The dictionary. -/
def EmailContent.json (content : EmailContent) : Json :=
  .obj [("id", content.id), ("threadId", content.threadId), ("subject", .str content.subject),
    ("from", .str content.sender), ("to", .str content.recipient), ("date", .str content.date),
    ("labels", .arr (content.labels.map .str)), ("body", .str content.body)]

/-! ## Extraction -/

/-- `dict.setdefault`. -/
def setdefault (dict : List (String × String)) (key value : String) : List (String × String) :=
  if (dict.lookup key).isSome then dict else dict ++ [(key, value)]

/-- Name and value of an item of the headers, if they are strings within the bounds. -/
def headerFields (item : Json) : Option (String × String) :=
  match (item.get? "name").bind Json.str? with
  | none => none
  | some name =>
    match (item.get? "value").bind Json.str? with
    | none => none
    | some value =>
      if maxInboundHeaderNameChars < name.length ∨ maxHeaderValueChars < value.length then none
      else some (name, value)

/-- One round of the loop over the headers. -/
def readHeader (unicode : UnicodeData) (headers : List (String × String)) (item : Json) :
    Except ValueError (List (String × String)) :=
  match headerFields item with
  | none => .error ⟨"invalid header"⟩
  | some (name, value) =>
    if unicode.casefold name ∈ triageHeaders then
      .ok (setdefault headers (unicode.casefold name) value)
    else .ok headers

/-- `isinstance(label, str) and 0 < len(label) <= MAX_INBOUND_LABEL_CHARS`. -/
def readLabel (label : Json) : Option String :=
  label.str?.filter fun label ↦ 0 < label.length ∧ label.length ≤ maxInboundLabelChars

/-- The labels of a message. -/
def readLabels (labels : Json) : Except ValueError (List String) :=
  match labels with
  | .arr items =>
    if maxInboundLabels < items.length then .error ⟨"invalid labels"⟩
    else
      match items.mapM readLabel with
      | none => .error ⟨"invalid labels"⟩
      | some labels => .ok labels
  | _ => .error ⟨"invalid labels"⟩

/-- The end of `extract_email_content`, from the headers on. -/
def readFields (unicode : UnicodeData) (emailData payload : Json) (rawHeaders : List Json) :
    Except ValueError EmailContent := do
  let headers ← rawHeaders.foldlM (readHeader unicode) []
  let labels ← readLabels ((emailData.get? "labelIds").getD (.arr []))
  let body ← getEmailBody unicode payload
  return {
    id := (emailData.get? "id").getD (.str "")
    threadId := (emailData.get? "threadId").getD (.str "")
    subject := (headers.lookup "subject").getD "(No Subject)"
    sender := (headers.lookup "from").getD "Unknown"
    recipient := (headers.lookup "to").getD "Unknown"
    date := (headers.lookup "date").getD "Unknown"
    labels := labels
    body := body }

/-- The `try` of `extract_email_content`. -/
def readContent (unicode : UnicodeData) (emailData : Json) : Except ValueError EmailContent :=
  if emailData.isDict = false then .error ⟨"message must be an object"⟩
  else
    match emailData.get? "payload" with
    | none => .error ⟨"missing payload"⟩
    | some payload =>
      if payload.isDict = false then .error ⟨"missing payload"⟩
      else
        match payload.get? "headers" with
        | some (.arr rawHeaders) =>
          if maxInboundHeaders < rawHeaders.length then .error ⟨"missing or oversized headers"⟩
          else readFields unicode emailData payload rawHeaders
        | _ => .error ⟨"missing or oversized headers"⟩

/-- `extract_email_content`. -/
def extractEmailContent (unicode : UnicodeData) (emailData : Json) : Json :=
  match readContent unicode emailData with
  | .ok content => content.json
  | .error _ => .obj [("error", .str "Invalid message payload")]

/-! ## The skip policy -/

/-- `str(value or "")` of a string, or of nothing. -/
def textOf (value : Option Json) : String := (value.bind Json.str?).getD ""

/-- `no[-_.]?reply`, at the head of a text. -/
def noReplyHere : List Char → Bool
  | 'n' :: 'o' :: rest =>
    "reply".toList.isPrefixOf rest ||
      ((rest.head?.any fun c ↦ c = '-' || c = '_' || c = '.') &&
        "reply".toList.isPrefixOf rest.tail)
  | _ => false

/-- `re.search(r"no[-_.]?reply|donotreply|noreply", text)`. -/
def isNoReply (text : String) : Bool :=
  text.toList.tails.any fun rest ↦
    noReplyHere rest || "donotreply".toList.isPrefixOf rest || "noreply".toList.isPrefixOf rest

def spamLabels : List String := ["SPAM", "CATEGORY_PROMOTIONS", "CATEGORY_FORUMS"]

/-- The words of a subject that mark bulk mail. -/
def bulkKeywords : List String := ["unsubscribe", "newsletter", "promotion", "discount"]

/-- `should_process_email`, with `str.upper` as an argument. -/
def shouldProcessEmail (unicode : UnicodeData) (upper : String → String) (emailContent : Json) :
    Bool :=
  if (emailContent.get? "error").isSome then false
  else
    let fromField := unicode.lower (textOf (emailContent.get? "from"))
    let subject := unicode.lower (textOf (emailContent.get? "subject"))
    let labels := match emailContent.get? "labels" with
      | some (.arr items) => items
      | _ => []
    if isNoReply fromField then false
    else if labels.any fun label ↦ label.str?.any fun label ↦ upper label ∈ spamLabels then false
    else !bulkKeywords.any fun keyword ↦ decide (keyword.toList <:+: subject.toList)

/-! ## Headers -/

/-- The value of the first header of a name. -/
def firstHeader (unicode : UnicodeData) (key : String) (rawHeaders : List Json) : Option String :=
  (rawHeaders.filterMap headerFields).findSome? fun header ↦
    if unicode.casefold header.1 = key then some header.2 else none

section

variable {unicode : UnicodeData} {key value : String} {headers headers' : List (String × String)}
  {rawHeaders : List Json} {item : Json}

theorem lookup_concat (dict : List (String × String)) (key key' value : String) :
    (dict ++ [(key', value)]).lookup key =
      (dict.lookup key).or (if key' = key then some value else none) := by
  rw [List.lookup_append, List.lookup_cons, List.lookup_nil]
  by_cases heq : key' = key
  · subst heq
    rw [beq_self_eq_true, if_pos rfl]
  · rw [beq_false_of_ne (Ne.symm heq), if_neg heq]

theorem lookup_setdefault (dict : List (String × String)) (key key' value : String) :
    (setdefault dict key' value).lookup key =
      (dict.lookup key).or (if key' = key then some value else none) := by
  rw [setdefault]
  by_cases hset : (dict.lookup key').isSome = true
  · rw [if_pos hset]
    by_cases heq : key' = key
    · subst heq
      obtain ⟨held, hheld⟩ := Option.isSome_iff_exists.mp hset
      rw [hheld, Option.some_or]
    · rw [if_neg heq, Option.or_none]
  · rw [if_neg hset, lookup_concat]

/-- A round of the loop adds a header that is asked for, unless there is one of that name. -/
theorem lookup_readHeader (hkey : key ∈ triageHeaders)
    (h : readHeader unicode headers item = .ok headers') :
    ∃ header, headerFields item = some header ∧ headers'.lookup key =
      (headers.lookup key).or
        (if unicode.casefold header.1 = key then some header.2 else none) := by
  rw [readHeader] at h
  split at h
  · cases h
  rename_i name value hfields
  refine ⟨(name, value), hfields, ?_⟩
  by_cases hname : unicode.casefold name ∈ triageHeaders
  · rw [if_pos hname] at h
    obtain rfl := Except.ok.inj h
    exact lookup_setdefault headers key (unicode.casefold name) value
  · rw [if_neg hname] at h
    obtain rfl := Except.ok.inj h
    have hne : unicode.casefold name ≠ key := by
      rintro rfl
      exact hname hkey
    rw [if_neg hne, Option.or_none]

theorem firstHeader_cons {header : String × String} (hfields : headerFields item = some header) :
    firstHeader unicode key (item :: rawHeaders) =
      (if unicode.casefold header.1 = key then some header.2 else none).or
        (firstHeader unicode key rawHeaders) := by
  rw [firstHeader, List.filterMap_cons_some hfields, List.findSome?_cons, firstHeader]
  split
  · rename_i heq
    rw [heq, Option.some_or]
  · rename_i heq
    rw [heq, Option.none_or]

/-- **The first header of a name counts.** By induction on the headers, with those before them
generalized. -/
theorem lookup_foldlM_readHeader (hkey : key ∈ triageHeaders)
    (h : rawHeaders.foldlM (readHeader unicode) headers = .ok headers') :
    headers'.lookup key = (headers.lookup key).or (firstHeader unicode key rawHeaders) := by
  induction rawHeaders generalizing headers with
  | nil =>
    obtain rfl := Except.ok.inj h
    exact Option.or_none.symm
  | cons item rawHeaders ih =>
    rw [List.foldlM_cons] at h
    rcases hread : readHeader unicode headers item with e | next
    · rw [hread] at h
      cases h
    rw [hread] at h
    obtain ⟨header, hfields, hlookup⟩ := lookup_readHeader hkey hread
    rw [ih h, hlookup, firstHeader_cons hfields, Option.or_assoc]

theorem readHeader_ok_iff (unicode : UnicodeData) (headers : List (String × String)) :
    (∃ headers', readHeader unicode headers item = .ok headers') ↔
      (headerFields item).isSome = true := by
  rw [readHeader]
  rcases headerFields item with _ | ⟨name, value⟩
  · exact ⟨by rintro ⟨_, ⟨⟩⟩, by rintro ⟨⟩⟩
  · refine ⟨fun _ ↦ rfl, fun _ ↦ ?_⟩
    dsimp only
    split
    · exact ⟨_, rfl⟩
    · exact ⟨_, rfl⟩

/-- All headers are read if each of them is well formed, whatever its name. -/
theorem foldlM_readHeader_ok_iff (unicode : UnicodeData) (headers : List (String × String)) :
    (∃ headers', rawHeaders.foldlM (readHeader unicode) headers = .ok headers') ↔
      ∀ item ∈ rawHeaders, (headerFields item).isSome = true := by
  induction rawHeaders generalizing headers with
  | nil => exact ⟨fun _ ↦ List.forall_mem_nil _, fun _ ↦ ⟨headers, rfl⟩⟩
  | cons item rawHeaders ih =>
    rw [List.foldlM_cons, List.forall_mem_cons, ← readHeader_ok_iff unicode headers]
    rcases readHeader unicode headers item with e | next
    · refine ⟨?_, ?_⟩
      · rintro ⟨_, ⟨⟩⟩
      · rintro ⟨⟨_, ⟨⟩⟩, -⟩
    · rw [← ih next]
      exact ⟨fun h ↦ ⟨⟨next, rfl⟩, h⟩, fun h ↦ h.2⟩

theorem length_of_firstHeader (h : firstHeader unicode key rawHeaders = some value) :
    value.length ≤ maxHeaderValueChars := by
  obtain ⟨header, hheader, hvalue⟩ := List.exists_of_findSome?_eq_some h
  obtain ⟨item, -, hfields⟩ := List.mem_filterMap.mp hheader
  split at hvalue
  · obtain rfl := Option.some.inj hvalue
    rw [headerFields] at hfields
    split at hfields
    · cases hfields
    split at hfields
    · cases hfields
    split at hfields
    · cases hfields
    rename_i hbounds
    obtain rfl := Option.some.inj hfields
    exact Nat.not_lt.mp fun hlong ↦ hbounds (Or.inr hlong)
  · cases hvalue

end

/-! ## Well-formed messages -/

/-- A well-formed message, and what is read of it. -/
structure Extracts (unicode : UnicodeData) (emailData : Json) (content : EmailContent) : Prop where
  id : content.id = (emailData.get? "id").getD (.str "")
  threadId : content.threadId = (emailData.get? "threadId").getD (.str "")
  labels : ((emailData.get? "labelIds").getD (.arr [])) = .arr (content.labels.map .str)
  labels_length : content.labels.length ≤ maxInboundLabels
  label_length : ∀ label ∈ content.labels, 0 < label.length ∧ label.length ≤ maxInboundLabelChars
  payload : ∃ payload rawHeaders, emailData.get? "payload" = some payload ∧
    payload.get? "headers" = some (.arr rawHeaders) ∧ rawHeaders.length ≤ maxInboundHeaders ∧
    (∀ item ∈ rawHeaders, (headerFields item).isSome = true) ∧
    content.subject = (firstHeader unicode "subject" rawHeaders).getD "(No Subject)" ∧
    content.sender = (firstHeader unicode "from" rawHeaders).getD "Unknown" ∧
    content.recipient = (firstHeader unicode "to" rawHeaders).getD "Unknown" ∧
    content.date = (firstHeader unicode "date" rawHeaders).getD "Unknown" ∧
    getEmailBody unicode payload = .ok content.body

section

variable {unicode : UnicodeData} {emailData payload labels : Json} {rawHeaders : List Json}
  {content : EmailContent} {texts : List String}

theorem isDict_of_get? {value child : Json} {key : String} (h : value.get? key = some child) :
    value.isDict = true := by
  rcases value with _ | _ | _ | _ | _ | fields
  case obj => rfl
  all_goals cases h

theorem readLabel_eq_some_iff {label : Json} {text : String} :
    readLabel label = some text ↔
      label = .str text ∧ 0 < text.length ∧ text.length ≤ maxInboundLabelChars := by
  rw [readLabel, Option.filter_eq_some_iff, Json.str?_eq_some_iff, decide_eq_true_iff]

theorem mapM_readLabel_iff {items : List Json} :
    items.mapM readLabel = some texts ↔ items = texts.map .str ∧
      ∀ text ∈ texts, 0 < text.length ∧ text.length ≤ maxInboundLabelChars := by
  rw [mapM_eq_some_iff]
  constructor
  · intro h
    induction h with
    | nil => exact ⟨rfl, List.forall_mem_nil _⟩
    | cons hlabel _ ih =>
      obtain ⟨rfl, hbounds⟩ := readLabel_eq_some_iff.mp hlabel
      exact ⟨congrArg _ ih.1, List.forall_mem_cons.mpr ⟨hbounds, ih.2⟩⟩
  · rintro ⟨rfl, hbounds⟩
    rw [List.forall₂_map_left_iff, List.forall₂_same]
    exact fun text htext ↦ readLabel_eq_some_iff.mpr ⟨rfl, hbounds text htext⟩

theorem readLabels_ok_iff :
    readLabels labels = .ok texts ↔ labels = .arr (texts.map .str) ∧
      texts.length ≤ maxInboundLabels ∧
        ∀ text ∈ texts, 0 < text.length ∧ text.length ≤ maxInboundLabelChars := by
  rcases labels with _ | _ | _ | _ | items | _
  case arr =>
    rw [readLabels]
    by_cases hmany : maxInboundLabels < items.length
    · rw [if_pos hmany]
      refine ⟨by rintro ⟨⟩, ?_⟩
      rintro ⟨heq, hlength, -⟩
      obtain rfl := Json.arr.inj heq
      rw [List.length_map] at hmany
      omega
    rw [if_neg hmany]
    rcases hitems : items.mapM readLabel with _ | texts'
    · refine ⟨by rintro ⟨⟩, ?_⟩
      rintro ⟨heq, -, hbounds⟩
      rw [mapM_readLabel_iff.mpr ⟨Json.arr.inj heq, hbounds⟩] at hitems
      cases hitems
    · obtain ⟨rfl, hbounds⟩ := mapM_readLabel_iff.mp hitems
      rw [List.length_map, Nat.not_lt] at hmany
      constructor
      · rintro ⟨⟩
        exact ⟨rfl, hmany, hbounds⟩
      · rintro ⟨heq, -, -⟩
        have hinj : Function.Injective Json.str := by
          rintro s t ⟨⟩
          rfl
        rw [List.map_injective_iff.mpr hinj (Json.arr.inj heq)]
  all_goals exact ⟨by rintro ⟨⟩, by rintro ⟨⟨⟩, -⟩⟩

theorem mem_triageHeaders : "subject" ∈ triageHeaders ∧ "from" ∈ triageHeaders ∧
    "to" ∈ triageHeaders ∧ "date" ∈ triageHeaders := by decide

/-- From the headers on. -/
theorem readFields_ok_iff :
    readFields unicode emailData payload rawHeaders = .ok content ↔
      (∀ item ∈ rawHeaders, (headerFields item).isSome = true) ∧
      readLabels ((emailData.get? "labelIds").getD (.arr [])) = .ok content.labels ∧
      getEmailBody unicode payload = .ok content.body ∧
      content.id = (emailData.get? "id").getD (.str "") ∧
      content.threadId = (emailData.get? "threadId").getD (.str "") ∧
      content.subject = (firstHeader unicode "subject" rawHeaders).getD "(No Subject)" ∧
      content.sender = (firstHeader unicode "from" rawHeaders).getD "Unknown" ∧
      content.recipient = (firstHeader unicode "to" rawHeaders).getD "Unknown" ∧
      content.date = (firstHeader unicode "date" rawHeaders).getD "Unknown" := by
  rw [← foldlM_readHeader_ok_iff unicode [], readFields]
  obtain ⟨hsubject, hfrom, hto, hdate⟩ := mem_triageHeaders
  rcases hheaders : rawHeaders.foldlM (readHeader unicode) [] with e | headers
  · refine ⟨by rintro ⟨⟩, ?_⟩
    rintro ⟨⟨_, ⟨⟩⟩, -⟩
  -- a dictionary that starts empty holds the first header of each name
  have hlookup : ∀ key ∈ triageHeaders, headers.lookup key = firstHeader unicode key rawHeaders :=
    fun key hkey ↦ lookup_foldlM_readHeader hkey hheaders
  rw [← hlookup _ hsubject, ← hlookup _ hfrom, ← hlookup _ hto, ← hlookup _ hdate]
  rcases readLabels ((emailData.get? "labelIds").getD (.arr [])) with e | labels
  · refine ⟨by rintro ⟨⟩, ?_⟩
    rintro ⟨-, ⟨⟩, -⟩
  rcases getEmailBody unicode payload with e | body
  · refine ⟨by rintro ⟨⟩, ?_⟩
    rintro ⟨-, -, ⟨⟩, -⟩
  constructor
  · rintro ⟨⟩
    exact ⟨⟨headers, rfl⟩, rfl, rfl, rfl, rfl, rfl, rfl, rfl, rfl⟩
  · rcases content with ⟨id, threadId, subject, sender, recipient, date, labels', body'⟩
    rintro ⟨-, hlabels, hbody, rfl, rfl, rfl, rfl, rfl, rfl⟩
    obtain rfl := Except.ok.inj hlabels
    obtain rfl := Except.ok.inj hbody
    rfl

/-- **The messages that are read, and what is read of them.** -/
theorem readContent_ok_iff :
    readContent unicode emailData = .ok content ↔ Extracts unicode emailData content := by
  constructor
  · intro h
    rw [readContent] at h
    split at h
    · cases h
    split at h
    · cases h
    rename_i payload hpayload
    split at h
    · cases h
    split at h
    · rename_i rawHeaders hheaders
      split at h
      · cases h
      rename_i hmany
      obtain ⟨hfields, hlabels, hbody, hid, hthread, hsubject, hsender, hrecipient, hdate⟩ :=
        readFields_ok_iff.mp h
      obtain ⟨hlabels, hlength, hbounds⟩ := readLabels_ok_iff.mp hlabels
      exact ⟨hid, hthread, hlabels, hlength, hbounds, payload, rawHeaders, hpayload, hheaders,
        Nat.not_lt.mp hmany, hfields, hsubject, hsender, hrecipient, hdate, hbody⟩
    · cases h
  · intro h
    obtain ⟨payload, rawHeaders, hpayload, hheaders, hmany, hfields, hsubject, hsender,
      hrecipient, hdate, hbody⟩ := h.payload
    have hlabels := readLabels_ok_iff.mpr ⟨h.labels, h.labels_length, h.label_length⟩
    rw [readContent, isDict_of_get? hpayload, if_neg (by decide), hpayload]
    dsimp only
    rw [isDict_of_get? hheaders, if_neg (by decide), hheaders]
    dsimp only
    rw [if_neg (Nat.not_lt.mpr hmany)]
    exact readFields_ok_iff.mpr ⟨hfields, hlabels, hbody, h.id, h.threadId, hsubject, hsender,
      hrecipient, hdate⟩

theorem length_firstHeader_le {key default : String} (h : default.length ≤ maxHeaderValueChars) :
    ((firstHeader unicode key rawHeaders).getD default).length ≤ maxHeaderValueChars := by
  rcases hfirst : firstHeader unicode key rawHeaders with _ | value
  · exact h
  · exact length_of_firstHeader hfirst

theorem length_getEmailBody_le {body : String} (h : getEmailBody unicode payload = .ok body) :
    body.length ≤ maxBodyBytes := by
  by_cases hempty : body = ""
  · rw [hempty]
    exact Nat.zero_le _
  obtain ⟨_, part, _, _, _, hfound⟩ :=
    Forest.firstVerdict_eq_some_iff.mp ((getEmailBody_text_iff hempty).mp h)
  obtain ⟨-, _, encoded, -, -, hdecode, -⟩ := holdsText_iff.mp hfound
  rw [← String.ofList_toList (s := encoded)] at hdecode
  obtain ⟨decoded, -, hbound, rfl⟩ := of_decodeBase64urlText_eq_some hdecode
  exact Nat.le_trans (length_decodeUtf8_le decoded) hbound

/-- The texts of a content are bounded. -/
theorem Extracts.bounded (h : Extracts unicode emailData content) :
    content.subject.length ≤ maxHeaderValueChars ∧ content.sender.length ≤ maxHeaderValueChars ∧
      content.recipient.length ≤ maxHeaderValueChars ∧
      content.date.length ≤ maxHeaderValueChars ∧ content.body.length ≤ maxBodyBytes := by
  obtain ⟨payload, rawHeaders, -, -, -, -, hsubject, hsender, hrecipient, hdate, hbody⟩ := h.payload
  rw [hsubject, hsender, hrecipient, hdate]
  exact ⟨length_firstHeader_le (by decide), length_firstHeader_le (by decide),
    length_firstHeader_le (by decide), length_firstHeader_le (by decide),
    length_getEmailBody_le hbody⟩

end

/-! ## The dictionary -/

section

variable {unicode : UnicodeData} {emailData : Json} {content content' : EmailContent}

theorem EmailContent.json_injective (h : content.json = content'.json) : content = content' := by
  rcases content with ⟨id, threadId, subject, sender, recipient, date, labels, body⟩
  rcases content' with ⟨id', threadId', subject', sender', recipient', date', labels', body'⟩
  simp only [json, Json.obj.injEq, List.cons.injEq, Prod.mk.injEq, Json.str.injEq, Json.arr.injEq,
    true_and, and_true] at h
  obtain ⟨rfl, rfl, rfl, rfl, rfl, rfl, hlabels, rfl⟩ := h
  have hinj : Function.Injective Json.str := by
    rintro s t ⟨⟩
    rfl
  rw [List.map_injective_iff.mpr hinj hlabels]

/-- The answer has an error, or it is the dictionary of a content. -/
theorem extractEmailContent_cases (unicode : UnicodeData) (emailData : Json) :
    ((extractEmailContent unicode emailData).get? "error" =
        some (.str "Invalid message payload") ∧
      ∀ content, ¬Extracts unicode emailData content) ∨
    ∃ content, extractEmailContent unicode emailData = content.json ∧
      Extracts unicode emailData content := by
  rw [extractEmailContent]
  rcases hread : readContent unicode emailData with e | content
  · refine Or.inl ⟨rfl, fun content hcontent ↦ ?_⟩
    rw [readContent_ok_iff.mpr hcontent] at hread
    cases hread
  · exact Or.inr ⟨content, rfl, readContent_ok_iff.mp hread⟩

theorem EmailContent.error_json (content : EmailContent) : content.json.get? "error" = none := rfl

theorem extractEmailContent_eq_iff :
    extractEmailContent unicode emailData = content.json ↔ Extracts unicode emailData content := by
  rw [← readContent_ok_iff, extractEmailContent]
  rcases readContent unicode emailData with e | content'
  · refine ⟨fun h ↦ ?_, by rintro ⟨⟩⟩
    have herror := congrArg (Json.get? "error") h
    rw [content.error_json] at herror
    cases herror
  · constructor
    · intro h
      rw [EmailContent.json_injective h]
    · rintro ⟨⟩
      rfl

end

end Onebox.Mail
