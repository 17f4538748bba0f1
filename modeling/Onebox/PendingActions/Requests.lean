import Onebox.PendingActions.Canonical

/-!
# The requests of the four actions

What `execute_action` asks of the provider, up to how a message is encoded: the boundary of its
parts is drawn anew for each message. A canonical payload has all that its request is made of.
-/

namespace Onebox.PendingActions

open Python

/-! ## Messages -/

/-- A message with one text part. -/
structure MimeMessage where
  headers : List (String × String)
  text : String

/-- `create_raw_message`, for callers who give the message an id. -/
def createRawMessage (sender : String) (recipients : List String) (subject messageText : String)
    (cc bcc : List String) (messageId : String) (extraHeaders : List (String × String)) :
    MimeMessage where
  headers :=
    [("to", ", ".intercalate recipients), ("from", sender), ("subject", subject)]
      ++ (if cc = [] then [] else [("cc", ", ".intercalate cc)])
      ++ (if bcc = [] then [] else [("bcc", ", ".intercalate bcc)])
      ++ ("Message-ID", messageId) :: extraHeaders
  text := messageText

/-- The subject of a reply. -/
def replySubject (unicode : UnicodeData) (subject : String) : String :=
  if "re:".toList <+: (unicode.lower subject).toList then subject else "Re: " ++ subject

/-- The references of a reply. -/
def replyReferences (originalMessageId originalReferences : String) : String :=
  if originalMessageId.toList <:+: originalReferences.toList then originalReferences
  else strip (originalReferences ++ " " ++ originalMessageId)

/-- `create_raw_reply_message`, for callers who give the message an id. -/
def createRawReplyMessage (unicode : UnicodeData) (sender : String) (recipients : List String)
    (subject messageText originalMessageId originalReferences messageId : String)
    (extraHeaders : List (String × String)) : MimeMessage where
  headers :=
    [("to", ", ".intercalate recipients), ("from", sender),
      ("subject", replySubject unicode subject), ("In-Reply-To", originalMessageId),
      ("References", replyReferences originalMessageId originalReferences),
      ("Message-ID", messageId)] ++ extraHeaders
  text := messageText

/-! ## Requests -/

/-- The write of an action. -/
inductive ProviderRequest
  /-- `users().messages().send(userId="me", body=...)`. -/
  | sendMessage (message : MimeMessage) (threadId : Option String)
  /-- `events().insert(calendarId="primary", body=..., conferenceDataVersion=1,
  sendUpdates=...)`. -/
  | insertEvent (body : Json) (sendUpdates : String)
  /-- `tasks().insert(tasklist=..., body=...)`, in the task list that is found or created for it. -/
  | insertTask (body : Json)

/-- `_marker_headers`. -/
def markerHeaders (commandKey : String) : List (String × String) :=
  [("X-OneBox-Command-Key", commandKey)]

/-- A text of the payload; `none` is the `KeyError`. -/
def textAt (payload : Json) (key : String) : Option String := (payload.get? key).bind Json.str?

/-- The attendees of an event. -/
def attendeesAt (payload : Json) : Option (List Json) :=
  match payload.get? "attendee_emails" with
  | some (.arr emails) => some (emails.map fun email ↦ .obj [("email", email)])
  | _ => none

/-- The `start` and the `end` of an event. -/
def eventTime (dateTime timeZone : String) : Json :=
  .obj [("dateTime", .str dateTime), ("timeZone", .str timeZone)]

/-- The body of an event. -/
def eventBody (eventId commandKey title location description start finish timeZone : String)
    (attendees : List Json) : Json :=
  .obj
    [("id", .str eventId),
      ("summary", .str title),
      ("location", .str location),
      ("description", .str description),
      ("start", eventTime start timeZone),
      ("end", eventTime finish timeZone),
      ("attendees", .arr attendees),
      ("reminders", .obj [("useDefault", .bool true)]),
      ("extendedProperties", .obj [("private", .obj [("oneboxCommandKey", .str commandKey)])]),
      ("conferenceData", .obj [("createRequest",
        .obj [("requestId", .str eventId),
          ("conferenceSolutionKey", .obj [("type", .str "hangoutsMeet")])])])]

/-- The request for a canonical payload; `none` is the `KeyError` of a payload that lacks a key. -/
def providerRequest (env : HandlerEnv) (actionType : ActionType) (payload : Json)
    (commandKey : String) : Option ProviderRequest :=
  match actionType with
  | .sendEmail => do
    let sender ← textAt payload "sender_email"
    let recipient ← textAt payload "recipient_email"
    let subject ← textAt payload "subject"
    let body ← textAt payload "email_body"
    some (.sendMessage (createRawMessage sender [recipient] subject body [] []
      (gmailMessageId env commandKey) (markerHeaders commandKey)) none)
  | .sendReply => do
    let sender ← textAt payload "sender_email"
    let recipient ← textAt payload "recipient_email"
    let subject ← textAt payload "original_subject"
    let body ← textAt payload "reply_message"
    let threadId ← textAt payload "thread_id"
    let messageId ← textAt payload "original_rfc_message_id"
    let references ← textAt payload "original_references"
    some (.sendMessage (createRawReplyMessage env.unicode sender [recipient] subject body messageId
      references (gmailMessageId env commandKey) (markerHeaders commandKey)) (some threadId))
  | .createEvent => do
    let attendees ← attendeesAt payload
    let title ← textAt payload "title"
    let location ← textAt payload "location"
    let description ← textAt payload "description"
    let start ← textAt payload "start_time_iso"
    let timeZone ← textAt payload "event_timezone"
    let finish ← textAt payload "end_time_iso"
    some (.insertEvent (eventBody (calendarEventId env commandKey) commandKey title location
      description start finish timeZone attendees) (if attendees.isEmpty then "none" else "all"))
  | .createTask => do
    let notes ← textAt payload "notes"
    let title ← textAt payload "title"
    some (.insertTask (.obj [("title", .str title),
      ("notes", .str (notes ++ "\n\n" ++ taskMarker commandKey))]))
  | .other _ => none

/-- The request of `execute_action`, once the service is there. -/
def executeRequest (env : HandlerEnv) (action : PendingAction) : Option ProviderRequest :=
  match env.rules.canonicalizeActionPayload action.actionType action.payload with
  | none => none
  | some payload => providerRequest env action.actionType payload action.commandKey

/-! ## The request of a canonical payload -/

section

variable {env : PayloadEnv} {t : ActionType} {model : Schema} {given dumped : List (String × Json)}
  {field : ModelField}

/-- The field dumps text. -/
structure DumpsText (field : ModelField) : Prop where
  validate : ∀ u v, field.validate u = some v → ∃ s, v = .str s
  default : ∀ d, field.default = some d → ∃ s, d = .str s

theorem dumpsText_actionTypeField {text : String} : DumpsText (actionTypeField text) where
  validate u v h := by
    rw [actionTypeField] at h
    dsimp only at h
    split at h
    · exact ⟨text, (Option.some.inj h).symm⟩
    · cases h
  default := nofun

theorem dumpsText_textField {name : String} {maxLength : Option ℕ}
    {validator : String → Option String} : DumpsText (textField name maxLength none validator) where
  validate u v h := by
    obtain ⟨-, s, -, -, -, rfl⟩ := textField_eq_some h
    exact ⟨s, rfl⟩
  default := nofun

theorem dumpsText_optional {name d : String} {maxLength : Option ℕ}
    {validator : String → Option String} :
    DumpsText (textField name maxLength (some (.str d)) validator) where
  validate u v h := by
    obtain ⟨-, s, -, -, -, rfl⟩ := textField_eq_some h
    exact ⟨s, rfl⟩
  default e he := ⟨d, (Option.some.inj he).symm⟩

theorem dumpsText_datetimeField {name : String} : DumpsText (datetimeField env name) where
  validate u v h := by
    obtain ⟨d, -, rfl⟩ := Option.map_eq_some_iff.mp h
    exact ⟨env.dumpDatetime d, rfl⟩
  default := nofun

/-- All fields dump text but two. -/
theorem dumpsText_of_mem (hmodel : payloadModel env t = some model) :
    ∀ field ∈ model, field.name ≠ "schema_version" → field.name ≠ "attendee_emails" →
      DumpsText field := by
  cases t with
  | other name => cases hmodel
  | _ =>
    obtain rfl := Option.some.inj hmodel
    simp only [sendEmailPayload, sendReplyPayload, createEventPayload, createTaskPayload,
      List.forall_mem_cons, List.not_mem_nil, false_imp_iff, implies_true, and_true]
    simp only [schemaVersion, attendeeEmails, ne_eq, not_true_eq_false, false_imp_iff, implies_true,
      dumpsText_actionTypeField, dumpsText_textField, dumpsText_optional, dumpsText_datetimeField,
      and_true]

/-- The texts that a request is made of. -/
def requestTexts : ActionType → List String
  | .sendEmail => ["sender_email", "recipient_email", "subject", "email_body"]
  | .sendReply =>
    ["sender_email", "recipient_email", "original_subject", "reply_message", "thread_id",
      "original_rfc_message_id", "original_references"]
  | .createEvent =>
    ["title", "location", "description", "start_time_iso", "event_timezone", "end_time_iso"]
  | .createTask => ["notes", "title"]
  | .other _ => []

theorem mem_names_of_requestTexts (hmodel : payloadModel env t = some model) :
    ∀ key ∈ requestTexts t,
      key ∈ model.map ModelField.name ∧ key ≠ "schema_version" ∧ key ≠ "attendee_emails" := by
  cases t with
  | other name => cases hmodel
  | _ =>
    obtain rfl := Option.some.inj hmodel
    simp only [requestTexts, sendEmailPayload, sendReplyPayload, createEventPayload,
      createTaskPayload, List.map_cons, List.map_nil, schemaVersion, actionTypeField, textField,
      datetimeField, attendeeEmails]
    decide

/-- The texts of a canonical payload are found. -/
theorem exists_textAt (hmodel : payloadModel env t = some model)
    (hdump : model.dump given = some dumped) {key : String} (hkey : key ∈ requestTexts t) :
    ∃ s, textAt (.obj dumped) key = some s := by
  obtain ⟨hname, hversion, hattendees⟩ := mem_names_of_requestTexts hmodel key hkey
  obtain ⟨field, hmem, rfl⟩ := List.mem_map.mp hname
  have htext := dumpsText_of_mem hmodel field hmem hversion hattendees
  obtain ⟨v, hv, -⟩ := Schema.mem_dump hdump hmem
  obtain ⟨s, rfl⟩ := ModelField.of_read htext.validate htext.default hv
  refine ⟨s, ?_⟩
  rw [textAt, Json.get?, Schema.lookup_dump (nodup_payloadModel hmodel) hdump hmem, hv]
  rfl

theorem exists_attendeesAt (hmodel : payloadModel env t = some model)
    (hdump : model.dump given = some dumped) (hmem : attendeeEmails env ∈ model) :
    ∃ attendees, attendeesAt (.obj dumped) = some attendees := by
  obtain ⟨v, hv, -⟩ := Schema.mem_dump hdump hmem
  have harr : ∃ emails, v = .arr emails := by
    refine ModelField.of_read (P := fun v ↦ ∃ emails, v = .arr emails) (fun u v h ↦ ?_)
      (fun d hd ↦ ⟨[], (Option.some.inj hd).symm⟩) hv
    obtain ⟨-, -, emails, -, -, -, -, rfl⟩ := attendeeEmails_eq_some h
    exact ⟨_, rfl⟩
  obtain ⟨emails, rfl⟩ := harr
  have hlookup : dumped.lookup "attendee_emails" = some (.arr emails) :=
    (Schema.lookup_dump (nodup_payloadModel hmodel) hdump hmem).trans hv
  refine ⟨emails.map fun email ↦ .obj [("email", email)], ?_⟩
  rw [attendeesAt, Json.get?, hlookup]

/-- **A canonical payload has its request.** -/
theorem exists_providerRequest (handlers : HandlerEnv) (commandKey : String)
    (hmodel : payloadModel env t = some model) (hdump : model.dump given = some dumped) :
    ∃ request, providerRequest handlers t (.obj dumped) commandKey = some request := by
  have htext : ∀ key ∈ requestTexts t, ∃ s, textAt (.obj dumped) key = some s :=
    fun key ↦ exists_textAt hmodel hdump
  cases t with
  | sendEmail =>
    obtain ⟨sender, hsender⟩ := htext "sender_email" (by decide)
    obtain ⟨recipient, hrecipient⟩ := htext "recipient_email" (by decide)
    obtain ⟨subject, hsubject⟩ := htext "subject" (by decide)
    obtain ⟨body, hbody⟩ := htext "email_body" (by decide)
    rw [providerRequest, hsender, hrecipient, hsubject, hbody]
    exact ⟨_, rfl⟩
  | sendReply =>
    obtain ⟨sender, hsender⟩ := htext "sender_email" (by decide)
    obtain ⟨recipient, hrecipient⟩ := htext "recipient_email" (by decide)
    obtain ⟨subject, hsubject⟩ := htext "original_subject" (by decide)
    obtain ⟨body, hbody⟩ := htext "reply_message" (by decide)
    obtain ⟨threadId, hthreadId⟩ := htext "thread_id" (by decide)
    obtain ⟨messageId, hmessageId⟩ := htext "original_rfc_message_id" (by decide)
    obtain ⟨references, hreferences⟩ := htext "original_references" (by decide)
    rw [providerRequest, hsender, hrecipient, hsubject, hbody, hthreadId, hmessageId, hreferences]
    exact ⟨_, rfl⟩
  | createEvent =>
    have hmem : attendeeEmails env ∈ model := by
      rw [← Option.some.inj hmodel, createEventPayload]
      simp
    obtain ⟨attendees, hattendees⟩ := exists_attendeesAt hmodel hdump hmem
    obtain ⟨title, htitle⟩ := htext "title" (by decide)
    obtain ⟨location, hlocation⟩ := htext "location" (by decide)
    obtain ⟨description, hdescription⟩ := htext "description" (by decide)
    obtain ⟨start, hstart⟩ := htext "start_time_iso" (by decide)
    obtain ⟨timeZone, htimeZone⟩ := htext "event_timezone" (by decide)
    obtain ⟨finish, hfinish⟩ := htext "end_time_iso" (by decide)
    rw [providerRequest, hattendees, htitle, hlocation, hdescription, hstart, htimeZone, hfinish]
    exact ⟨_, rfl⟩
  | createTask =>
    obtain ⟨notes, hnotes⟩ := htext "notes" (by decide)
    obtain ⟨title, htitle⟩ := htext "title" (by decide)
    rw [providerRequest, hnotes, htitle]
    exact ⟨_, rfl⟩
  | other name => cases hmodel

end

end Onebox.PendingActions
