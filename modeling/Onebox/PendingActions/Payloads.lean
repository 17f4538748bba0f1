import Mathlib.Data.List.Dedup
import Onebox.PendingActions.Handlers
import Onebox.Python.JsonText
import Onebox.Python.NormalText
import Onebox.Python.Schema

/-!
# Payloads of staged actions

The four payload models, the canonical form of a payload, and its hash. A canonical payload is what
the owner is shown, what is stored, and what is executed; it is computed when the action is staged,
again when it is claimed, and again when it is executed or reconciled.

`PayloadEnv` collects what the models take from elsewhere: case folding, the address parser of
`email.utils`, pydantic's reading and dumping of a `datetime`, the timezone database, and SHA-256.
It carries what is relied on: address parsing goes by delimiters and so commutes with folding, and a
dumped `datetime` is read back.
-/

namespace Onebox.PendingActions

open Python

/-- A `datetime`: its moment, in microseconds, and its offset in seconds, if it has one. -/
structure Datetime where
  instant : ℤ
  utcoffset : Option ℤ

/-- The code that the payload models call. -/
structure PayloadEnv where
  folding : CaseFolding
  /-- The address of `email.utils.parseaddr(value)`. -/
  parseaddr : String → String
  /-- What pydantic reads as a `datetime`. -/
  readDatetime : Json → Option Datetime
  dumpDatetime : Datetime → String
  /-- `ZoneInfo(value)` finds the timezone. -/
  zoneInfo : String → Bool
  /-- What pydantic takes for `Literal[1]`. -/
  isSchemaVersion : Json → Bool
  number : NumberText
  /-- `hashlib.sha256(text.encode("utf-8")).hexdigest()`. -/
  sha256Hexdigest : String → String
  parseaddr_casefold : ∀ s, parseaddr s = s → parseaddr (folding.casefold s) = folding.casefold s
  readDatetime_dump : ∀ v d, readDatetime v = some d → readDatetime (.str (dumpDatetime d)) = some d
  isSchemaVersion_one : isSchemaVersion (.num 1) = true

/-! ## Text -/

/-- U+0000. -/
def nul : Char := Char.ofNat 0

/-- `_clean_text`. -/
def cleanText (maximum : ℕ) (value : String) : Option String :=
  let value := strip value
  if value = "" then none
  else if maximum < value.length ∨ nul ∈ value.toList then none
  else some value

/-- `_canonical_email`. -/
def canonicalEmail (env : PayloadEnv) (value : String) : Option String :=
  match cleanText 320 value with
  | none => none
  | some value =>
    let address := env.parseaddr value
    if address ≠ value ∨ address.toList.count '@' ≠ 1 ∨ address.toList.any isSpace then none
    else
      let parts := rsplitOnce '@' address.toList
      if parts.1 = [] ∨ parts.2 = [] ∨ parts.2.head? = some '.' ∨ parts.2.getLast? = some '.' then
        none
      else some (env.folding.casefold address)

/-- `_PROVIDER_ID_RE.fullmatch(value)`. -/
def isProviderId (value : String) : Bool :=
  1 ≤ value.length && value.length ≤ 256 &&
    value.toList.all fun c ↦ c.isAlphanum || c == '_' || c == '-'

/-- `_provider_id`. -/
def providerId (value : String) : Option String :=
  (cleanText 256 value).filter isProviderId

/-- `_rfc_message_id`. -/
def rfcMessageId (value : String) : Option String :=
  (cleanText 998 value).filter fun value ↦
    value.toList.head? = some '<' && value.toList.getLast? = some '>' &&
      !value.toList.any isSpace

/-- `validate_references` and `validate_optional_text`. -/
def optionalText (value : String) : Option String :=
  if nul ∈ value.toList then none else some (strip value)

/-- `validate_timezone`. -/
def validateTimezone (env : PayloadEnv) (value : String) : Option String :=
  (cleanText 128 value).filter env.zoneInfo

/-- `validate_attendees`. -/
def validateAttendees (env : PayloadEnv) (values : List String) : Option (List String) :=
  match values.mapM (canonicalEmail env) with
  | none => none
  | some emails =>
    let canonical := emails.dedup.mergeSort fun a b ↦ a ≤ b
    if canonical.length ≠ values.length then none else some canonical

/-! ## Fields -/

/-- The limit on the longer texts. -/
def maxTextLength : ℕ := 20000

/-- A field of type `str`: pydantic strips it and checks its length before the validator runs. -/
def textField (name : String) (maxLength : Option ℕ) (default : Option Json)
    (validator : String → Option String) : ModelField where
  name := name
  default := default
  validate
    | .str s =>
      if maxLength.all ((trim s).length ≤ ·) then (validator (trim s)).map .str else none
    | _ => none

/-- `schema_version: Literal[PAYLOAD_SCHEMA_VERSION] = PAYLOAD_SCHEMA_VERSION`. -/
def schemaVersion (env : PayloadEnv) : ModelField where
  name := "schema_version"
  default := some (.num 1)
  validate v := if env.isSchemaVersion v then some (.num 1) else none

/-- `action_type: Literal[text]`. -/
def actionTypeField (text : String) : ModelField where
  name := "action_type"
  default := none
  validate v := if v.str? = some text then some (.str text) else none

/-- A field of type `datetime`. -/
def datetimeField (env : PayloadEnv) (name : String) : ModelField where
  name := name
  default := none
  validate v := (env.readDatetime v).map fun d ↦ .str (env.dumpDatetime d)

/-- `attendee_emails: list[str]`. -/
def attendeeEmails (env : PayloadEnv) : ModelField where
  name := "attendee_emails"
  default := some (.arr [])
  validate
    | .arr items =>
      if items.length ≤ 100 then
        match items.mapM fun item ↦ item.str?.map trim with
        | none => none
        | some values => (validateAttendees env values).map fun emails ↦ .arr (emails.map .str)
      else none
    | _ => none

/-! ## Models -/

/-- `SendEmailPayload`. -/
def sendEmailPayload (env : PayloadEnv) : Schema :=
  [schemaVersion env, actionTypeField "send_email",
    textField "sender_email" none none (canonicalEmail env),
    textField "recipient_email" none none (canonicalEmail env),
    textField "subject" (some 998) none (cleanText 998),
    textField "email_body" (some maxTextLength) none (cleanText maxTextLength)]

/-- `SendReplyPayload`. -/
def sendReplyPayload (env : PayloadEnv) : Schema :=
  [schemaVersion env, actionTypeField "send_reply",
    textField "sender_email" none none (canonicalEmail env),
    textField "recipient_email" none none (canonicalEmail env),
    textField "original_message_id" none none providerId,
    textField "thread_id" none none providerId,
    textField "original_rfc_message_id" none none rfcMessageId,
    textField "original_references" (some 4000) (some (.str "")) optionalText,
    textField "original_subject" (some 998) none (cleanText 998),
    textField "reply_message" (some maxTextLength) none (cleanText maxTextLength)]

/-- `CreateEventPayload`. -/
def createEventPayload (env : PayloadEnv) : Schema :=
  [schemaVersion env, actionTypeField "create_event",
    textField "title" (some 1024) none (cleanText 1024),
    datetimeField env "start_time_iso",
    datetimeField env "end_time_iso",
    textField "event_timezone" (some 128) none (validateTimezone env),
    textField "description" (some maxTextLength) (some (.str "")) optionalText,
    textField "location" (some 1024) (some (.str "")) optionalText,
    attendeeEmails env]

/-- `CreateTaskPayload`. -/
def createTaskPayload (env : PayloadEnv) : Schema :=
  [schemaVersion env, actionTypeField "create_task",
    textField "title" (some 1024) none (cleanText 1024),
    textField "notes" (some maxTextLength) none (cleanText maxTextLength)]

/-- `validate_interval`. -/
def validateInterval (env : PayloadEnv) (given : List (String × Json)) : Bool :=
  match (given.lookup "start_time_iso").bind env.readDatetime,
    (given.lookup "end_time_iso").bind env.readDatetime with
  | some start, some finish =>
    start.utcoffset.isSome && finish.utcoffset.isSome && start.instant < finish.instant
  | _, _ => false

/-- The value of the `action_type` column. -/
def ActionType.text : ActionType → String
  | sendEmail => "send_email"
  | sendReply => "send_reply"
  | createEvent => "create_event"
  | createTask => "create_task"
  | other name => name

/-- `_PAYLOAD_MODELS`. -/
def payloadModel (env : PayloadEnv) : ActionType → Option Schema
  | .sendEmail => some (sendEmailPayload env)
  | .sendReply => some (sendReplyPayload env)
  | .createEvent => some (createEventPayload env)
  | .createTask => some (createTaskPayload env)
  | .other _ => none

/-- The validators that look at several fields. -/
def validateModel (env : PayloadEnv) (given : List (String × Json)) : ActionType → Bool
  | .createEvent => validateInterval env given
  | _ => true

/-! ## The canonical payload -/

/-- One entry of the sequence that `dict` takes. -/
def entryOf (item : Json) : Option (String × Json) :=
  match item.iter? with
  | some [.str key, v] => some (key, v)
  | _ => none

/-- `dict(payload)`, where its keys are strings. A later entry of a sequence replaces an earlier
one. -/
def dictOf : Json → Option (List (String × Json))
  | .obj fields => some fields
  | payload =>
    match payload.iter? with
    | none => none
    | some items => (items.mapM entryOf).map List.reverse

/-- The arguments of the model: the candidate without its own type, and the type. -/
def modelArguments (t : ActionType) (candidate : List (String × Json)) : List (String × Json) :=
  ("action_type", .str t.text) :: candidate.filter (·.1 ≠ "action_type")

/-- `canonicalize_action_payload`; `none` is the `TypeError` or `ValueError`. -/
def canonicalizeActionPayload (env : PayloadEnv) (t : ActionType) (payload : Json) : Option Json :=
  match payloadModel env t with
  | none => none
  | some model =>
    match dictOf payload with
    | none => none
    | some candidate =>
      let suppliedType := (candidate.lookup "action_type").getD (.str t.text)
      if suppliedType.str? ≠ some t.text then none
      else
        let given := modelArguments t candidate
        if validateModel env given t then (model.validate given).map .obj else none

/-- `canonical_payload`. -/
def canonicalPayload (env : PayloadEnv) (payload : Json) : String := Json.dumps env.number payload

/-- `make_payload_hash`. -/
def makePayloadHash (env : PayloadEnv) (payload : Json) : String :=
  env.sha256Hexdigest (canonicalPayload env payload)

/-- The rules of the state service. -/
def payloadRules (env : PayloadEnv) : PayloadRules where
  canonicalizeActionPayload := canonicalizeActionPayload env
  makePayloadHash := makePayloadHash env

/-! ## What a canonical payload is -/

section

variable {env : PayloadEnv} {t : ActionType} {payload canonical : Json} {model : Schema}
  {given dumped candidate : List (String × Json)}

/-- The parts of a canonicalization. -/
theorem canonicalizeActionPayload_eq_some
    (h : canonicalizeActionPayload env t payload = some canonical) :
    ∃ model candidate dumped, payloadModel env t = some model ∧ dictOf payload = some candidate ∧
      validateModel env (modelArguments t candidate) t = true ∧
      model.validate (modelArguments t candidate) = some dumped ∧ canonical = .obj dumped := by
  rw [canonicalizeActionPayload] at h
  split at h
  · cases h
  · rename_i model hmodel
    split at h
    · cases h
    · rename_i candidate hdict
      dsimp only at h
      split at h
      · cases h
      · split at h
        · rename_i hinterval
          obtain ⟨dumped, hdumped, rfl⟩ := Option.map_eq_some_iff.mp h
          exact ⟨model, candidate, dumped, hmodel, hdict, hinterval, hdumped, rfl⟩
        · cases h

/-- A mapping of the right type is left to its model. -/
theorem canonicalizeActionPayload_obj (hmodel : payloadModel env t = some model)
    (htype : ∀ v, candidate.lookup "action_type" = some v → v.str? = some t.text)
    (hvalid : validateModel env (modelArguments t candidate) t = true) :
    canonicalizeActionPayload env t (.obj candidate) =
      (model.validate (modelArguments t candidate)).map .obj := by
  have hsupplied : ((candidate.lookup "action_type").getD (.str t.text)).str? = some t.text := by
    cases hlookup : candidate.lookup "action_type" with
    | none => rfl
    | some v => exact htype v hlookup
  rw [canonicalizeActionPayload, hmodel]
  simp only [dictOf]
  rw [if_neg (not_not.mpr hsupplied), if_pos hvalid]

/-- The fields of a model have different names, and the action type is one of them. -/
theorem nodup_payloadModel (h : payloadModel env t = some model) :
    (model.map ModelField.name).Nodup := by
  cases t with
  | other name => cases h
  | _ =>
    obtain rfl := Option.some.inj h
    simp only [sendEmailPayload, sendReplyPayload, createEventPayload, createTaskPayload,
      List.map_cons, List.map_nil, schemaVersion, actionTypeField, textField, datetimeField,
      attendeeEmails]
    decide

theorem actionTypeField_mem (h : payloadModel env t = some model) :
    actionTypeField t.text ∈ model := by
  cases t with
  | other name => cases h
  | _ =>
    obtain rfl := Option.some.inj h
    exact List.mem_cons_of_mem _ List.mem_cons_self

/-- Other keys than the action type are looked up in the candidate. -/
theorem lookup_modelArguments {key : String} (h : key ≠ "action_type") :
    (modelArguments t candidate).lookup key = candidate.lookup key := by
  rw [modelArguments, List.lookup_cons, beq_false_of_ne h]
  change (candidate.filter _).lookup key = _
  induction candidate with
  | nil => rfl
  | cons entry candidate ih =>
    obtain ⟨key', v⟩ := entry
    by_cases hkey' : key' = "action_type"
    · subst hkey'
      rw [List.filter_cons_of_neg (by simp), ih, List.lookup_cons, beq_false_of_ne h]
    · rw [List.filter_cons_of_pos (by simpa using hkey'), List.lookup_cons, List.lookup_cons, ih]

end

end Onebox.PendingActions
