import Onebox.Python.Base64
import Onebox.Python.JsonBytes

/-!
# Pub/Sub envelopes

`parse_notification_envelope`: the body of a push request is JSON, and the data of its message is
base64 of JSON again. What is accepted is well formed, and every envelope is read back from every
body that carries it, whatever else the body holds and however it is spelled.
-/

namespace Onebox.Notifications

open Python

/-- `NotificationEnvelope`. -/
structure NotificationEnvelope where
  pubsubMessageId : String
  mailboxEmail : String
  historyId : ℕ
  deriving DecidableEq

/-- How `parse_notification_envelope` fails. -/
inductive EnvelopeError
  /-- `NotificationValidationError`. -/
  | validation (message : String)
  /-- An exception that it does not catch. -/
  | uncaught
  deriving DecidableEq

/-- The setting that envelopes are parsed under, and what the parser calls. -/
structure EnvelopeEnv where
  /-- `PUBSUB_MAX_ENVELOPE_BYTES`. -/
  maxEnvelopeBytes : ℕ
  folding : CaseFolding
  /-- The address of `email.utils.parseaddr(value)`. -/
  parseaddr : String → String
  /-- The interpreter gives up on a text in which values are nested too deeply, or on a number of
  too many digits: that is no `JSONDecodeError`. -/
  givesUp : Bytes → Bool

/-! ## Parsing -/

/-- `_normalize_email`. -/
def normalizeEmail (env : EnvelopeEnv) (value : Option Json) : Except EnvelopeError String :=
  match value.bind Json.str? with
  | none => .error (.validation "mailbox email is invalid")
  | some value =>
    if strip value = "" ∨ 320 < value.length then .error (.validation "mailbox email is invalid")
    else
      let value := strip value
      let address := env.parseaddr value
      if address ≠ value ∨ address.toList.count '@' ≠ 1 then
        .error (.validation "mailbox email is invalid")
      else .ok (env.folding.casefold address)

/-- `_bounded_identifier`, with the default for `maximum`. -/
def boundedIdentifier (value : Option Json) (name : String) : Except EnvelopeError String :=
  match value.bind Json.str? with
  | none => .error (.validation (name ++ " is invalid"))
  | some value =>
    if strip value = "" ∨ 255 < value.length then .error (.validation (name ++ " is invalid"))
    else
      let value := strip value
      if value.toList.any fun c ↦ isSpace c || decide (c.toNat < 33) then
        .error (.validation (name ++ " is invalid"))
      else .ok value

/-- `_history_id`, of an envelope. -/
def envelopeHistoryId (value : Option Json) : Except EnvelopeError ℕ :=
  match value.bind Json.str? with
  | none => .error (.validation "history ID is invalid")
  | some value =>
    if value = "" ∨ value.toList.all Char.isDigit = false then
      .error (.validation "history ID is invalid")
    -- The conversion of more digits raises a plain `ValueError`.
    else if 4300 < value.length then .error .uncaught
    else
      let parsed := (readDigits 10 value.toList).getD 0
      if parsed = 0 ∨ 9223372036854775807 < parsed then
        .error (.validation "history ID is invalid")
      else .ok parsed

/-- `json.loads(data)`, with what is made of its exceptions. -/
def readJson (env : EnvelopeEnv) (data : Bytes) (message : String) : Except EnvelopeError Json :=
  if env.givesUp data then .error .uncaught
  else
    match loadsData data with
    | none => .error (.validation message)
    | some value => .ok value

/-- `base64.b64decode(encoded, validate=True)`: text that is not ASCII raises a plain
`ValueError`. -/
def readBase64 (encoded : String) : Except EnvelopeError Bytes :=
  if encoded.toList.any fun c ↦ decide (128 ≤ c.toNat) then .error .uncaught
  else
    match b64decodeStandard encoded.toList with
    | none => .error (.validation "notification data is invalid")
    | some decoded => .ok decoded

/-- `value == expected` for `expected: str | None`. -/
def equalsText (value : Option Json) (expected : Option String) : Bool :=
  match value, expected with
  | none, none => true
  | some .null, none => true
  | some (.str s), some t => s = t
  | _, _ => false

/-- The end of `parse_notification_envelope`, from the notification on. -/
def parseNotification (env : EnvelopeEnv) (messageId : String) (notification : Json) :
    Except EnvelopeError NotificationEnvelope :=
  if notification.isDict = false then .error (.validation "notification data is invalid")
  else do
    let mailboxEmail ← normalizeEmail env (notification.get? "emailAddress")
    let historyId ← envelopeHistoryId (notification.get? "historyId")
    return ⟨messageId, mailboxEmail, historyId⟩

/-- From the encoded data on. -/
def parseData (env : EnvelopeEnv) (messageId encoded : String) :
    Except EnvelopeError NotificationEnvelope :=
  if env.maxEnvelopeBytes * 2 < encoded.length then
    .error (.validation "notification data is invalid")
  else do
    let decoded ← readBase64 encoded
    let notification ← readJson env decoded "notification data is invalid"
    parseNotification env messageId notification

/-- From the message on. -/
def parseMessage (env : EnvelopeEnv) (message : Json) : Except EnvelopeError NotificationEnvelope :=
  if message.isDict = false then .error (.validation "notification message is invalid")
  else do
    let messageId ← boundedIdentifier (message.get? "messageId") "notification message ID"
    match (message.get? "data").bind Json.str? with
    | none => .error (.validation "notification data is invalid")
    | some encoded => parseData env messageId encoded

/-- `parse_notification_envelope`. -/
def parseNotificationEnvelope (env : EnvelopeEnv) (rawBody : Bytes)
    (expectedSubscription : Option String) : Except EnvelopeError NotificationEnvelope :=
  if rawBody = [] ∨ env.maxEnvelopeBytes < rawBody.length then
    .error (.validation "notification body is invalid")
  else do
    let envelope ← readJson env rawBody "notification body is invalid"
    if envelope.isDict = false ∨
        equalsText (envelope.get? "subscription") expectedSubscription = false then
      .error (.validation "notification subscription is invalid")
    else
      match envelope.get? "message" with
      | none => .error (.validation "notification message is invalid")
      | some message => parseMessage env message

/-! ## Well-formed envelopes -/

/-- What the queue relies on. -/
structure NotificationEnvelope.WellFormed (env : EnvelopeEnv) (e : NotificationEnvelope) :
    Prop where
  id_ne : e.pubsubMessageId ≠ ""
  id_length : e.pubsubMessageId.length ≤ 255
  id_plain : ∀ c ∈ e.pubsubMessageId.toList, isSpace c = false ∧ 33 ≤ c.toNat
  mailbox_folded : env.folding.casefold e.mailboxEmail = e.mailboxEmail
  mailbox_stripped : strip e.mailboxEmail = e.mailboxEmail
  mailbox_at : e.mailboxEmail.toList.count '@' = 1
  history_pos : 0 < e.historyId
  history_le : e.historyId ≤ 9223372036854775807

/-! ## What is accepted -/

/-- The notification names the mailbox and the history id of the envelope. -/
structure Announces (env : EnvelopeEnv) (notification : Json) (e : NotificationEnvelope) :
    Prop where
  dict : notification.isDict = true
  mailbox : ∃ value, notification.get? "emailAddress" = some (.str value) ∧ value.length ≤ 320 ∧
    strip value ≠ "" ∧ env.parseaddr (strip value) = strip value ∧
    (strip value).toList.count '@' = 1 ∧ env.folding.casefold (strip value) = e.mailboxEmail
  history : ∃ value, notification.get? "historyId" = some (.str value) ∧ value ≠ "" ∧
    value.length ≤ 4300 ∧ value.toList.all Char.isDigit = true ∧
    (readDigits 10 value.toList).getD 0 = e.historyId ∧ 0 < e.historyId ∧
    e.historyId ≤ 9223372036854775807

/-- The message has the id of the envelope, and its data is the notification. -/
structure Delivers (env : EnvelopeEnv) (message : Json) (e : NotificationEnvelope) : Prop where
  dict : message.isDict = true
  messageId : ∃ value, message.get? "messageId" = some (.str value) ∧ value.length ≤ 255 ∧
    strip value = e.pubsubMessageId ∧ e.pubsubMessageId ≠ "" ∧
    ∀ c ∈ e.pubsubMessageId.toList, isSpace c = false ∧ 33 ≤ c.toNat
  data : ∃ encoded decoded notification, message.get? "data" = some (.str encoded) ∧
    encoded.length ≤ env.maxEnvelopeBytes * 2 ∧ (∀ c ∈ encoded.toList, c.toNat < 128) ∧
    b64decodeStandard encoded.toList = some decoded ∧ env.givesUp decoded = false ∧
    loadsData decoded = some notification ∧ Announces env notification e

/-- The body is for the subscription and has the message. -/
structure Carries (env : EnvelopeEnv) (subscription : Option String) (body : Json)
    (e : NotificationEnvelope) : Prop where
  dict : body.isDict = true
  subscription : equalsText (body.get? "subscription") subscription = true
  message : ∃ message, body.get? "message" = some message ∧ Delivers env message e

section

variable {env : EnvelopeEnv} {value : Option Json} {e : NotificationEnvelope} {data : Bytes}
  {message encoded s : String} {n : ℕ} {v : Json}

theorem str?_bind_eq_some_iff : value.bind Json.str? = some s ↔ value = some (.str s) := by
  rw [Option.bind_eq_some_iff]
  constructor
  · rintro ⟨v, rfl, hv⟩
    rw [Json.str?_eq_some_iff.mp hv]
  · rintro rfl
    exact ⟨_, rfl, rfl⟩

theorem normalizeEmail_eq_ok_iff : normalizeEmail env value = .ok s ↔
    ∃ text, value = some (.str text) ∧ text.length ≤ 320 ∧ strip text ≠ "" ∧
      env.parseaddr (strip text) = strip text ∧ (strip text).toList.count '@' = 1 ∧
      env.folding.casefold (strip text) = s := by
  rw [normalizeEmail]
  constructor
  · intro h
    split at h
    · cases h
    · rename_i text htext
      split at h
      · cases h
      · rename_i hshort
        rw [not_or, Nat.not_lt] at hshort
        dsimp only at h
        split at h
        · cases h
        · rename_i haddress
          rw [not_or, not_not, not_not] at haddress
          refine ⟨text, str?_bind_eq_some_iff.mp htext, hshort.2, hshort.1, haddress.1, ?_, ?_⟩
          · rw [← haddress.1]
            exact haddress.2
          · rw [← haddress.1]
            exact Except.ok.inj h
  · rintro ⟨text, rfl, hlength, hne, haddress, hcount, rfl⟩
    dsimp only [Option.bind_some, Json.str?]
    rw [if_neg (by rw [not_or, Nat.not_lt]; exact ⟨hne, hlength⟩), haddress,
      if_neg (by rw [not_or, not_not, not_not]; exact ⟨rfl, hcount⟩)]

theorem boundedIdentifier_eq_ok_iff {name : String} : boundedIdentifier value name = .ok s ↔
    ∃ text, value = some (.str text) ∧ text.length ≤ 255 ∧ strip text = s ∧ s ≠ "" ∧
      ∀ c ∈ s.toList, isSpace c = false ∧ 33 ≤ c.toNat := by
  have hchars : ∀ text : String,
      (text.toList.any fun c ↦ isSpace c || decide (c.toNat < 33)) = false ↔
        ∀ c ∈ text.toList, isSpace c = false ∧ 33 ≤ c.toNat := by
    intro text
    simp only [List.any_eq_false, Bool.or_eq_true, not_or, Bool.not_eq_true, decide_eq_true_eq,
      Nat.not_lt]
  rw [boundedIdentifier]
  constructor
  · intro h
    split at h
    · cases h
    · rename_i text htext
      split at h
      · cases h
      · rename_i hshort
        rw [not_or, Nat.not_lt] at hshort
        dsimp only at h
        split at h
        · cases h
        · rename_i hplain
          obtain rfl := Except.ok.inj h
          exact ⟨text, str?_bind_eq_some_iff.mp htext, hshort.2, rfl, hshort.1,
            (hchars _).mp (Bool.not_eq_true _ ▸ hplain)⟩
  · rintro ⟨text, rfl, hlength, rfl, hne, hplain⟩
    dsimp only [Option.bind_some, Json.str?]
    rw [if_neg (by rw [not_or, Nat.not_lt]; exact ⟨hne, hlength⟩), (hchars _).mpr hplain,
      if_neg Bool.false_ne_true]

theorem envelopeHistoryId_eq_ok_iff : envelopeHistoryId value = .ok n ↔
    ∃ text, value = some (.str text) ∧ text ≠ "" ∧ text.length ≤ 4300 ∧
      text.toList.all Char.isDigit = true ∧ (readDigits 10 text.toList).getD 0 = n ∧ 0 < n ∧
      n ≤ 9223372036854775807 := by
  rw [envelopeHistoryId]
  constructor
  · intro h
    split at h
    · cases h
    · rename_i text htext
      split at h
      · cases h
      · rename_i hdigits
        rw [not_or, Bool.not_eq_false] at hdigits
        split at h
        · cases h
        · rename_i hlength
          dsimp only at h
          split at h
          · cases h
          · rename_i hrange
            rw [not_or, Nat.not_lt] at hrange
            obtain rfl := Except.ok.inj h
            exact ⟨text, str?_bind_eq_some_iff.mp htext, hdigits.1, Nat.le_of_not_lt hlength,
              hdigits.2, rfl, Nat.pos_of_ne_zero hrange.1, hrange.2⟩
  · rintro ⟨text, rfl, hne, hlength, hdigits, rfl, hpos, hmax⟩
    dsimp only [Option.bind_some, Json.str?]
    rw [if_neg (by rw [not_or, Bool.not_eq_false]; exact ⟨hne, hdigits⟩),
      if_neg (Nat.not_lt.mpr hlength),
      if_neg (by rw [not_or, Nat.not_lt]; exact ⟨Nat.ne_of_gt hpos, hmax⟩)]

theorem readJson_eq_ok_iff : readJson env data message = .ok v ↔
    env.givesUp data = false ∧ loadsData data = some v := by
  rw [readJson]
  split
  · rename_i hgives
    rw [hgives]
    constructor
    · rintro ⟨⟩
    · rintro ⟨⟨⟩, -⟩
  · rename_i hgives
    rw [Bool.not_eq_true] at hgives
    rw [hgives, eq_self_iff_true, true_and]
    cases loadsData data with
    | none => simp
    | some w => simp

theorem readBase64_eq_ok_iff : readBase64 encoded = .ok data ↔
    (∀ c ∈ encoded.toList, c.toNat < 128) ∧ b64decodeStandard encoded.toList = some data := by
  have hascii : (encoded.toList.any fun c ↦ decide (128 ≤ c.toNat)) = false ↔
      ∀ c ∈ encoded.toList, c.toNat < 128 := by
    simp only [List.any_eq_false, decide_eq_true_eq, Nat.not_le]
  rw [readBase64, ← hascii]
  split
  · rename_i hany
    rw [hany]
    constructor
    · rintro ⟨⟩
    · rintro ⟨⟨⟩, -⟩
  · rename_i hany
    rw [Bool.not_eq_true] at hany
    rw [hany, eq_self_iff_true, true_and]
    cases b64decodeStandard encoded.toList with
    | none => simp
    | some w => simp

theorem bind_eq_ok_iff {α β : Type} {x : Except EnvelopeError α} {f : α → Except EnvelopeError β}
    {b : β} : (x >>= f) = .ok b ↔ ∃ a, x = .ok a ∧ f a = .ok b := by
  cases x with
  | error error =>
    constructor
    · rintro ⟨⟩
    · rintro ⟨a, ⟨⟩, -⟩
  | ok a =>
    constructor
    · exact fun h ↦ ⟨a, rfl, h⟩
    · rintro ⟨a', ha, h⟩
      rw [Except.ok.inj ha]
      exact h

theorem guarded_eq_ok_iff {α : Type} {p : Prop} [Decidable p] {error : EnvelopeError}
    {x : Except EnvelopeError α} {a : α} :
    (if p then .error error else x) = .ok a ↔ ¬p ∧ x = .ok a := by
  by_cases hp : p
  · rw [if_pos hp]
    constructor
    · rintro ⟨⟩
    · exact fun h ↦ absurd hp h.1
  · rw [if_neg hp, and_iff_right hp]

theorem parseNotification_eq_ok_iff {messageId : String} :
    parseNotification env messageId v = .ok e ↔
      e.pubsubMessageId = messageId ∧ Announces env v e := by
  rw [parseNotification, guarded_eq_ok_iff, Bool.not_eq_false]
  constructor
  · rintro ⟨hdict, h⟩
    obtain ⟨mailboxEmail, hmailbox, h⟩ := bind_eq_ok_iff.mp h
    obtain ⟨historyId, hhistory, h⟩ := bind_eq_ok_iff.mp h
    obtain rfl := Except.ok.inj h
    exact ⟨rfl, hdict, normalizeEmail_eq_ok_iff.mp hmailbox,
      envelopeHistoryId_eq_ok_iff.mp hhistory⟩
  · rintro ⟨rfl, hdict, hmailbox, hhistory⟩
    refine ⟨hdict, bind_eq_ok_iff.mpr ⟨_, normalizeEmail_eq_ok_iff.mpr hmailbox, ?_⟩⟩
    exact bind_eq_ok_iff.mpr ⟨_, envelopeHistoryId_eq_ok_iff.mpr hhistory, rfl⟩

theorem parseData_eq_ok_iff {messageId : String} :
    parseData env messageId encoded = .ok e ↔ e.pubsubMessageId = messageId ∧
      encoded.length ≤ env.maxEnvelopeBytes * 2 ∧ ∃ decoded notification,
        (∀ c ∈ encoded.toList, c.toNat < 128) ∧ b64decodeStandard encoded.toList = some decoded ∧
        env.givesUp decoded = false ∧ loadsData decoded = some notification ∧
        Announces env notification e := by
  rw [parseData, guarded_eq_ok_iff, Nat.not_lt]
  constructor
  · rintro ⟨hlength, h⟩
    obtain ⟨decoded, hdecoded, h⟩ := bind_eq_ok_iff.mp h
    obtain ⟨notification, hread, h⟩ := bind_eq_ok_iff.mp h
    obtain ⟨hascii, hbase64⟩ := readBase64_eq_ok_iff.mp hdecoded
    obtain ⟨hgives, hloads⟩ := readJson_eq_ok_iff.mp hread
    obtain ⟨hid, hannounces⟩ := parseNotification_eq_ok_iff.mp h
    exact ⟨hid, hlength, decoded, notification, hascii, hbase64, hgives, hloads, hannounces⟩
  · rintro ⟨hid, hlength, decoded, notification, hascii, hbase64, hgives, hloads, hannounces⟩
    refine ⟨hlength, bind_eq_ok_iff.mpr ⟨_, readBase64_eq_ok_iff.mpr ⟨hascii, hbase64⟩, ?_⟩⟩
    refine bind_eq_ok_iff.mpr ⟨_, readJson_eq_ok_iff.mpr ⟨hgives, hloads⟩, ?_⟩
    exact parseNotification_eq_ok_iff.mpr ⟨hid, hannounces⟩

theorem parseMessage_eq_ok_iff : parseMessage env v = .ok e ↔ Delivers env v e := by
  rw [parseMessage, guarded_eq_ok_iff, Bool.not_eq_false]
  constructor
  · rintro ⟨hdict, h⟩
    obtain ⟨messageId, hid, h⟩ := bind_eq_ok_iff.mp h
    obtain ⟨text, htext, hlength, hstrip, hne, hchars⟩ := boundedIdentifier_eq_ok_iff.mp hid
    split at h
    · cases h
    · rename_i encoded hencoded
      obtain ⟨rfl, hsize, decoded, notification, hdata⟩ := parseData_eq_ok_iff.mp h
      exact ⟨hdict, ⟨text, htext, hlength, hstrip, hne, hchars⟩, encoded, decoded, notification,
        str?_bind_eq_some_iff.mp hencoded, hsize, hdata⟩
  · rintro ⟨hdict, hid, encoded, decoded, notification, hencoded, hsize, hdata⟩
    refine ⟨hdict, bind_eq_ok_iff.mpr ⟨_, boundedIdentifier_eq_ok_iff.mpr hid, ?_⟩⟩
    rw [str?_bind_eq_some_iff.mpr hencoded]
    exact parseData_eq_ok_iff.mpr ⟨rfl, hsize, decoded, notification, hdata⟩

/-- **What is accepted.** -/
theorem parseNotificationEnvelope_eq_ok_iff {subscription : Option String} :
    parseNotificationEnvelope env data subscription = .ok e ↔
      data ≠ [] ∧ data.length ≤ env.maxEnvelopeBytes ∧ env.givesUp data = false ∧
        ∃ body, loadsData data = some body ∧ Carries env subscription body e := by
  rw [parseNotificationEnvelope, guarded_eq_ok_iff, not_or, Nat.not_lt, and_assoc]
  refine and_congr_right fun _ ↦ and_congr_right fun _ ↦ ?_
  constructor
  · intro h
    obtain ⟨body, hread, h⟩ := bind_eq_ok_iff.mp h
    obtain ⟨hgives, hloads⟩ := readJson_eq_ok_iff.mp hread
    obtain ⟨hplain, h⟩ := guarded_eq_ok_iff.mp h
    rw [not_or, Bool.not_eq_false, Bool.not_eq_false] at hplain
    split at h
    · cases h
    · rename_i message hmessage
      exact ⟨hgives, body, hloads, hplain.1, hplain.2, message, hmessage,
        parseMessage_eq_ok_iff.mp h⟩
  · rintro ⟨hgives, body, hloads, hdict, hsubscription, message, hmessage, hdelivers⟩
    refine bind_eq_ok_iff.mpr ⟨_, readJson_eq_ok_iff.mpr ⟨hgives, hloads⟩, ?_⟩
    refine guarded_eq_ok_iff.mpr ⟨?_, ?_⟩
    · rw [not_or, Bool.not_eq_false, Bool.not_eq_false]
      exact ⟨hdict, hsubscription⟩
    · rw [hmessage]
      exact parseMessage_eq_ok_iff.mpr hdelivers

/-- **What is accepted is well formed.** -/
theorem Carries.wellFormed {subscription : Option String} (h : Carries env subscription v e) :
    e.WellFormed env := by
  obtain ⟨message, -, hdelivers⟩ := h.message
  obtain ⟨text, -, hlength, hstrip, hne, hplain⟩ := hdelivers.messageId
  obtain ⟨encoded, decoded, notification, -, -, -, -, -, -, hannounces⟩ := hdelivers.data
  obtain ⟨address, -, -, -, -, hcount, hfolded⟩ := hannounces.mailbox
  obtain ⟨digits, -, -, -, -, -, hpos, hmax⟩ := hannounces.history
  have hshort : e.pubsubMessageId.length ≤ 255 := by
    rw [← hstrip]
    exact Nat.le_trans (length_strip_le text) hlength
  refine ⟨hne, hshort, hplain, ?_, ?_, ?_, hpos, hmax⟩
  · rw [← hfolded]
    exact env.folding.casefold_casefold _
  · rw [← hfolded]
    exact strip_casefold_strip address
  · rw [← hfolded, CaseFolding.toList_casefold, CaseFolding.count_flatMap (by decide)]
    exact hcount

end

/-! ## What is read back -/

/-- A body that carries the envelope: an object in any style with the fields that are read, and
any others. -/
inductive Posted (env : EnvelopeEnv) (subscription : Option String) (e : NotificationEnvelope) :
    Bytes → Prop
  | intro {style style' : JsonStyle} {body message notification : List (String × Json)}
      {id address : String} {data : Bytes}
      (body_readable : (Json.obj body).Readable style)
      (subscribed : equalsText ((Json.obj body).get? "subscription") subscription = true)
      (has_message : (Json.obj body).get? "message" = some (.obj message))
      (has_id : (Json.obj message).get? "messageId" = some (.str id)) (id_short : id.length ≤ 255)
      (id_eq : strip id = e.pubsubMessageId)
      (has_data : (Json.obj message).get? "data" = some (.str (String.ofList (b64encode data))))
      (data_short : (b64encode data).length ≤ env.maxEnvelopeBytes * 2)
      (data_eq : data = encodeUtf8 (Json.dump style' (.obj notification)))
      (data_readable : (Json.obj notification).Readable style')
      (data_shallow : env.givesUp data = false)
      (has_address : (Json.obj notification).get? "emailAddress" = some (.str address))
      (address_short : address.length ≤ 320)
      (address_parsed : env.parseaddr (strip address) = strip address)
      (address_eq : env.folding.casefold (strip address) = e.mailboxEmail)
      (has_history : (Json.obj notification).get? "historyId" =
        some (.str (String.ofList (Nat.toDigits 10 e.historyId)))) :
      Posted env subscription e (encodeUtf8 (Json.dump style (.obj body)))

section

variable {env : EnvelopeEnv} {subscription : Option String} {e : NotificationEnvelope}
  {rawBody : Bytes}

theorem encodeUtf8_ne_nil {style : JsonStyle} {v : Json} : encodeUtf8 (Json.dump style v) ≠ [] := by
  obtain ⟨c, rest, htext, -⟩ := Json.exists_head_dump style v
  rw [htext, encodeUtf8_cons]
  exact fun h ↦ String.utf8EncodeChar_ne_nil (List.append_eq_nil_iff.mp h).1

/-- The notification of a body that carries the envelope. -/
theorem announces_of_history {notification : Json} {address : String} (h : e.WellFormed env)
    (hdict : notification.isDict = true)
    (haddress : notification.get? "emailAddress" = some (.str address))
    (hshort : address.length ≤ 320) (hparsed : env.parseaddr (strip address) = strip address)
    (hfolded : env.folding.casefold (strip address) = e.mailboxEmail)
    (hhistory : notification.get? "historyId" =
      some (.str (String.ofList (Nat.toDigits 10 e.historyId)))) :
    Announces env notification e := by
  have hcount : (strip address).toList.count '@' = 1 := by
    have hat := h.mailbox_at
    rwa [← hfolded, CaseFolding.toList_casefold, CaseFolding.count_flatMap (by decide)] at hat
  have hne : strip address ≠ "" := by
    intro hempty
    rw [hempty] at hcount
    cases hcount
  refine ⟨hdict, ⟨address, haddress, hshort, hne, hparsed, hcount, hfolded⟩, _, hhistory, ?_, ?_,
    ?_, ?_, h.history_pos, h.history_le⟩
  · intro hempty
    have hdigits := congrArg String.toList hempty
    rw [String.toList_ofList] at hdigits
    exact Nat.toDigits_ne_nil hdigits
  · have hlength : (Nat.toDigits 10 e.historyId).length ≤ 19 :=
      (Nat.length_toDigits_le_iff (by decide) (by decide)).mpr
        (Nat.lt_of_le_of_lt h.history_le (by decide))
    rw [String.length_ofList]
    exact Nat.le_trans hlength (by decide)
  · rw [String.toList_ofList, List.all_eq_true]
    exact fun c hc ↦ Nat.isDigit_of_mem_toDigits (by decide) (by decide) hc
  · rw [String.toList_ofList, readDigits_toDigits (by decide) (by decide)]
    rfl

theorem Posted.read (hposted : Posted env subscription e rawBody) (h : e.WellFormed env)
    (hshort : rawBody.length ≤ env.maxEnvelopeBytes) (hshallow : env.givesUp rawBody = false) :
    parseNotificationEnvelope env rawBody subscription = .ok e := by
  obtain ⟨hbody, hsubscribed, hmessage, hid, hidShort, hidEq, hdata, hdataShort, rfl, hreadable,
    hdataShallow, haddress, haddressShort, hparsed, hfolded, hhistory⟩ := hposted
  refine parseNotificationEnvelope_eq_ok_iff.mpr ⟨encodeUtf8_ne_nil, hshort, hshallow, _,
    loadsData_dump hbody, rfl, hsubscribed, _, hmessage, rfl, ?_, ?_⟩
  · exact ⟨_, hid, hidShort, hidEq, h.id_ne, h.id_plain⟩
  · refine ⟨_, _, _, hdata, ?_, ?_, ?_, hdataShallow, loadsData_dump hreadable,
      announces_of_history h rfl haddress haddressShort hparsed hfolded hhistory⟩
    · rwa [String.length_ofList]
    · rw [String.toList_ofList]
      exact ascii_b64encode _
    · rw [String.toList_ofList]
      exact b64decodeStandard_b64encode _

/-! ## What is not caught -/

theorem bind_eq_uncaught {α β : Type} {x : Except EnvelopeError α}
    {f : α → Except EnvelopeError β} (h : (x >>= f) = .error .uncaught) :
    x = .error .uncaught ∨ ∃ a, x = .ok a ∧ f a = .error .uncaught := by
  cases x with
  | error error => exact Or.inl (by rw [Except.error.inj h])
  | ok a => exact Or.inr ⟨a, rfl, h⟩

theorem normalizeEmail_ne_uncaught {value : Option Json} :
    normalizeEmail env value ≠ .error .uncaught := by
  rw [normalizeEmail]
  split
  · rintro ⟨⟩
  · split
    · rintro ⟨⟩
    · dsimp only
      split
      · rintro ⟨⟩
      · rintro ⟨⟩

theorem boundedIdentifier_ne_uncaught {value : Option Json} {name : String} :
    boundedIdentifier value name ≠ .error .uncaught := by
  rw [boundedIdentifier]
  split
  · rintro ⟨⟩
  · split
    · rintro ⟨⟩
    · dsimp only
      split
      · rintro ⟨⟩
      · rintro ⟨⟩

theorem envelopeHistoryId_eq_uncaught {value : Option Json}
    (h : envelopeHistoryId value = .error .uncaught) :
    ∃ text, value = some (.str text) ∧ 4300 < text.length := by
  rw [envelopeHistoryId] at h
  split at h
  · cases h
  · rename_i text htext
    split at h
    · cases h
    · split at h
      · rename_i hlong
        exact ⟨text, str?_bind_eq_some_iff.mp htext, hlong⟩
      · dsimp only at h
        split at h
        · cases h
        · cases h

theorem readJson_eq_uncaught {data : Bytes} {message : String}
    (h : readJson env data message = .error .uncaught) : env.givesUp data = true := by
  rw [readJson] at h
  split at h
  · assumption
  · split at h
    · cases h
    · cases h

theorem readBase64_eq_uncaught {encoded : String} (h : readBase64 encoded = .error .uncaught) :
    ∃ c ∈ encoded.toList, 128 ≤ c.toNat := by
  rw [readBase64] at h
  split at h
  · rename_i hany
    obtain ⟨c, hc, hlarge⟩ := List.any_eq_true.mp hany
    exact ⟨c, hc, of_decide_eq_true hlarge⟩
  · split at h
    · cases h
    · cases h

/-- The ways in which data escapes the parser's own exception: text that is not ASCII, and JSON on
which the interpreter gives up. -/
inductive Escapes (env : EnvelopeEnv) (encoded : String) : Prop
  | text (c : Char) (mem : c ∈ encoded.toList) (large : 128 ≤ c.toNat)
  | nested (decoded : Bytes) (read : b64decodeStandard encoded.toList = some decoded)
      (givesUp : env.givesUp decoded = true)
  | digits (decoded : Bytes) (notification : Json) (digits : String)
      (read : b64decodeStandard encoded.toList = some decoded)
      (loads : loadsData decoded = some notification)
      (history : notification.get? "historyId" = some (.str digits)) (long : 4300 < digits.length)

theorem parseNotification_eq_uncaught {messageId : String} {notification : Json}
    (h : parseNotification env messageId notification = .error .uncaught) :
    ∃ digits, notification.get? "historyId" = some (.str digits) ∧ 4300 < digits.length := by
  rw [parseNotification] at h
  split at h
  · cases h
  · rcases bind_eq_uncaught h with hmailbox | ⟨mailboxEmail, -, h⟩
    · exact absurd hmailbox normalizeEmail_ne_uncaught
    · rcases bind_eq_uncaught h with hhistory | ⟨historyId, -, h⟩
      · exact envelopeHistoryId_eq_uncaught hhistory
      · cases h

theorem parseData_eq_uncaught {messageId encoded : String}
    (h : parseData env messageId encoded = .error .uncaught) : Escapes env encoded := by
  rw [parseData] at h
  split at h
  · cases h
  · rcases bind_eq_uncaught h with hbase64 | ⟨decoded, hdecoded, h⟩
    · obtain ⟨c, hc, hlarge⟩ := readBase64_eq_uncaught hbase64
      exact .text c hc hlarge
    · have hread := (readBase64_eq_ok_iff.mp hdecoded).2
      rcases bind_eq_uncaught h with hjson | ⟨notification, hloads, h⟩
      · exact .nested decoded hread (readJson_eq_uncaught hjson)
      · obtain ⟨digits, hhistory, hlong⟩ := parseNotification_eq_uncaught h
        exact .digits decoded notification digits hread (readJson_eq_ok_iff.mp hloads).2 hhistory
          hlong

/-- **What the parser lets escape.** -/
theorem parseNotificationEnvelope_eq_uncaught
    (h : parseNotificationEnvelope env rawBody subscription = .error .uncaught) :
    env.givesUp rawBody = true ∨ ∃ body message encoded, loadsData rawBody = some body ∧
      body.get? "message" = some message ∧ message.get? "data" = some (.str encoded) ∧
      Escapes env encoded := by
  rw [parseNotificationEnvelope] at h
  split at h
  · cases h
  · rcases bind_eq_uncaught h with hjson | ⟨body, hbody, h⟩
    · exact Or.inl (readJson_eq_uncaught hjson)
    · split at h
      · cases h
      · split at h
        · cases h
        · rename_i message hmessage
          rw [parseMessage] at h
          split at h
          · cases h
          · rcases bind_eq_uncaught h with hid | ⟨messageId, -, h⟩
            · exact absurd hid boundedIdentifier_ne_uncaught
            · split at h
              · cases h
              · rename_i encoded hencoded
                exact Or.inr ⟨body, message, encoded, (readJson_eq_ok_iff.mp hbody).2, hmessage,
                  str?_bind_eq_some_iff.mp hencoded, parseData_eq_uncaught h⟩

end

/-! ## Envelopes are read exactly -/

/-- What holds of every body. -/
structure EnvelopesRead (env : EnvelopeEnv) : Prop where
  /-- What is accepted is well formed. -/
  wellFormed : ∀ rawBody subscription e,
    parseNotificationEnvelope env rawBody subscription = .ok e → e.WellFormed env
  /-- Every well-formed envelope is read from every body that carries it. -/
  readBack : ∀ rawBody subscription e, e.WellFormed env → Posted env subscription e rawBody →
    rawBody.length ≤ env.maxEnvelopeBytes → env.givesUp rawBody = false →
    parseNotificationEnvelope env rawBody subscription = .ok e
  /-- A body is for one subscription. -/
  subscribed : ∀ rawBody subscription subscription' e e',
    parseNotificationEnvelope env rawBody (some subscription) = .ok e →
    parseNotificationEnvelope env rawBody subscription' = .ok e' →
    subscription' = some subscription ∧ e' = e
  /-- How a value is spelled makes no difference. -/
  spelling : ∀ (style style' : JsonStyle) fields subscription,
    (Json.obj fields).Readable style → (Json.obj fields).Readable style' →
    (∀ s ∈ [style, style'],
      (encodeUtf8 (Json.dump s (.obj fields))).length ≤ env.maxEnvelopeBytes ∧
        env.givesUp (encodeUtf8 (Json.dump s (.obj fields))) = false) →
    parseNotificationEnvelope env (encodeUtf8 (Json.dump style (.obj fields))) subscription =
      parseNotificationEnvelope env (encodeUtf8 (Json.dump style' (.obj fields))) subscription
  /-- Every other error is a `NotificationValidationError`. -/
  uncaught : ∀ rawBody subscription,
    parseNotificationEnvelope env rawBody subscription = .error .uncaught →
    env.givesUp rawBody = true ∨ ∃ body message encoded, loadsData rawBody = some body ∧
      body.get? "message" = some message ∧ message.get? "data" = some (.str encoded) ∧
      Escapes env encoded

theorem parse_of_loads {env : EnvelopeEnv} {rawBody : Bytes} {body : Json}
    (hne : rawBody ≠ []) (hshort : rawBody.length ≤ env.maxEnvelopeBytes)
    (hshallow : env.givesUp rawBody = false) (hloads : loadsData rawBody = some body)
    (subscription : Option String) :
    parseNotificationEnvelope env rawBody subscription =
      if body.isDict = false ∨ equalsText (body.get? "subscription") subscription = false then
        .error (.validation "notification subscription is invalid")
      else
        match body.get? "message" with
        | none => .error (.validation "notification message is invalid")
        | some message => parseMessage env message := by
  rw [parseNotificationEnvelope, if_neg (not_or.mpr ⟨hne, Nat.not_lt.mpr hshort⟩),
    readJson_eq_ok_iff.mpr ⟨hshallow, hloads⟩]
  rfl

theorem equalsText_some {value : Option Json} {s : String} {t : Option String}
    (h : equalsText value (some s) = true) (h' : equalsText value t = true) : t = some s := by
  rcases value with _ | value
  · cases h
  · cases value with
    | str text =>
      cases t with
      | none => cases h'
      | some t =>
        rw [← of_decide_eq_true h, ← of_decide_eq_true h']
    | _ => cases h

end Onebox.Notifications
