import Onebox.Credentials.Codec
import Onebox.Python.NormalText

/-!
# Connections

The operations of `server/services/credentials.py` on the row of one user: a completed OAuth
exchange is persisted, a connection is loaded and refreshed, and a row is marked for a new
connection. Each is one transaction on the locked row, which changes nothing when it raises.

What Google and its library make of a code or of a payload enters as the answers of one call.
-/

namespace Onebox.Credentials

open Python

/-- A payload that is accepted is accepted as it is. -/
theorem eq_of_validateTokenPayload {payload payload' : Json}
    (h : validateTokenPayload payload = some payload') : payload' = payload := by
  rw [validateTokenPayload] at h
  split at h
  · cases h
  · split at h
    · split at h
      · cases h
      · split at h
        · exact (Option.some.inj h).symm
        · cases h
    · cases h

/-- A value that `json.loads` can return. -/
abbrev Loaded := {v : Json // v.DistinctKeys}

section

variable (unicode : UnicodeData) (aead : Aead) (json : JsonModule)

/-! ## Payloads -/

/-- `merge_oauth_token_payload`; `none` is `GoogleReconnectRequired`. -/
def mergeOauthTokenPayload (existingToken : Option Json) (returnedToken : Json) : Option Json :=
  match returnedToken with
  | .obj merged =>
    let existingRefreshToken := (existingToken.bind (·.get? "refresh_token")).bind Json.str?
    let replaced := ((Json.obj merged).get? "refresh_token").any Json.truthy
    match existingRefreshToken with
    | some refreshToken =>
      if replaced then some (.obj merged)
      else some (.obj (insertField "refresh_token" (.str refreshToken) merged))
    | none => some (.obj merged)
  | _ => none

/-- `_read_token_payload`, and whether the payload is a legacy one; `none` is
`GoogleReconnectRequired`. -/
def readTokenPayload (row : AgentToken) (keyring : Keyring) (normalizedGoogleEmail : String) :
    Option (Json × Bool) :=
  match row.encryptedTokenPayload.filter (· ≠ "") with
  | some ciphertext =>
    match decrypt aead json keyring ciphertext (row.credentialKeyId.getD "")
        (row.credentialFormatVersion.getD "") row.userId normalizedGoogleEmail with
    | .error _ => none
    | .ok payload => (validateTokenPayload payload).map fun payload ↦ (payload, false)
  | none =>
    if row.tokenJson.read.truthy then
      (validateTokenPayload row.tokenJson.read).map fun payload ↦ (payload, true)
    else none

/-! ## Exchanges -/

/-- `OAuthExchangeResult`, as `exchange_oauth_code` builds it. -/
structure OAuthExchangeResult where
  googleEmail : String
  normalizedGoogleEmail : String
  tokenPayload : Json
  normalized : ∃ returnedEmail, googleEmail = strip returnedEmail ∧
    normalizeEmail unicode returnedEmail = some normalizedGoogleEmail
  distinctKeys : tokenPayload.DistinctKeys

/-- What Google answers to a code: the credentials, and the email of the account, if it is one. -/
structure ExchangeAnswer where
  credentials : Loaded
  email : Option String

/-- `exchange_oauth_code`, when Google's answers arrive; `none` is `OAuthExchangeFailed`. -/
def exchangeOauthCode (answer : ExchangeAnswer) : Option (OAuthExchangeResult unicode) :=
  match hpayload : validateTokenPayload answer.credentials.1, answer.email with
  | some tokenPayload, some returnedEmail =>
    match hemail : normalizeEmail unicode returnedEmail with
    | some normalizedGoogleEmail => some {
        googleEmail := strip returnedEmail
        normalizedGoogleEmail := normalizedGoogleEmail
        tokenPayload := tokenPayload
        normalized := ⟨returnedEmail, rfl, hemail⟩
        distinctKeys := eq_of_validateTokenPayload hpayload ▸ answer.credentials.2 }
    | none => none
  | _, _ => none

/-- The exceptions of `persist_oauth_connection`. -/
inductive PersistError
  | oauthAccountMismatch
  | credentialEncryptionUnavailable
  | googleReconnectRequired
  | credentialCodecError
  deriving DecidableEq

/-- The row that `persist_oauth_connection` inserts. -/
def pendingRow (userId : UserId) : AgentToken where
  userId := userId
  userEmail := none
  tokenJson := .assignNone
  encryptedTokenPayload := none
  credentialKeyId := none
  credentialFormatVersion := none
  googleEmailNormalized := none
  connectionStatus := .pending

/-- The payload that an exchange is merged with. -/
def existingPayload (row : AgentToken) (keyring : Keyring)
    (exchange : OAuthExchangeResult unicode) : Except PersistError (Option Json) :=
  if (row.encryptedTokenPayload.filter (· ≠ "")).isSome then
    match readTokenPayload aead json row keyring exchange.normalizedGoogleEmail with
    | some (payload, _) => .ok (some payload)
    | none =>
      if (exchange.tokenPayload.get? "refresh_token").any Json.truthy then .ok none
      else .error .googleReconnectRequired
  else if row.tokenJson.read.truthy then .ok (validateTokenPayload row.tokenJson.read)
  else .ok none

/-- `persist_oauth_connection`: the row it commits, and the payload written to it. The keyring is
`none` when it is not at hand. -/
def persistOauthConnection (keyring : Option Keyring) (nonce : Nonce) (userId : UserId)
    (expectedGoogleEmail : String) (exchange : OAuthExchangeResult unicode)
    (row : Option AgentToken) : Except PersistError (AgentToken × Json) :=
  if exchange.normalizedGoogleEmail ≠ expectedGoogleEmail then .error .oauthAccountMismatch
  else
    match keyring with
    | none => .error .credentialEncryptionUnavailable
    | some keyring =>
      let row := row.getD (pendingRow userId)
      if (legacyEmail unicode row).any (· ≠ exchange.normalizedGoogleEmail) then
        .error .oauthAccountMismatch
      else
        match existingPayload unicode aead json row keyring exchange with
        | .error e => .error e
        | .ok existing =>
          match (mergeOauthTokenPayload existing exchange.tokenPayload).bind
              validateTokenPayload with
          | none => .error .googleReconnectRequired
          | some tokenPayload =>
            match writeEncryptedToken (codec aead json keyring nonce)
                { row with userEmail := some exchange.googleEmail } tokenPayload
                exchange.normalizedGoogleEmail with
            | .error _ => .error .credentialCodecError
            | .ok row => .ok (row, tokenPayload)

/-! ## Loading -/

/-- What comes of `credentials.refresh`. -/
inductive RefreshAnswer
  /-- `json.loads(credentials.to_json())`. -/
  | refreshed (token : Loaded)
  /-- `RefreshError`, `ValueError` or `TypeError`. -/
  | refused
  /-- Any other exception. -/
  | unavailable

/-- The answers of Google and its library during one load. -/
structure LoadAnswers where
  /-- `_credentials_from_payload(payload).expired`; `none` is the `ValueError` or `TypeError`. -/
  expired : Json → Option Bool
  refresh : Json → RefreshAnswer

/-- What a load comes to. -/
inductive LoadResult
  | connected
  | googleReconnectRequired
  | googleCredentialsUnavailable
  | credentialCodecError
  | credentialEncryptionUnavailable
  deriving DecidableEq

/-- `_mark_reconnect_required`. -/
def markReconnectRequired (row : AgentToken) : AgentToken :=
  { row with connectionStatus := .reconnectRequired }

/-- The payload after the refresh, if there is one, and whether it is new. The outer `none` marks
the row, the inner one leaves it. -/
def refreshedPayload (answers : LoadAnswers) (payload : Json) (expired : Bool) :
    Option (Option (Json × Bool)) :=
  if expired then
    match answers.refresh payload with
    | .refused => none
    | .unavailable => some none
    | .refreshed token =>
      match (mergeOauthTokenPayload (some payload) token.1).bind validateTokenPayload with
      | none => none
      | some merged => (answers.expired merged).map fun _ ↦ some (merged, true)
  else some (some (payload, false))

/-- The body of `load_connected_google_connection` on the locked row: the row it commits, and the
payload written to it, if one was. -/
def loadRow (keyring : Keyring) (nonce : Nonce) (answers : LoadAnswers) (row : AgentToken) :
    LoadResult × AgentToken × Option Json :=
  let marked := (LoadResult.googleReconnectRequired, markReconnectRequired row, none)
  match legacyEmail unicode row with
  | none => marked
  | some normalizedGoogleEmail =>
    match readTokenPayload aead json row keyring normalizedGoogleEmail with
    | none => marked
    | some (payload, usedLegacyPayload) =>
      match answers.expired payload with
      | none => marked
      | some expired =>
        match refreshedPayload answers payload expired with
        | none => marked
        | some none => (.googleCredentialsUnavailable, row, none)
        | some (some (payload, refreshed)) =>
          if usedLegacyPayload || refreshed then
            match writeEncryptedToken (codec aead json keyring nonce) row payload
                normalizedGoogleEmail with
            | .error _ => (.credentialCodecError, row, none)
            | .ok row => (.connected, row, some payload)
          else (.connected, row, none)

/-- `load_connected_google_connection`: what it comes to, the row it commits, and the payload
written to it, if one was. -/
def loadConnectedGoogleConnection (keyring : Option Keyring) (nonce : Nonce) (answers : LoadAnswers)
    (row : Option AgentToken) : LoadResult × Option AgentToken × Option Json :=
  match keyring, row with
  | none, row => (.credentialEncryptionUnavailable, row, none)
  | some _, none => (.googleReconnectRequired, none, none)
  | some keyring, some row =>
    if row.connectionStatus ≠ .connected then (.googleReconnectRequired, some row, none)
    else
      let (result, row, written) := loadRow unicode aead json keyring nonce answers row
      (result, some row, written)

end

end Onebox.Credentials
