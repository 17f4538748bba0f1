import Onebox.Python.Json
import Onebox.Python.Text

/-!
# The credential rows

The row of `onebox_tokens`, the validation of a token payload, and the one place that writes an
encrypted credential. The codec is the row-bound authenticated encryption of
`server/security/oauth_credentials.py`; its cipher is a library's, so it is a parameter here, and
it may fail.

The column `token_json` distinguishes SQL `NULL` from a stored JSON `null`. The program only ever
sees the second difference through queries: both read back as `None`, and assigning `None` stores
the JSON `null`.
-/

namespace Onebox.Credentials

open Python

/-- A value of a `Column(JSON)` with the default `none_as_null=False`. -/
inductive JsonColumn
  | sqlNull
  | json (value : Json)

namespace JsonColumn

/-- The attribute as the program reads it; `Json.null` is Python's `None`. -/
def read : JsonColumn → Json
  | sqlNull => .null
  | json value => value

/-- What the column holds after the attribute has been set to `None`. -/
def assignNone : JsonColumn := json .null

/-- The condition `IS NOT NULL`. -/
def isNotNull : JsonColumn → Bool
  | sqlNull => false
  | json _ => true

/-- The column holds a JSON object, the form in which legacy credentials were stored. -/
def holdsObject (column : JsonColumn) : Bool := column.read.isDict

end JsonColumn

/-- The values written to `connection_status`. -/
inductive ConnectionStatus
  | pending
  | connected
  | reconnectRequired
  | quarantined
  deriving DecidableEq

/-- A user id, ordered as the primary key is. -/
abbrev UserId := ℕ

/-- A row of `onebox_tokens`. -/
structure AgentToken where
  userId : UserId
  userEmail : Option String
  tokenJson : JsonColumn
  encryptedTokenPayload : Option String
  credentialKeyId : Option String
  credentialFormatVersion : Option String
  googleEmailNormalized : Option String
  connectionStatus : ConnectionStatus

/-- Database-ready encrypted credential fields. -/
structure EncryptedCredentialPayload where
  ciphertext : String
  keyId : String
  formatVersion : String

/-- `CredentialCodecError`. -/
structure CredentialCodecError where
  message : String

/-- `OAuthCredentialCodec.encrypt` for the draws of one run: a row is encrypted at most once in a
run, so the nonce is a function of the row. -/
structure OAuthCredentialCodec where
  encrypt : Json → UserId → String → Except CredentialCodecError EncryptedCredentialPayload

/-! ## Identity -/

/-- `normalize_email`; `none` is the `ValueError`. -/
def normalizeEmail (unicode : UnicodeData) (email : String) : Option String :=
  let normalized := unicode.casefold (strip email)
  if normalized = "" then none else some normalized

/-- `_legacy_email`: the normalized column when it is filled, else the legacy one. -/
def legacyEmail (unicode : UnicodeData) (row : AgentToken) : Option String :=
  match row.googleEmailNormalized with
  | some email =>
    if email ≠ "" then normalizeEmail unicode email else legacyUserEmail
  | none => legacyUserEmail
where
  /-- The fallback to `user_email`. -/
  legacyUserEmail : Option String :=
    match row.userEmail with
    | some email => if email ≠ "" then normalizeEmail unicode email else none
    | none => none

/-! ## Token payloads -/

/-- `_granted_scopes`. -/
def grantedScopes (payload : Json) : List String :=
  match (payload.get? "scopes").orElse fun _ ↦ payload.get? "scope" with
  | some (.str scopes) => split scopes
  | some (.arr scopes) => if scopes.all (·.str?.isSome) then scopes.filterMap Json.str? else []
  | _ => []

/-- For each required permission, the scopes that grant it. -/
def requiredScopeGroups : List (List String) :=
  [ ["https://mail.google.com/", "https://www.googleapis.com/auth/gmail.modify"],
    ["https://www.googleapis.com/auth/calendar"],
    ["https://www.googleapis.com/auth/tasks"],
    ["https://www.googleapis.com/auth/userinfo.email"],
    ["openid"] ]

/-- `_validate_token_payload`; `none` is `GoogleReconnectRequired`. -/
def validateTokenPayload (payload : Json) : Option Json :=
  if !payload.isDict then none
  else
    match payload.get? "refresh_token" with
    | some (.str refreshToken) =>
      if strip refreshToken = "" then none
      else if
          requiredScopeGroups.all fun group ↦ (grantedScopes payload).any (group.contains ·) then
        some payload
      else none
    | _ => none

/-- `_write_encrypted_token`. -/
def writeEncryptedToken (codec : OAuthCredentialCodec) (row : AgentToken) (payload : Json)
    (normalizedGoogleEmail : String) : Except CredentialCodecError AgentToken := do
  let encrypted ← codec.encrypt payload row.userId normalizedGoogleEmail
  return { row with
    encryptedTokenPayload := some encrypted.ciphertext
    credentialKeyId := some encrypted.keyId
    credentialFormatVersion := some encrypted.formatVersion
    googleEmailNormalized := some normalizedGoogleEmail
    connectionStatus := .connected
    tokenJson := .assignNone }

end Onebox.Credentials
