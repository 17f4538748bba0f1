import Onebox.Credentials.Token
import Onebox.Python.Base64
import Onebox.Python.JsonRead
import Onebox.Python.Uuid

/-!
# The credential codec

`OAuthCredentialCodec`: a token payload is encrypted under the active key, and bound to the user and
to the Google account through the authenticated data. The cipher and `json.loads` are parameters
with what is relied on: decryption undoes encryption and refuses another key or other authenticated
data, and reading undoes writing, up to the order of keys.
-/

namespace Onebox.Credentials

open Python

/-! ## What is relied on -/

/-- `AESGCM(key)`; `none` is the `InvalidTag`. -/
structure Aead where
  /-- `encrypt(nonce, data, associated_data)` under a key. -/
  encrypt : Bytes → Bytes → Bytes → Bytes → Bytes
  /-- `decrypt(nonce, data, associated_data)` under a key. -/
  decrypt : Bytes → Bytes → Bytes → Bytes → Option Bytes
  encrypt_ne_nil : ∀ key nonce data aad, encrypt key nonce data aad ≠ []
  decrypt_encrypt : ∀ key nonce data aad,
    decrypt key nonce (encrypt key nonce data aad) aad = some data
  decrypt_other : ∀ key key' nonce data aad aad', key ≠ key' ∨ aad ≠ aad' →
    decrypt key' nonce (encrypt key nonce data aad) aad' = none

/-- `json.dumps`, as far as numbers go, and `json.loads`, which undoes it. -/
structure JsonModule where
  number : NumberText
  /-- `none` is the `ValueError`. -/
  loads : Bytes → Option Json
  loads_dumps : ∀ fields, (Json.obj fields).DistinctKeys →
    loads (encodeUtf8 (Json.dumps number (.obj fields)).toList) = some (Json.sortKeys (.obj fields))

/-! ## Keys -/

/-- The keyring and the active key of an `OAuthCredentialCodec`. -/
structure Keyring where
  keys : String → Option Bytes
  activeKeyId : String
  activeKey : Bytes
  active_mem : keys activeKeyId = some activeKey
  length_eq : ∀ id key, keys id = some key → key.length = 32

/-- `os.urandom(_NONCE_BYTES)`. -/
abbrev Nonce := {bytes : Bytes // bytes.length = 12}

/-! ## The codec -/

/-- `FORMAT_VERSION`. -/
def formatVersion : String := "v1"

/-- `text.encode("utf-8")`. -/
def utf8 (s : String) : Bytes := encodeUtf8 s.toList

/-- The user's `UUID`. -/
def uuidOf (userId : UserId) : Uuid := Fin.ofNat (2 ^ 128) userId

/-- `_aad`. -/
def aad (userId : UserId) (normalizedGoogleEmail formatVersion : String) : Bytes :=
  utf8 "onebox.oauth-credentials" ++ 0 :: (utf8 formatVersion ++ 0 ::
    (utf8 (uuidOf userId).toText ++ 0 :: utf8 normalizedGoogleEmail))

/-- `_canonical_payload`. -/
def canonicalPayload (json : JsonModule) (payload : Json) : Except CredentialCodecError Bytes :=
  if payload.isDict then .ok (utf8 (Json.dumps json.number payload))
  else .error ⟨"OAuth credential payload is invalid"⟩

/-- `OAuthCredentialCodec.encrypt`. -/
def encrypt (aead : Aead) (json : JsonModule) (keyring : Keyring) (nonce : Nonce) (payload : Json)
    (userId : UserId) (normalizedGoogleEmail : String) :
    Except CredentialCodecError EncryptedCredentialPayload := do
  let plaintext ← canonicalPayload json payload
  let ciphertext := aead.encrypt keyring.activeKey nonce.1 plaintext
    (aad userId normalizedGoogleEmail formatVersion)
  return {
    ciphertext := String.ofList (urlsafeB64encode (nonce.1 ++ ciphertext))
    keyId := keyring.activeKeyId
    formatVersion := formatVersion }

/-- `OAuthCredentialCodec.decrypt`. -/
def decrypt (aead : Aead) (json : JsonModule) (keyring : Keyring)
    (ciphertext keyId version : String) (userId : UserId) (normalizedGoogleEmail : String) :
    Except CredentialCodecError Json :=
  let unavailable := .error ⟨"OAuth credential payload is unavailable"⟩
  if version ≠ formatVersion then unavailable
  else
    match keyring.keys keyId with
    | none => unavailable
    | some key =>
      match b64decode ciphertext.toList with
      | none => unavailable
      | some encrypted =>
        if encrypted.length ≤ 12 then unavailable
        else
          match aead.decrypt key (encrypted.take 12) (encrypted.drop 12)
              (aad userId normalizedGoogleEmail version) with
          | none => unavailable
          | some plaintext =>
            match json.loads plaintext with
            | none => unavailable
            | some payload =>
              if payload.isDict then .ok payload
              else .error ⟨"OAuth credential payload is invalid"⟩

/-- The codec of one run, as the writes take it. -/
def codec (aead : Aead) (json : JsonModule) (keyring : Keyring) (nonce : Nonce) :
    OAuthCredentialCodec where
  encrypt := encrypt aead json keyring nonce

/-! ## The authenticated data -/

theorem encodeUtf8_append (cs ds : List Char) :
    encodeUtf8 (cs ++ ds) = encodeUtf8 cs ++ encodeUtf8 ds := by
  rw [encodeUtf8, String.ofList_append, String.toUTF8_eq_toByteArray, String.toByteArray_append,
    ByteArray.toList_data_append]
  rfl

theorem encodeUtf8_injective {cs ds : List Char} (h : encodeUtf8 cs = encodeUtf8 ds) : cs = ds := by
  have hread := fromUTF8_encodeUtf8 cs
  rw [h, fromUTF8_encodeUtf8] at hread
  exact (String.ofList_injective (Option.some.inj hread)).symm

/-- The authenticated data is a text in UTF-8. -/
theorem aad_eq (userId : UserId) (email version : String) :
    aad userId email version = encodeUtf8 ("onebox.oauth-credentials".toList ++ Char.ofNat 0 ::
      (version.toList ++ Char.ofNat 0 ::
        ((uuidOf userId).text ++ Char.ofNat 0 :: email.toList))) := by
  have hcons : ∀ cs : List Char, encodeUtf8 (Char.ofNat 0 :: cs) = 0 :: encodeUtf8 cs := by
    intro cs
    have hzero : encodeUtf8 [Char.ofNat 0] = [0] := by decide
    change encodeUtf8 ([Char.ofNat 0] ++ cs) = _
    rw [encodeUtf8_append, hzero]
    rfl
  rw [encodeUtf8_append, hcons, encodeUtf8_append, hcons, encodeUtf8_append, hcons]
  simp only [aad, utf8, Uuid.toText, String.toList_ofList]

theorem length_text (id : Uuid) : id.text.length = 36 := by
  have hlength : id.hex.length = 32 := length_padDigits
  simp only [Uuid.text, List.length_append, List.length_cons, List.length_take, List.length_drop,
    hlength]
  decide

/-- **The authenticated data determines the user and the account.** -/
theorem aad_injective {userId userId' : UserId} {email email' version : String}
    (hid : userId < 2 ^ 128) (hid' : userId' < 2 ^ 128)
    (h : aad userId email version = aad userId' email' version) :
    userId = userId' ∧ email = email' := by
  rw [aad_eq, aad_eq] at h
  have htext := List.append_cancel_left (encodeUtf8_injective h)
  have hrest := List.append_cancel_left (List.cons.inj htext).2
  obtain ⟨huser, hemail⟩ := List.append_inj (List.cons.inj hrest).2
    ((length_text _).trans (length_text _).symm)
  have huuid : uuidOf userId = uuidOf userId' := by
    have hread := Uuid.ofText_text (uuidOf userId)
    rw [huser, Uuid.ofText_text] at hread
    exact (Option.some.inj hread).symm
  refine ⟨?_, String.toList_injective (List.cons.inj hemail).2⟩
  have hval := congrArg Fin.val huuid
  rwa [uuidOf, uuidOf, Fin.val_ofNat, Fin.val_ofNat, Nat.mod_eq_of_lt hid, Nat.mod_eq_of_lt hid']
    at hval

/-! ## Encryption and decryption -/

section

variable {aead : Aead} {json : JsonModule} {keyring keyring' : Keyring} {nonce : Nonce}
  {payload : Json} {userId userId' : UserId} {email email' : String}
  {encrypted : EncryptedCredentialPayload}

/-- What is encrypted is a dictionary, under the active key. -/
theorem encrypt_eq_ok (h : encrypt aead json keyring nonce payload userId email = .ok encrypted) :
    payload.isDict = true ∧ encrypted = {
      ciphertext := String.ofList (urlsafeB64encode (nonce.1 ++ aead.encrypt keyring.activeKey
        nonce.1 (utf8 (Json.dumps json.number payload)) (aad userId email formatVersion)))
      keyId := keyring.activeKeyId
      formatVersion := formatVersion } := by
  rw [encrypt, canonicalPayload] at h
  by_cases hdict : payload.isDict = true
  · rw [if_pos hdict] at h
    exact ⟨hdict, (Except.ok.inj h).symm⟩
  · rw [if_neg hdict] at h
    cases h

/-- A dictionary is encrypted. -/
theorem exists_encrypt_eq (hdict : payload.isDict = true) :
    ∃ encrypted, encrypt aead json keyring nonce payload userId email = .ok encrypted := by
  rw [encrypt, canonicalPayload, if_pos hdict]
  exact ⟨_, rfl⟩

/-- The ciphertext is not empty. -/
theorem ciphertext_ne_empty
    (h : encrypt aead json keyring nonce payload userId email = .ok encrypted) :
    encrypted.ciphertext ≠ "" := by
  obtain ⟨-, rfl⟩ := encrypt_eq_ok h
  intro hempty
  have hchars : urlsafeB64encode (nonce.1 ++ aead.encrypt keyring.activeKey nonce.1
      (utf8 (Json.dumps json.number payload)) (aad userId email formatVersion)) = [] :=
    String.ofList_injective hempty
  have hread := urlsafeB64decode_urlsafeB64encode (nonce.1 ++ aead.encrypt keyring.activeKey
    nonce.1 (utf8 (Json.dumps json.number payload)) (aad userId email formatVersion))
  rw [hchars] at hread
  have hnil := congrArg List.length (Option.some.inj hread)
  rw [List.length_append, nonce.2, List.length_nil] at hnil
  omega

/-- What decryption comes to, for whichever user and account. -/
theorem decrypt_encrypt_eq
    (h : encrypt aead json keyring nonce payload userId email = .ok encrypted)
    (hkey : keyring'.keys encrypted.keyId = some keyring.activeKey) :
    decrypt aead json keyring' encrypted.ciphertext encrypted.keyId encrypted.formatVersion userId'
        email' =
      match aead.decrypt keyring.activeKey nonce.1 (aead.encrypt keyring.activeKey nonce.1
          (utf8 (Json.dumps json.number payload)) (aad userId email formatVersion))
          (aad userId' email' formatVersion) with
      | none => .error ⟨"OAuth credential payload is unavailable"⟩
      | some plaintext =>
        match json.loads plaintext with
        | none => .error ⟨"OAuth credential payload is unavailable"⟩
        | some payload =>
          if payload.isDict then .ok payload
          else .error ⟨"OAuth credential payload is invalid"⟩ := by
  obtain ⟨-, rfl⟩ := encrypt_eq_ok h
  have hlong : ¬(nonce.1 ++ aead.encrypt keyring.activeKey nonce.1
      (utf8 (Json.dumps json.number payload)) (aad userId email formatVersion)).length ≤ 12 := by
    have hpos := List.length_pos_of_ne_nil (aead.encrypt_ne_nil keyring.activeKey nonce.1
      (utf8 (Json.dumps json.number payload)) (aad userId email formatVersion))
    rw [List.length_append, nonce.2]
    omega
  rw [decrypt]
  dsimp only
  rw [if_neg (not_not.mpr rfl), hkey]
  dsimp only
  rw [String.toList_ofList, b64decode_urlsafeB64encode]
  dsimp only
  rw [if_neg hlong, List.take_left' nonce.2, List.drop_left' nonce.2]

/-- **What was encrypted is read back**, up to the order of keys, under any keyring that has the
key. -/
theorem decrypt_encrypt
    (h : encrypt aead json keyring nonce payload userId email = .ok encrypted)
    (hdistinct : payload.DistinctKeys)
    (hkey : keyring'.keys encrypted.keyId = some keyring.activeKey) :
    decrypt aead json keyring' encrypted.ciphertext encrypted.keyId encrypted.formatVersion userId
      email = .ok payload.sortKeys := by
  rw [decrypt_encrypt_eq h hkey, aead.decrypt_encrypt]
  obtain ⟨hdict, -⟩ := encrypt_eq_ok h
  cases payload with
  | obj fields =>
    dsimp only
    rw [utf8, json.loads_dumps fields hdistinct]
    rfl
  | null | bool | num | str | arr => cases hdict

/-- **No other user and no other account reads it.** -/
theorem decrypt_other
    (h : encrypt aead json keyring nonce payload userId email = .ok encrypted)
    (hkey : keyring'.keys encrypted.keyId = some keyring.activeKey) (hid : userId < 2 ^ 128)
    (hid' : userId' < 2 ^ 128) (hother : userId ≠ userId' ∨ email ≠ email') :
    decrypt aead json keyring' encrypted.ciphertext encrypted.keyId encrypted.formatVersion userId'
      email' = .error ⟨"OAuth credential payload is unavailable"⟩ := by
  have haad : aad userId email formatVersion ≠ aad userId' email' formatVersion := by
    intro heq
    obtain ⟨huser, hemail⟩ := aad_injective hid hid' heq
    exact hother.elim (· huser) (· hemail)
  rw [decrypt_encrypt_eq h hkey, aead.decrypt_other _ _ _ _ _ _ (Or.inr haad)]

end

/-! ## A cipher and a reader

What is relied on is possible: a sealed envelope instead of a cipher, and the inverse of writing. -/

/-- Bytes with a mark before each, and one at the end. -/
def frame (bytes : Bytes) : Bytes := bytes.flatMap (fun byte ↦ [1, byte]) ++ [0]

theorem frame_append_inj {bytes bytes' rest rest' : Bytes}
    (h : frame bytes ++ rest = frame bytes' ++ rest') : bytes = bytes' ∧ rest = rest' := by
  induction bytes generalizing bytes' with
  | nil =>
    cases bytes' with
    | nil => exact ⟨rfl, (List.cons.inj h).2⟩
    | cons byte' bytes' => exact absurd (List.cons.inj h).1 (by decide)
  | cons byte bytes ih =>
    cases bytes' with
    | nil => exact absurd (List.cons.inj h).1 (by decide)
    | cons byte' bytes' =>
      obtain ⟨hbyte, hrest⟩ := List.cons.inj (List.cons.inj h).2
      obtain ⟨hbytes, hrest⟩ := ih hrest
      exact ⟨by rw [hbyte, hbytes], hrest⟩

/-- An envelope that shows its key and its authenticated data. -/
def envelope : Aead where
  encrypt key _ data aad := frame key ++ (frame aad ++ data)
  decrypt key _ data aad :=
    if frame key ++ frame aad <+: data then some (data.drop (frame key ++ frame aad).length)
    else none
  encrypt_ne_nil key nonce data aad h := by
    have hframe := (List.append_eq_nil_iff.mp (List.append_eq_nil_iff.mp h).1).2
    cases hframe
  decrypt_encrypt key nonce data aad := by
    rw [← List.append_assoc, if_pos (List.prefix_append _ data), List.drop_left]
  decrypt_other key key' nonce data aad aad' hother := by
    refine if_neg ?_
    rintro ⟨rest, hrest⟩
    rw [List.append_assoc] at hrest
    obtain ⟨rfl, haad⟩ := frame_append_inj hrest
    obtain ⟨rfl, -⟩ := frame_append_inj haad
    exact hother.elim (· rfl) (· rfl)

open Classical in
/-- The reader that undoes writing. -/
noncomputable def inverseReader : JsonModule where
  number := .decimal
  loads data :=
    if h : ∃ fields, encodeUtf8 (Json.dumps .decimal (.obj fields)).toList = data then
      some (Json.sortKeys (.obj h.choose))
    else none
  loads_dumps fields _ := by
    have h : ∃ fields', encodeUtf8 (Json.dumps .decimal (.obj fields')).toList =
        encodeUtf8 (Json.dumps .decimal (.obj fields)).toList := ⟨fields, rfl⟩
    rw [dif_pos h]
    exact congrArg some
      (Json.dumps_injective (String.toList_injective (encodeUtf8_injective h.choose_spec)))

end Onebox.Credentials
