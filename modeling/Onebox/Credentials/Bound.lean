import Onebox.Credentials.Connection
import Onebox.Transition.System

/-!
# Stored credentials stay readable and bound

Over every sequence of exchanges, loads, marks and key rotations, what is stored is what was written
last, readable under the email that the row gives, and by no other user and under no other email.
The email, once the row gives one, stays.
-/

namespace Onebox.Credentials

open Python Transition

/-! ## The order of keys does not matter -/

/-- Sorting is stable, so the entry that decides stays the same. -/
theorem lookup_mergeSort (key : String) (fields : List (String × Json)) :
    (fields.mergeSort fun field field' ↦ field.1 ≤ field'.1).lookup key = fields.lookup key := by
  have htrans : ∀ a b c : String × Json, decide (a.1 ≤ b.1) = true → decide (b.1 ≤ c.1) = true →
      decide (a.1 ≤ c.1) = true := fun a b c hab hbc ↦
    decide_eq_true (String.le_trans (of_decide_eq_true hab) (of_decide_eq_true hbc))
  have htotal : ∀ a b : String × Json, (decide (a.1 ≤ b.1) || decide (b.1 ≤ a.1)) = true := by
    intro a b
    simpa using String.le_total a.1 b.1
  have hlookup : ∀ l : List (String × Json),
      l.lookup key = ((l.filter fun field ↦ key == field.1).head?).map Prod.snd := by
    intro l
    induction l with
    | nil => rfl
    | cons field l ih =>
      obtain ⟨name, value⟩ := field
      rw [List.lookup_cons]
      cases hkey : key == name with
      | true => rw [List.filter_cons, if_pos hkey]; rfl
      | false => rw [List.filter_cons, if_neg (by simp [hkey]), ih]
  have hpairwise : (fields.filter fun field ↦ key == field.1).Pairwise
      fun field field' ↦ decide (field.1 ≤ field'.1) = true := by
    refine List.pairwise_of_forall_mem_list fun a ha b hb ↦ decide_eq_true ?_
    rw [← eq_of_beq (List.mem_filter.mp ha).2, ← eq_of_beq (List.mem_filter.mp hb).2]
  have hsub : (fields.filter fun field ↦ key == field.1).Sublist
      ((fields.mergeSort fun field field' ↦ field.1 ≤ field'.1).filter
        fun field ↦ key == field.1) := by
    have hsorted := (List.sublist_mergeSort htrans htotal hpairwise List.filter_sublist).filter
      fun field : String × Json ↦ key == field.1
    rwa [List.filter_filter, show (fun field : String × Json ↦ key == field.1 && key == field.1) =
      fun field ↦ key == field.1 from funext fun _ ↦ Bool.and_self _] at hsorted
  have hlength : (fields.filter fun field ↦ key == field.1).length =
      ((fields.mergeSort fun field field' ↦ field.1 ≤ field'.1).filter
        fun field ↦ key == field.1).length :=
    (((List.mergeSort_perm fields _).filter _).length_eq).symm
  rw [hlookup, hlookup, hsub.eq_of_length hlength]

theorem lookup_sortFields (key : String) (fields : List (String × Json)) :
    (Json.sortFields fields).lookup key = (fields.lookup key).map Json.sortKeys := by
  induction fields with
  | nil => rfl
  | cons field fields ih =>
    obtain ⟨name, value⟩ := field
    rw [Json.sortFields, List.lookup_cons, List.lookup_cons]
    cases key == name with
    | true => rfl
    | false => exact ih

theorem get?_sortKeys (key : String) (payload : Json) :
    payload.sortKeys.get? key = (payload.get? key).map Json.sortKeys := by
  cases payload with
  | obj fields => rw [Json.sortKeys, Json.get?, lookup_mergeSort, lookup_sortFields]; rfl
  | null | bool | num | str | arr => rfl

theorem str?_sortKeys (v : Json) : v.sortKeys.str? = v.str? := by
  cases v with
  | obj fields => rfl
  | null | bool | num | str | arr => rfl

theorem grantedScopes_sortKeys (payload : Json) :
    grantedScopes payload.sortKeys = grantedScopes payload := by
  have hitems : ∀ items : List Json,
      (Json.sortItems items).all (·.str?.isSome) = items.all (·.str?.isSome) ∧
        (Json.sortItems items).filterMap Json.str? = items.filterMap Json.str? := by
    intro items
    induction items with
    | nil => exact ⟨rfl, rfl⟩
    | cons v items ih =>
      rw [Json.sortItems, List.all_cons, List.all_cons, ih.1, str?_sortKeys, List.filterMap_cons,
        List.filterMap_cons, ih.2, str?_sortKeys]
      exact ⟨rfl, rfl⟩
  rw [grantedScopes, grantedScopes, get?_sortKeys, get?_sortKeys]
  have hsorted : ((payload.get? "scopes").map Json.sortKeys).orElse
      (fun _ ↦ (payload.get? "scope").map Json.sortKeys) =
        ((payload.get? "scopes").orElse fun _ ↦ payload.get? "scope").map Json.sortKeys := by
    cases payload.get? "scopes" <;> rfl
  rw [hsorted]
  cases (payload.get? "scopes").orElse fun _ ↦ payload.get? "scope" with
  | none => rfl
  | some scopes =>
    cases scopes with
    | arr items =>
      rw [Option.map_some, Json.sortKeys]
      dsimp only
      rw [(hitems items).1, (hitems items).2]
    | null | bool | num | str | obj => rfl

/-- **A payload is accepted whatever the order of its keys.** -/
theorem validateTokenPayload_sortKeys {payload : Json}
    (h : validateTokenPayload payload = some payload) :
    validateTokenPayload payload.sortKeys = some payload.sortKeys := by
  have hdict : payload.sortKeys.isDict = payload.isDict := by
    cases payload with
    | obj fields => rfl
    | null | bool | num | str | arr => rfl
  rw [validateTokenPayload] at h ⊢
  rw [hdict, get?_sortKeys, grantedScopes_sortKeys]
  split at h
  · cases h
  · rename_i hnot
    rw [if_neg hnot]
    split at h
    · rename_i refreshToken hget
      rw [hget, Option.map_some]
      split at h
      · cases h
      · rename_i hblank
        dsimp only [Json.sortKeys]
        rw [if_neg hblank]
        split at h
        · rename_i hscopes
          rw [if_pos hscopes]
        · cases h
    · cases h

/-! ## Normalized emails -/

section

variable {unicode : UnicodeData} {folding : CaseFolding} {email normalized : String}
  {row : AgentToken}

theorem normalizeEmail_eq_some (h : normalizeEmail unicode email = some normalized) :
    normalized ≠ "" ∧ unicode.casefold (strip email) = normalized := by
  rw [normalizeEmail] at h
  by_cases hblank : unicode.casefold (strip email) = ""
  · rw [if_pos hblank] at h
    cases h
  · rw [if_neg hblank] at h
    obtain rfl := Option.some.inj h
    exact ⟨hblank, rfl⟩

/-- **Normalization changes nothing the second time.** -/
theorem normalizeEmail_normalized (hcasefold : unicode.casefold = folding.casefold)
    (h : normalizeEmail unicode email = some normalized) :
    normalizeEmail unicode normalized = some normalized := by
  obtain ⟨hne, rfl⟩ := normalizeEmail_eq_some h
  rw [hcasefold] at hne ⊢
  rw [normalizeEmail, strip_casefold_strip, hcasefold, CaseFolding.casefold_casefold]
  exact if_neg hne

theorem exists_of_legacyUserEmail
    (h : legacyEmail.legacyUserEmail unicode row = some normalized) :
    ∃ email, normalizeEmail unicode email = some normalized := by
  rw [legacyEmail.legacyUserEmail] at h
  split at h
  · split at h
    · exact ⟨_, h⟩
    · cases h
  · cases h

theorem exists_of_legacyEmail (h : legacyEmail unicode row = some normalized) :
    ∃ email, normalizeEmail unicode email = some normalized := by
  rw [legacyEmail] at h
  split at h
  · split at h
    · exact ⟨_, h⟩
    · exact exists_of_legacyUserEmail h
  · exact exists_of_legacyUserEmail h

/-- The email of a row whose normalized column is normalized. -/
theorem legacyEmail_of_normalized (hrow : row.googleEmailNormalized = some email)
    (hemail : normalizeEmail unicode email = some email) :
    legacyEmail unicode row = some email := by
  rw [legacyEmail, hrow]
  dsimp only
  rw [if_pos (normalizeEmail_eq_some hemail).1, hemail]

end

/-! ## What a row holds -/

section

variable (unicode : UnicodeData) (aead : Aead) (json : JsonModule)

/-- The row holds the payload, encrypted under the active key of a keyring and bound to its user and
to its email. -/
structure Holds (row : AgentToken) (keyring : Keyring) (payload : Json) (email : String) :
    Prop where
  encrypted : ∃ nonce encrypted,
    encrypt aead json keyring nonce payload row.userId email = .ok encrypted ∧
      row.encryptedTokenPayload = some encrypted.ciphertext ∧
      row.credentialKeyId = some encrypted.keyId ∧
      row.credentialFormatVersion = some encrypted.formatVersion
  valid : validateTokenPayload payload = some payload
  distinctKeys : payload.DistinctKeys
  column : row.googleEmailNormalized = some email
  normalized : normalizeEmail unicode email = some email

variable {unicode aead json} {row row' : AgentToken} {keyring keyring' : Keyring} {nonce : Nonce}
  {payload : Json} {email : String}

/-- Writing makes the row hold what is written. -/
theorem holds_of_writeEncryptedToken
    (h : writeEncryptedToken (codec aead json keyring nonce) row payload email = .ok row')
    (hvalid : validateTokenPayload payload = some payload) (hdistinct : payload.DistinctKeys)
    (hemail : normalizeEmail unicode email = some email) :
    Holds unicode aead json row' keyring payload email ∧ row'.userId = row.userId ∧
      row'.tokenJson = .assignNone := by
  rw [writeEncryptedToken, codec] at h
  dsimp only at h
  cases hencrypt : encrypt aead json keyring nonce payload row.userId email with
  | error e =>
    rw [hencrypt] at h
    cases h
  | ok encrypted =>
    rw [hencrypt] at h
    obtain rfl := Except.ok.inj h
    exact ⟨⟨⟨nonce, encrypted, hencrypt, rfl, rfl, rfl⟩, hvalid, hdistinct, rfl, hemail⟩, rfl, rfl⟩

namespace Holds

theorem legacyEmail_eq (h : Holds unicode aead json row keyring payload email) :
    legacyEmail unicode row = some email := legacyEmail_of_normalized h.column h.normalized

/-- What reading comes to, for whichever user and email. -/
theorem exists_readTokenPayload (h : Holds unicode aead json row keyring payload email)
    (hkey : keyring'.keys keyring.activeKeyId = some keyring.activeKey) (userId : UserId)
    (email' : String) :
    ∃ nonce encrypted, encrypt aead json keyring nonce payload row.userId email = .ok encrypted ∧
      keyring'.keys encrypted.keyId = some keyring.activeKey ∧
      readTokenPayload aead json { row with userId := userId } keyring' email' =
        match decrypt aead json keyring' encrypted.ciphertext encrypted.keyId
            encrypted.formatVersion userId email' with
        | .error _ => none
        | .ok payload => (validateTokenPayload payload).map fun payload ↦ (payload, false) := by
  obtain ⟨nonce, encrypted, hencrypt, hcipher, hid, hversion⟩ := h.encrypted
  refine ⟨nonce, encrypted, hencrypt, ?_, ?_⟩
  · rw [(encrypt_eq_ok hencrypt).2]
    exact hkey
  · have hset : row.encryptedTokenPayload.filter (· ≠ "") = some encrypted.ciphertext := by
      rw [hcipher, Option.filter_some, if_pos (decide_eq_true (ciphertext_ne_empty hencrypt))]
    rw [readTokenPayload]
    dsimp only
    rw [hset, hid, hversion]
    rfl

/-- A keyring that has the key reads what the row holds. -/
theorem readTokenPayload_eq (h : Holds unicode aead json row keyring payload email)
    (hkey : keyring'.keys keyring.activeKeyId = some keyring.activeKey) :
    readTokenPayload aead json row keyring' email = some (payload.sortKeys, false) := by
  obtain ⟨nonce, encrypted, hencrypt, hkey', hread⟩ :=
    h.exists_readTokenPayload hkey row.userId email
  rw [decrypt_encrypt hencrypt h.distinctKeys hkey'] at hread
  dsimp only at hread
  rw [validateTokenPayload_sortKeys h.valid] at hread
  exact hread

/-- No other user and no other email reads it. -/
theorem readTokenPayload_other (h : Holds unicode aead json row keyring payload email)
    (hkey : keyring'.keys keyring.activeKeyId = some keyring.activeKey)
    (hid : row.userId < 2 ^ 128) {userId : UserId} (hid' : userId < 2 ^ 128) {email' : String}
    (hother : row.userId ≠ userId ∨ email ≠ email') :
    readTokenPayload aead json { row with userId := userId } keyring' email' = none := by
  obtain ⟨nonce, encrypted, hencrypt, hkey', hread⟩ := h.exists_readTokenPayload hkey userId email'
  rw [hread, decrypt_other hencrypt hkey' hid hid' hother]

end Holds

/-! ## What the operations write -/

theorem eq_of_readTokenPayload {usedLegacy : Bool}
    (h : readTokenPayload aead json row keyring email = some (payload, usedLegacy)) :
    validateTokenPayload payload = some payload := by
  have hvalidated : ∀ {read : Json} {legacy : Bool},
      (validateTokenPayload read).map (fun payload ↦ (payload, legacy)) =
        some (payload, usedLegacy) → validateTokenPayload payload = some payload := by
    intro read legacy hmap
    obtain ⟨payload', hvalid, heq⟩ := Option.map_eq_some_iff.mp hmap
    obtain rfl := (Prod.mk.inj heq).1
    obtain rfl := eq_of_validateTokenPayload hvalid
    exact hvalid
  rw [readTokenPayload] at h
  split at h
  · split at h
    · cases h
    · exact hvalidated h
  · split at h
    · exact hvalidated h
    · cases h

/-- Merging adds at most a text. -/
theorem distinctKeys_merge {existing : Option Json} {returned merged : Json}
    (hdistinct : returned.DistinctKeys)
    (h : (mergeOauthTokenPayload existing returned).bind validateTokenPayload = some merged) :
    validateTokenPayload merged = some merged ∧ merged.DistinctKeys := by
  obtain ⟨token, hmerge, hvalid⟩ := Option.bind_eq_some_iff.mp h
  obtain rfl := eq_of_validateTokenPayload hvalid
  refine ⟨hvalid, ?_⟩
  rw [mergeOauthTokenPayload.eq_def] at hmerge
  split at hmerge
  · dsimp only at hmerge
    split at hmerge
    · split at hmerge
      · exact Option.some.inj hmerge ▸ hdistinct
      · exact Option.some.inj hmerge ▸ distinctKeys_insertField trivial hdistinct
    · exact Option.some.inj hmerge ▸ hdistinct
  · cases hmerge

/-- A connection that is persisted is held, under the email of the exchange, which is the expected
one and that of the row, if it has one. -/
theorem persistOauthConnection_eq_ok {expectedGoogleEmail : String} {userId : UserId}
    {keyring? : Option Keyring} {exchange : OAuthExchangeResult unicode}
    {row? : Option AgentToken} {folding : CaseFolding}
    (hcasefold : unicode.casefold = folding.casefold)
    (h : persistOauthConnection unicode aead json keyring? nonce userId expectedGoogleEmail exchange
      row? = .ok (row', payload)) :
    exchange.normalizedGoogleEmail = expectedGoogleEmail ∧
      (∀ email ∈ legacyEmail unicode (row?.getD (pendingRow userId)),
        email = exchange.normalizedGoogleEmail) ∧
      ∃ keyring ∈ keyring?,
        Holds unicode aead json row' keyring payload exchange.normalizedGoogleEmail ∧
          row'.userId = (row?.getD (pendingRow userId)).userId ∧
          row'.tokenJson = .assignNone := by
  rw [persistOauthConnection.eq_def] at h
  split at h
  · cases h
  · rename_i hexpected
    split at h
    · cases h
    · rename_i keyring
      dsimp only at h
      split at h
      · cases h
      · rename_i hemail
        split at h
        · cases h
        · split at h
          · cases h
          · rename_i tokenPayload hmerge
            split at h
            · cases h
            · rename_i row'' hwrite
              obtain ⟨rfl, rfl⟩ := Prod.mk.inj (Except.ok.inj h)
              obtain ⟨returnedEmail, -, hnormalized⟩ := exchange.normalized
              obtain ⟨hvalid, hdistinct⟩ := distinctKeys_merge exchange.distinctKeys hmerge
              have hholds := holds_of_writeEncryptedToken hwrite hvalid hdistinct
                (normalizeEmail_normalized hcasefold hnormalized)
              refine ⟨not_not.mp hexpected, ?_, keyring, rfl, hholds⟩
              intro email hmem
              by_contra hne
              refine hemail ?_
              rw [hmem]
              exact decide_eq_true hne

/-- The payload of a connection is valid, refreshed or not. -/
theorem refreshedPayload_eq_some {answers : LoadAnswers} {current : Json} {expired refreshed : Bool}
    (hvalid : validateTokenPayload payload = some payload) (hdistinct : payload.DistinctKeys)
    (h : refreshedPayload answers payload expired = some (some (current, refreshed))) :
    validateTokenPayload current = some current ∧ current.DistinctKeys := by
  rw [refreshedPayload] at h
  split at h
  · split at h
    · cases h
    · cases h
    · rename_i token _
      split at h
      · cases h
      · rename_i merged hmerge
        obtain ⟨_, -, heq⟩ := Option.map_eq_some_iff.mp h
        obtain ⟨rfl, -⟩ := Prod.mk.inj (Option.some.inj heq)
        exact distinctKeys_merge token.2 hmerge
  · obtain ⟨rfl, -⟩ := Prod.mk.inj (Option.some.inj (Option.some.inj h))
    exact ⟨hvalid, hdistinct⟩

/-- What a load does to a row: nothing, a mark, or a write of a payload under the row's email. -/
theorem loadRow_cases {answers : LoadAnswers} {result : LoadResult} {written : Option Json}
    {folding : CaseFolding} (hcasefold : unicode.casefold = folding.casefold)
    (hread : ∀ email payload usedLegacy, legacyEmail unicode row = some email →
      readTokenPayload aead json row keyring email = some (payload, usedLegacy) →
        payload.DistinctKeys)
    (h : loadRow unicode aead json keyring nonce answers row = (result, row', written)) :
    (written = none ∧ (row' = row ∨ row' = markReconnectRequired row)) ∨
      ∃ email payload, legacyEmail unicode row = some email ∧ written = some payload ∧
        Holds unicode aead json row' keyring payload email ∧ row'.userId = row.userId ∧
        row'.tokenJson = .assignNone := by
  have hleft : ∀ {result' : LoadResult} {row'' : AgentToken}, (row'' = row ∨
      row'' = markReconnectRequired row) →
      (result', row'', (none : Option Json)) = (result, row', written) →
      (written = none ∧ (row' = row ∨ row' = markReconnectRequired row)) := by
    rintro result' row'' hrow heq
    obtain ⟨-, rfl, rfl⟩ : result' = result ∧ row'' = row' ∧ none = written := by simpa using heq
    exact ⟨rfl, hrow⟩
  rw [loadRow] at h
  split at h
  · exact Or.inl (hleft (Or.inr rfl) h)
  · rename_i email hemail
    obtain ⟨returnedEmail, hnormalized⟩ := exists_of_legacyEmail hemail
    split at h
    · exact Or.inl (hleft (Or.inr rfl) h)
    · rename_i payload usedLegacy hpayload
      split at h
      · exact Or.inl (hleft (Or.inr rfl) h)
      · rename_i expired _
        split at h
        · exact Or.inl (hleft (Or.inr rfl) h)
        · exact Or.inl (hleft (Or.inl rfl) h)
        · rename_i current refreshed hrefreshed
          split at h
          · split at h
            · exact Or.inl (hleft (Or.inl rfl) h)
            · rename_i row'' hwrite
              obtain ⟨-, rfl, rfl⟩ : LoadResult.connected = result ∧ row'' = row' ∧
                  some current = written := by simpa using h
              obtain ⟨hvalid, hdistinct⟩ := refreshedPayload_eq_some
                (eq_of_readTokenPayload hpayload) (hread _ _ _ hemail hpayload) hrefreshed
              exact Or.inr ⟨email, current, hemail, rfl,
                holds_of_writeEncryptedToken hwrite hvalid hdistinct
                  (normalizeEmail_normalized hcasefold hnormalized)⟩
          · exact Or.inl (hleft (Or.inl rfl) h)

end

/-! ## The row over time -/

/-- The row of a user and the keyring, with what was written last and the keys used so far. -/
structure Stored where
  row : Option AgentToken
  keyring : Keyring
  written : Option Json
  used : List (String × Bytes)

/-- What happens to the row and to the keyring. -/
inductive Operation (unicode : UnicodeData)
  | persist (available : Bool) (nonce : Nonce) (expectedGoogleEmail : String)
      (exchange : OAuthExchangeResult unicode)
  | load (available : Bool) (nonce : Nonce) (answers : LoadAnswers)
  | markReconnect
  | rotate (keyring : Keyring)

/-- What an operation comes to. -/
inductive Outcome
  | persisted (result : Except PersistError Unit)
  | loaded (result : LoadResult)
  | done

/-- `get_credential_codec`. -/
def Stored.getKeyring (s : Stored) (available : Bool) : Option Keyring :=
  if available then some s.keyring else none

/-- The row after an operation, and what was written to it, if something was. -/
def Stored.commit (s : Stored) (row : Option AgentToken) (written : Option Json) : Stored :=
  match written with
  | none => { s with row := row }
  | some payload => { s with
      row := row
      written := some payload
      used := (s.keyring.activeKeyId, s.keyring.activeKey) :: s.used }

section

variable (unicode : UnicodeData) (aead : Aead) (json : JsonModule) (userId : Uuid)

def stepStored (s : Stored) : Operation unicode → Option (Stored × Outcome)
  | .persist available nonce expectedGoogleEmail exchange =>
    match persistOauthConnection unicode aead json (s.getKeyring available) nonce userId
        expectedGoogleEmail exchange s.row with
    | .error e => some (s, .persisted (.error e))
    | .ok (row, payload) => some (s.commit row payload, .persisted (.ok ()))
  | .load available nonce answers =>
    let (result, row, written) := loadConnectedGoogleConnection unicode aead json
      (s.getKeyring available) nonce answers s.row
    some (s.commit row written, .loaded result)
  | .markReconnect => some ({ s with row := s.row.map markReconnectRequired }, .done)
  | .rotate keyring => some ({ s with keyring := keyring }, .done)

/-- The row of one user, missing or without an encrypted payload at first. -/
def stored : System Stored (Operation unicode) Outcome where
  init s := s.written = none ∧ s.used = [] ∧ ∀ row ∈ s.row, row.userId = userId ∧
    row.encryptedTokenPayload = none ∧ row.tokenJson.read.DistinctKeys
  step := stepStored unicode aead json userId

/-- Rotations keep the keys used so far. -/
def KeepsUsed (s : Stored) : Operation unicode → Prop
  | .rotate keyring => ∀ entry ∈ s.used, keyring.keys entry.1 = some entry.2
  | _ => True

/-- What is kept of the row: an encrypted payload is what was written last, held under a key that
was used. -/
structure Stored.Kept (s : Stored) : Prop where
  keys : ∀ entry ∈ s.used, s.keyring.keys entry.1 = some entry.2
  owner : ∀ row ∈ s.row, row.userId = userId
  legacy : ∀ row ∈ s.row, row.tokenJson.read.DistinctKeys
  held : ∀ row ∈ s.row, row.encryptedTokenPayload.isSome → ∃ payload keyring email,
    s.written = some payload ∧ (keyring.activeKeyId, keyring.activeKey) ∈ s.used ∧
      Holds unicode aead json row keyring payload email

/-- The email that the row gives. -/
def Stored.email (s : Stored) : Option String := s.row.bind (legacyEmail unicode)

end

section

variable {unicode : UnicodeData} {aead : Aead} {json : JsonModule} {userId : Uuid} {s t : Stored}
  {row row' : AgentToken} {keyring : Keyring} {payload : Json} {email : String}

theorem Holds.markReconnectRequired (h : Holds unicode aead json row keyring payload email) :
    Holds unicode aead json (markReconnectRequired row) keyring payload email :=
  ⟨h.encrypted, h.valid, h.distinctKeys, h.column, h.normalized⟩

namespace Stored.Kept

/-- What is read under the row's email has each key once. -/
theorem distinctKeys_read (hkept : s.Kept unicode aead json userId) (hrow : s.row = some row)
    {usedLegacy : Bool} (hemail : legacyEmail unicode row = some email)
    (hread : readTokenPayload aead json row s.keyring email = some (payload, usedLegacy)) :
    payload.DistinctKeys := by
  by_cases hset : row.encryptedTokenPayload.isSome = true
  · obtain ⟨payload', keyring, email', -, hused, hholds⟩ := hkept.held row hrow hset
    obtain rfl : email' = email := Option.some.inj (hholds.legacyEmail_eq.symm.trans hemail)
    rw [hholds.readTokenPayload_eq (hkept.keys _ hused)] at hread
    obtain ⟨rfl, -⟩ := Prod.mk.inj (Option.some.inj hread)
    exact Json.distinctKeys_sortKeys payload' hholds.distinctKeys
  · rw [Option.not_isSome_iff_eq_none] at hset
    rw [readTokenPayload, hset, Option.filter_none] at hread
    dsimp only at hread
    split at hread
    · obtain ⟨payload', hvalid, heq⟩ := Option.map_eq_some_iff.mp hread
      obtain ⟨rfl, -⟩ := Prod.mk.inj heq
      obtain rfl := eq_of_validateTokenPayload hvalid
      exact hkept.legacy row hrow
    · cases hread

theorem mark (hkept : s.Kept unicode aead json userId) :
    Stored.Kept unicode aead json userId { s with row := s.row.map markReconnectRequired } := by
  constructor
  · exact hkept.keys
  · intro row hrow
    obtain ⟨row, hmem, rfl⟩ := Option.map_eq_some_iff.mp hrow
    exact hkept.owner row hmem
  · intro row hrow
    obtain ⟨row, hmem, rfl⟩ := Option.map_eq_some_iff.mp hrow
    exact hkept.legacy row hmem
  · intro row hrow hset
    obtain ⟨row, hmem, rfl⟩ := Option.map_eq_some_iff.mp hrow
    obtain ⟨payload, keyring, email, hwritten, hused, hholds⟩ := hkept.held row hmem hset
    exact ⟨payload, keyring, email, hwritten, hused, hholds.markReconnectRequired⟩

/-- What is written is held under the active key, which is now used. -/
theorem commit (hkept : s.Kept unicode aead json userId)
    (hholds : Holds unicode aead json row s.keyring payload email) (howner : row.userId = userId)
    (htoken : row.tokenJson = .assignNone) :
    (s.commit (some row) (some payload)).Kept unicode aead json userId := by
  constructor
  · intro entry hmem
    rcases List.mem_cons.mp hmem with rfl | hmem
    · exact s.keyring.active_mem
    · exact hkept.keys entry hmem
  · intro row' hrow
    obtain rfl := Option.some.inj hrow
    exact howner
  · intro row' hrow
    obtain rfl := Option.some.inj hrow
    rw [htoken]
    trivial
  · intro row' hrow _
    obtain rfl := Option.some.inj hrow
    exact ⟨payload, s.keyring, email, rfl, List.mem_cons_self, hholds⟩

end Stored.Kept

variable (unicode) in
theorem email_mark (s : Stored) :
    Stored.email unicode { s with row := s.row.map markReconnectRequired } =
      s.email unicode := by
  rw [Stored.email, Stored.email]
  cases s.row <;> rfl

theorem email_commit (hholds : Holds unicode aead json row keyring payload email) :
    (s.commit (some row) (some payload)).email unicode = some email := hholds.legacyEmail_eq

variable {folding : CaseFolding} {available : Bool} {nonce : Nonce}

/-- Every successful exchange is for the email that the row gives, if it gives one. -/
theorem kept_of_persist (hcasefold : unicode.casefold = folding.casefold)
    (hkept : s.Kept unicode aead json userId) {expectedGoogleEmail : String}
    {exchange : OAuthExchangeResult unicode}
    (h : persistOauthConnection unicode aead json (s.getKeyring available) nonce userId
      expectedGoogleEmail exchange s.row = .ok (row, payload)) :
    (s.commit (some row) (some payload)).Kept unicode aead json userId ∧
      ∀ email, s.email unicode = some email →
        (s.commit (some row) (some payload)).email unicode = some email := by
  obtain ⟨-, hsame, keyring, hkeyring, hholds, howner, htoken⟩ :=
    persistOauthConnection_eq_ok hcasefold h
  obtain rfl : s.keyring = keyring := by
    rw [Stored.getKeyring] at hkeyring
    split at hkeyring
    · exact Option.some.inj hkeyring
    · cases hkeyring
  constructor
  · refine hkept.commit hholds ?_ htoken
    rw [howner]
    cases hrow : s.row with
    | none => rfl
    | some row' => exact hkept.owner row' hrow
  · intro email hemail
    rw [email_commit hholds]
    obtain ⟨row', hrow, hlegacy⟩ := Option.bind_eq_some_iff.mp hemail
    rw [hrow, Option.getD_some] at hsame
    rw [hsame email hlegacy]

theorem kept_of_load (hcasefold : unicode.casefold = folding.casefold)
    (hkept : s.Kept unicode aead json userId) {answers : LoadAnswers} {result : LoadResult}
    {row? : Option AgentToken} {written : Option Json}
    (h : loadConnectedGoogleConnection unicode aead json (s.getKeyring available) nonce answers
      s.row = (result, row?, written)) :
    (s.commit row? written).Kept unicode aead json userId ∧
      ∀ email, s.email unicode = some email →
        (s.commit row? written).email unicode = some email := by
  -- Where nothing is written there is nothing to show.
  have hsame : ∀ {result' : LoadResult}, (result', s.row, (none : Option Json)) =
      (result, row?, written) → (s.commit row? written).Kept unicode aead json userId ∧
        ∀ email, s.email unicode = some email →
          (s.commit row? written).email unicode = some email := by
    intro result' heq
    obtain ⟨-, rfl, rfl⟩ : result' = result ∧ s.row = row? ∧ none = written := by simpa using heq
    exact ⟨hkept, fun _ hemail ↦ hemail⟩
  rw [loadConnectedGoogleConnection.eq_def] at h
  split at h
  · exact hsame h
  · rename_i hkeyring hrow
    exact hsame (hrow ▸ h)
  · rename_i keyring row hkeyring hrow
    obtain rfl : s.keyring = keyring := by
      rw [Stored.getKeyring] at hkeyring
      split at hkeyring
      · exact Option.some.inj hkeyring
      · cases hkeyring
    split at h
    · exact hsame (hrow ▸ h)
    · rcases hload : loadRow unicode aead json s.keyring nonce answers row with
        ⟨result', row', written'⟩
      rw [hload] at h
      dsimp only at h
      obtain ⟨rfl, rfl, rfl⟩ : result' = result ∧ some row' = row? ∧ written' = written := by
        simpa using h
      have hcases := loadRow_cases hcasefold
        (fun _ _ _ hemail hread ↦ hkept.distinctKeys_read hrow hemail hread) hload
      -- The row stays, is marked for a reconnect, or gets a token for the same email.
      rcases hcases with ⟨rfl, rfl | rfl⟩ | ⟨email, payload, hemail, rfl, hholds, howner, htoken⟩
      · rw [← hrow]
        exact ⟨hkept, fun _ hemail ↦ hemail⟩
      · have hmark := hkept.mark
        have hemail := email_mark unicode s
        rw [hrow] at hmark hemail
        exact ⟨hmark, fun email h ↦ hemail.trans h⟩
      · refine ⟨hkept.commit hholds (howner.trans (hkept.owner row hrow)) htoken, ?_⟩
        intro email' hemail'
        rw [email_commit hholds]
        rw [Stored.email, hrow] at hemail'
        exact hemail.symm.trans hemail'

/-- **One step.** What is kept stays so, and the email, once there is one, stays. -/
theorem kept_of_step (hcasefold : unicode.casefold = folding.casefold)
    (hkept : s.Kept unicode aead json userId) {operation : Operation unicode} {outcome : Outcome}
    (hused : KeepsUsed unicode s operation)
    (hstep : stepStored unicode aead json userId s operation = some (t, outcome)) :
    t.Kept unicode aead json userId ∧
      ∀ email, s.email unicode = some email → t.email unicode = some email := by
  cases operation with
  | persist available nonce expectedGoogleEmail exchange =>
    rw [stepStored] at hstep
    split at hstep
    · obtain rfl := (Prod.mk.inj (Option.some.inj hstep)).1
      exact ⟨hkept, fun _ hemail ↦ hemail⟩
    · rename_i row payload hpersist
      obtain rfl := (Prod.mk.inj (Option.some.inj hstep)).1
      exact kept_of_persist hcasefold hkept hpersist
  | load available nonce answers =>
    obtain rfl := (Prod.mk.inj (Option.some.inj hstep)).1
    exact kept_of_load hcasefold hkept rfl
  | markReconnect =>
    obtain rfl := (Prod.mk.inj (Option.some.inj hstep)).1
    exact ⟨hkept.mark, fun _ hemail ↦ (email_mark unicode s).trans hemail⟩
  | rotate keyring =>
    obtain rfl := (Prod.mk.inj (Option.some.inj hstep)).1
    exact ⟨⟨hused, hkept.owner, hkept.legacy, hkept.held⟩, fun _ hemail ↦ hemail⟩

theorem kept_of_run (hcasefold : unicode.casefold = folding.casefold)
    (hkept : s.Kept unicode aead json userId) {tr : List (Operation unicode × Outcome)}
    (hrun : System.Run (stored unicode aead json userId) (KeepsUsed unicode) s tr t) :
    t.Kept unicode aead json userId ∧
      ∀ email, s.email unicode = some email → t.email unicode = some email :=
  hrun.relates (fun _ _ hemail ↦ hemail) (fun _ _ _ hst htu email hemail ↦
    htu email (hst email hemail)) hkept fun _ _ _ _ hkept hused hstep ↦
      kept_of_step hcasefold hkept hused hstep

theorem kept_of_init (hinit : (stored unicode aead json userId).init s) :
    s.Kept unicode aead json userId := by
  obtain ⟨-, hused, hrow⟩ := hinit
  constructor
  · rw [hused]
    exact nofun
  · exact fun row hmem ↦ (hrow row hmem).1
  · exact fun row hmem ↦ (hrow row hmem).2.2
  · intro row hmem hset
    rw [(hrow row hmem).2.1] at hset
    cases hset

end

/-! ## The guarantee -/

section

variable (unicode : UnicodeData) (aead : Aead) (json : JsonModule) (userId : Uuid)

/-- What holds of a row at any time. -/
structure Stored.Bound (s : Stored) : Prop where
  /-- What was written last is read back under the row's email, whatever the order of its keys, and
  by no other user and under no other email. -/
  readable : ∀ row ∈ s.row, row.encryptedTokenPayload.isSome → ∃ email payload,
    legacyEmail unicode row = some email ∧ s.written = some payload ∧
      readTokenPayload aead json row s.keyring email = some (payload.sortKeys, false) ∧
      ∀ (other : Uuid) (email' : String), other ≠ userId ∨ email' ≠ email →
        readTokenPayload aead json { row with userId := other } s.keyring email' = none
  /-- An exchange for another email is refused, and changes nothing. -/
  mismatch : ∀ email, s.email unicode = some email →
    ∀ nonce expectedGoogleEmail exchange, exchange.normalizedGoogleEmail ≠ email →
      stepStored unicode aead json userId s (.persist true nonce expectedGoogleEmail exchange) =
        some (s, .persisted (.error .oauthAccountMismatch))

variable {unicode aead json userId} {s t u : Stored}

/-- The email of the row is the only one that a connection is persisted for. -/
theorem persistOauthConnection_mismatch {keyring : Keyring} {nonce : Nonce} {row : AgentToken}
    {email expectedGoogleEmail : String} {exchange : OAuthExchangeResult unicode}
    (hemail : legacyEmail unicode row = some email)
    (hother : exchange.normalizedGoogleEmail ≠ email) :
    persistOauthConnection unicode aead json (some keyring) nonce userId expectedGoogleEmail
      exchange (some row) = .error .oauthAccountMismatch := by
  rw [persistOauthConnection.eq_def]
  split
  · rfl
  · dsimp only
    rw [Option.getD_some, hemail]
    exact if_pos (decide_eq_true hother.symm)

theorem Stored.Kept.bound (hkept : s.Kept unicode aead json userId) :
    s.Bound unicode aead json userId := by
  constructor
  · intro row hrow hset
    obtain ⟨payload, keyring, email, hwritten, hused, hholds⟩ := hkept.held row hrow hset
    have hkey := hkept.keys _ hused
    refine ⟨email, payload, hholds.legacyEmail_eq, hwritten, hholds.readTokenPayload_eq hkey, ?_⟩
    intro other email' hother
    refine hholds.readTokenPayload_other hkey ?_ other.isLt ?_
    · rw [hkept.owner row hrow]
      exact userId.isLt
    · rw [hkept.owner row hrow]
      refine hother.imp (fun hne heq ↦ hne ?_) Ne.symm
      exact Fin.ext heq.symm
  · intro email hemail nonce expectedGoogleEmail exchange hother
    obtain ⟨row, hrow, hlegacy⟩ := Option.bind_eq_some_iff.mp hemail
    rw [stepStored, hrow, Stored.getKeyring, if_pos rfl,
      persistOauthConnection_mismatch hlegacy hother]

/-- **Stored credentials stay readable and bound to one account.** In every state of every run the
payload that was written last is read back by its user under the row's email, and by no other user
and under no other email. The email stays once the row gives one, and an exchange for another is
refused. -/
theorem storedCredentialsBound {folding : CaseFolding}
    (hcasefold : unicode.casefold = folding.casefold)
    (hinit : (stored unicode aead json userId).init s)
    {tr tr' : List (Operation unicode × Outcome)}
    (hrun : System.Run (stored unicode aead json userId) (KeepsUsed unicode) s tr t)
    (hrun' : System.Run (stored unicode aead json userId) (KeepsUsed unicode) t tr' u) :
    t.Bound unicode aead json userId ∧
      ∀ email, t.email unicode = some email → u.email unicode = some email := by
  obtain ⟨hkept, -⟩ := kept_of_run hcasefold (kept_of_init hinit) hrun
  exact ⟨hkept.bound, (kept_of_run hcasefold hkept hrun').2⟩

end

/-! ### A connection under two keys -/

/-- The database on ASCII text, with its folding character by character. -/
def asciiFolded : UnicodeData := { UnicodeData.ascii with casefold := CaseFolding.ascii.casefold }

/-- A keyring with a first key, and an active one. -/
def ringOf (active : String) (byte : UInt8) : Keyring where
  keys id :=
    if id = active then some (List.replicate 32 byte)
    else if id = "k1" then some (List.replicate 32 1)
    else none
  activeKeyId := active
  activeKey := List.replicate 32 byte
  active_mem := if_pos rfl
  length_eq id key h := by
    split at h
    · rw [← Option.some.inj h, List.length_replicate]
    · split at h
      · rw [← Option.some.inj h, List.length_replicate]
      · cases h

/-- A token with all scopes. -/
def grantedToken : Json := .obj [("refresh_token", .str "r"), ("scopes", .arr [
  .str "https://mail.google.com/", .str "https://www.googleapis.com/auth/calendar",
  .str "https://www.googleapis.com/auth/tasks",
  .str "https://www.googleapis.com/auth/userinfo.email", .str "openid"])]

def grantedExchange : OAuthExchangeResult asciiFolded where
  googleEmail := "Ann@x.org"
  normalizedGoogleEmail := "ann@x.org"
  tokenPayload := grantedToken
  normalized := ⟨" Ann@x.org", by decide, by decide⟩
  distinctKeys := by
    simp [grantedToken, Json.DistinctKeys, Json.DistinctFields, Json.DistinctItems]

/-- The row that the exchange leaves. -/
theorem persist_grantedExchange_eq :
    persistOauthConnection asciiFolded envelope inverseReader (some (ringOf "k1" 1))
      ⟨List.replicate 12 0, rfl⟩ 7 "ann@x.org" grantedExchange none =
      match writeEncryptedToken
        (codec envelope inverseReader (ringOf "k1" 1) ⟨List.replicate 12 0, rfl⟩)
        { pendingRow 7 with userEmail := some "Ann@x.org" } grantedToken "ann@x.org" with
      | .error _ => .error PersistError.credentialCodecError
      | .ok row => .ok (row, grantedToken) := rfl

theorem persist_grantedExchange : ∃ row : AgentToken, row.encryptedTokenPayload.isSome = true ∧
    persistOauthConnection asciiFolded envelope inverseReader (some (ringOf "k1" 1))
      ⟨List.replicate 12 0, rfl⟩ 7 "ann@x.org" grantedExchange none = .ok (row, grantedToken) := by
  obtain ⟨encrypted, hencrypt⟩ : ∃ encrypted, encrypt envelope inverseReader (ringOf "k1" 1)
      ⟨List.replicate 12 0, rfl⟩ grantedToken 7 "ann@x.org" = .ok encrypted :=
    exists_encrypt_eq rfl
  let row : AgentToken := { pendingRow 7 with
    userEmail := some "Ann@x.org"
    encryptedTokenPayload := some encrypted.ciphertext
    credentialKeyId := some encrypted.keyId
    credentialFormatVersion := some encrypted.formatVersion
    googleEmailNormalized := some "ann@x.org"
    connectionStatus := .connected }
  have hwrite : writeEncryptedToken
      (codec envelope inverseReader (ringOf "k1" 1) ⟨List.replicate 12 0, rfl⟩)
      { pendingRow 7 with userEmail := some "Ann@x.org" } grantedToken "ann@x.org" = .ok row := by
    rw [writeEncryptedToken, codec]
    dsimp only [pendingRow]
    rw [hencrypt]
    rfl
  exact ⟨row, rfl, by rw [persist_grantedExchange_eq, hwrite]⟩

theorem storedCredentialsBound_sample :
    ∃ t u tr tr', System.Run (stored asciiFolded envelope inverseReader 7) (KeepsUsed asciiFolded)
        ⟨none, ringOf "k1" 1, none, []⟩ tr t ∧
      System.Run (stored asciiFolded envelope inverseReader 7) (KeepsUsed asciiFolded) t tr' u ∧
      (∃ row ∈ t.row, row.encryptedTokenPayload.isSome) ∧ t.keyring.activeKeyId = "k2" ∧
      t.Bound asciiFolded envelope inverseReader 7 ∧
      ∀ email, t.email asciiFolded = some email → u.email asciiFolded = some email := by
  obtain ⟨row, hset, hpersist⟩ := persist_grantedExchange
  let opened : Stored := ⟨none, ringOf "k1" 1, none, []⟩
  let connected : Stored :=
    ⟨some row, ringOf "k1" 1, some grantedToken, [("k1", List.replicate 32 1)]⟩
  let rotated : Stored := { connected with keyring := ringOf "k2" 2 }
  let persist : Operation asciiFolded :=
    .persist true ⟨List.replicate 12 0, rfl⟩ "ann@x.org" grantedExchange
  have hstep : (stored asciiFolded envelope inverseReader 7).step opened persist =
      some (connected, .persisted (.ok ())) := by
    change stepStored asciiFolded envelope inverseReader 7 opened persist = _
    rw [stepStored, show opened.getKeyring true = some (ringOf "k1" 1) from rfl,
      show persistOauthConnection _ _ _ _ _ ((7 : Uuid) : ℕ) _ _ _ = _ from hpersist]
    rfl
  have hkeeps : KeepsUsed asciiFolded connected (.rotate (ringOf "k2" 2)) := by
    intro entry hmem
    obtain rfl := List.mem_singleton.mp hmem
    rfl
  have hrun : System.Run (stored asciiFolded envelope inverseReader 7) (KeepsUsed asciiFolded)
      opened [(persist, .persisted (.ok ())), (.rotate (ringOf "k2" 2), .done)] rotated :=
    (System.Run.single trivial hstep).snoc hkeeps rfl
  have hrun' : System.Run (stored asciiFolded envelope inverseReader 7) (KeepsUsed asciiFolded)
      rotated [(.markReconnect, .done)] { rotated with row := some (markReconnectRequired row) } :=
    System.Run.single trivial rfl
  have hcasefold : asciiFolded.casefold = CaseFolding.ascii.casefold := rfl
  have hbound := storedCredentialsBound hcasefold
    ⟨rfl, rfl, fun row hrow ↦ by cases hrow⟩ hrun hrun'
  exact ⟨_, _, _, _, hrun, hrun', ⟨row, rfl, hset⟩, rfl, hbound⟩

end Onebox.Credentials
