import Onebox.Credentials.Token

/-!
# The credential backfill

The one-off command that moves plaintext credentials into encrypted storage. Each batch selects
rows whose `token_json` is not `NULL`, classifies them, and commits; the command stops at the first
batch that selects nothing.

## Progress

Classifying a row sets `token_json` to `None`, which the column stores as a JSON `null`. The next
batch selects on `IS NOT NULL`, and a JSON `null` is not `NULL`. So a row that was ever selected
is selected again, now reading as a row without a payload, and is quarantined. The number of rows
the query selects never reaches zero unless it started there.
-/

namespace Onebox.Credentials

open Python

/-- What a row was classified as. -/
inductive Classification
  | pending
  | quarantined
  | encrypted
  deriving DecidableEq

/-- The failures of the command. -/
inductive BackfillError
  | batchSize
  | codec (error : CredentialCodecError)

/-- The table in primary-key order. -/
structure TokenTable where
  rows : List AgentToken
  sorted : rows.Pairwise fun row row' ↦ row.userId < row'.userId

section

variable (unicode : UnicodeData) (codec : OAuthCredentialCodec)

/-- The comparison with `{"status": "pending_oauth"}`. -/
def isPendingSentinel : Json → Bool
  | .obj [(key, .str status)] => key = "status" && status = "pending_oauth"
  | _ => false

/-- The row with its plaintext dropped and the given status. -/
def AgentToken.dropPlaintext (row : AgentToken) (status : ConnectionStatus) : AgentToken :=
  { row with connectionStatus := status, tokenJson := .assignNone }

/-- `backfill_legacy_row`. -/
def backfillLegacyRow (row : AgentToken) :
    Except CredentialCodecError (AgentToken × Classification) :=
  if isPendingSentinel row.tokenJson.read then
    .ok (row.dropPlaintext .pending, .pending)
  else
    match legacyEmail unicode row with
    | none => .ok (row.dropPlaintext .quarantined, .quarantined)
    | some normalizedGoogleEmail =>
      if !row.tokenJson.read.isDict then .ok (row.dropPlaintext .quarantined, .quarantined)
      else
        match validateTokenPayload row.tokenJson.read with
        | none => .ok (row.dropPlaintext .quarantined, .quarantined)
        | some payload =>
          match writeEncryptedToken codec row payload normalizedGoogleEmail with
          | .ok row' => .ok (row', .encrypted)
          | .error e => .error e

/-- The rows one batch works on. -/
def selectBatch (batchSize : ℕ) (rows : List AgentToken) : List AgentToken :=
  (rows.filter (·.tokenJson.isNotNull)).take batchSize

/-- Flush the modified rows into the table. -/
def writeBack (results : List (AgentToken × Classification)) (row : AgentToken) : AgentToken :=
  match results.find? fun result ↦ result.1.userId = row.userId with
  | some (row', _) => row'
  | none => row

/-- What the command has recorded: the classifications made, by user. -/
abbrev Log := List (UserId × Classification)

/-- `results[label]` of the returned `Counter`. -/
def Log.count (log : Log) (label : Classification) : ℕ := (log.filter (·.2 = label)).length

/-- The `while True` loop of `backfill_legacy_oauth_credentials`, cut off after `fuel` batches. An
exception rolls its batch back and ends the command. -/
def backfillLoop (batchSize : ℕ) :
    ℕ → List AgentToken → Log → Option (Except CredentialCodecError (List AgentToken × Log))
  | 0, _, _ => none
  | fuel + 1, rows, log =>
    match (selectBatch batchSize rows).mapM (backfillLegacyRow unicode codec) with
    | .error e => some (.error e)
    | .ok [] => some (.ok (rows, log))
    | .ok (result :: results) =>
      backfillLoop batchSize fuel (rows.map (writeBack (result :: results)))
        (log ++ (result :: results).map fun (row, label) ↦ (row.userId, label))

/-- `backfill_legacy_oauth_credentials`. -/
def backfillLegacyOauthCredentials (batchSize fuel : ℕ) (table : TokenTable) :
    Option (Except BackfillError (List AgentToken × Log)) :=
  if batchSize < 1 ∨ batchSize > 1000 then some (.error .batchSize)
  else (backfillLoop unicode codec batchSize fuel table.rows []).map fun result ↦
    match result with
    | .ok value => .ok value
    | .error e => .error (.codec e)

/-- **Safety and termination of the backfill.** The command returns; it classifies every row that
holds a plaintext object exactly once and leaves it without one; and it changes no other row. -/
def BackfillSafe (batchSize : ℕ) (table : TokenTable) : Prop :=
  ∃ fuel rows log,
    backfillLegacyOauthCredentials unicode codec batchSize fuel table = some (.ok (rows, log)) ∧
    (∀ row ∈ table.rows, row.tokenJson.holdsObject = true →
      (log.filter (·.1 = row.userId)).length = 1 ∧
      ∃ row' ∈ rows, row'.userId = row.userId ∧ row'.tokenJson.holdsObject = false) ∧
    (∀ row ∈ table.rows, row.tokenJson.holdsObject = false → row ∈ rows)

/-! ## One row -/

variable {unicode codec}

/-- Whatever a row is classified as, it keeps a JSON `null` and no plaintext. -/
theorem backfillLegacyRow_tokenJson {row row' : AgentToken} {label : Classification}
    (h : backfillLegacyRow unicode codec row = .ok (row', label)) :
    row'.userId = row.userId ∧ row'.tokenJson = .assignNone := by
  rw [backfillLegacyRow] at h
  split at h
  · obtain ⟨rfl, -⟩ : row.dropPlaintext .pending = row' ∧ Classification.pending = label := by
      simpa using h
    exact ⟨rfl, rfl⟩
  · split at h
    · obtain ⟨rfl, -⟩ : row.dropPlaintext .quarantined = row' ∧ Classification.quarantined = label
        := by simpa using h
      exact ⟨rfl, rfl⟩
    · rename_i email _
      split at h
      · obtain ⟨rfl, -⟩ : row.dropPlaintext .quarantined = row' ∧
            Classification.quarantined = label := by simpa using h
        exact ⟨rfl, rfl⟩
      · split at h
        · obtain ⟨rfl, -⟩ : row.dropPlaintext .quarantined = row' ∧
              Classification.quarantined = label := by simpa using h
          exact ⟨rfl, rfl⟩
        · rename_i payload _
          cases henc : codec.encrypt payload row.userId email with
          | error e =>
            simp [writeEncryptedToken, henc, Except.bind, bind] at h
          | ok encrypted =>
            simp only [writeEncryptedToken, henc, bind, Except.bind, pure, Except.pure,
              Except.ok.injEq, Prod.mk.injEq] at h
            obtain ⟨rfl, -⟩ := h
            exact ⟨rfl, rfl⟩

/-- A row that reads as `None` is quarantined, whatever credential it holds in encrypted form: the
command does not look at `encrypted_token_payload`. -/
theorem backfillLegacyRow_of_read_null {row : AgentToken} (h : row.tokenJson.read = .null) :
    backfillLegacyRow unicode codec row
      = .ok (row.dropPlaintext .quarantined, .quarantined) := by
  rw [backfillLegacyRow, h]
  simp only [isPendingSentinel, Bool.false_eq_true, if_false, Json.isDict, Bool.not_false, if_true]
  split <;> rfl

/-! ## One batch -/

theorem isNotNull_of_mem_mapM {rows : List AgentToken}
    {results : List (AgentToken × Classification)}
    (h : rows.mapM (backfillLegacyRow unicode codec) = .ok results) :
    ∀ result ∈ results, result.1.tokenJson.isNotNull = true := by
  induction rows generalizing results with
  | nil =>
    obtain rfl : [] = results := by simpa [pure, Except.pure] using h
    intro result hmem
    exact absurd hmem (by simp)
  | cons row rows ih =>
    rw [List.mapM_cons] at h
    cases hrow : backfillLegacyRow unicode codec row with
    | error e => simp [hrow, bind, Except.bind] at h
    | ok head =>
      cases hrest : rows.mapM (backfillLegacyRow unicode codec) with
      | error e => simp [hrow, hrest, bind, Except.bind] at h
      | ok tail =>
        obtain rfl : head :: tail = results := by
          simpa [hrow, hrest, bind, Except.bind, pure, Except.pure] using h
        intro result hmem
        rcases List.mem_cons.mp hmem with rfl | hmem
        · obtain ⟨row', label⟩ := result
          rw [(backfillLegacyRow_tokenJson hrow).2]
          rfl
        · exact ih hrest result hmem

/-- **No batch reduces the work to nothing.** A row that the query could select leaves behind a
row that the query can select. -/
theorem exists_isNotNull_writeBack {rows selected : List AgentToken}
    {results : List (AgentToken × Classification)}
    (h : selected.mapM (backfillLegacyRow unicode codec) = .ok results)
    (hrow : ∃ row ∈ rows, row.tokenJson.isNotNull = true) :
    ∃ row ∈ rows.map (writeBack results), row.tokenJson.isNotNull = true := by
  obtain ⟨row, hmem, hnn⟩ := hrow
  refine ⟨writeBack results row, List.mem_map_of_mem hmem, ?_⟩
  rw [writeBack]
  split
  · rename_i row' label hfind
    exact isNotNull_of_mem_mapM h (row', label) (List.mem_of_find?_eq_some hfind)
  · exact hnn

theorem selectBatch_eq_nil_iff {batchSize : ℕ} (hbatch : 1 ≤ batchSize) (rows : List AgentToken) :
    selectBatch batchSize rows = [] ↔ ∀ row ∈ rows, row.tokenJson.isNotNull = false := by
  have hne : batchSize ≠ 0 := by omega
  rw [selectBatch, List.take_eq_nil_iff, or_iff_right hne, List.filter_eq_nil_iff]
  simp

/-! ## The loop -/

/-- The loop never returns while some row is not `NULL`. -/
theorem backfillLoop_ne_ok {batchSize : ℕ} (hbatch : 1 ≤ batchSize) (fuel : ℕ) :
    ∀ {rows : List AgentToken} {log : Log},
      (∃ row ∈ rows, row.tokenJson.isNotNull = true) →
      ∀ value, backfillLoop unicode codec batchSize fuel rows log ≠ some (.ok value) := by
  induction fuel with
  | zero => intro rows log _ value; simp [backfillLoop]
  | succ fuel ih =>
    intro rows log hrow value
    rw [backfillLoop]
    cases hmap : (selectBatch batchSize rows).mapM (backfillLegacyRow unicode codec) with
    | error e => simp
    | ok results =>
      cases results with
      | nil =>
        -- Only an empty selection ends the loop, and there is a row to select.
        have hnil : selectBatch batchSize rows = [] := by
          cases hsel : selectBatch batchSize rows with
          | nil => rfl
          | cons row rest =>
            rw [hsel, List.mapM_cons] at hmap
            cases hhead : backfillLegacyRow unicode codec row <;>
              cases hrest : rest.mapM (backfillLegacyRow unicode codec) <;>
              simp [hhead, hrest, bind, Except.bind, pure, Except.pure] at hmap
        obtain ⟨row, hmem, hnn⟩ := hrow
        have := (selectBatch_eq_nil_iff hbatch rows).mp hnil row hmem
        rw [hnn] at this
        exact absurd this (by decide)
      -- The batch leaves such a row behind.
      | cons result results => exact ih (exists_isNotNull_writeBack hmap hrow) value

theorem backfillLoop_of_all_null {batchSize : ℕ} (hbatch : 1 ≤ batchSize) {rows : List AgentToken}
    (hnull : ∀ row ∈ rows, row.tokenJson.isNotNull = false) (log : Log) :
    backfillLoop unicode codec batchSize 1 rows log = some (.ok (rows, log)) := by
  rw [backfillLoop, (selectBatch_eq_nil_iff hbatch rows).mpr hnull]
  rfl

/-! ## When the backfill is safe -/

theorem not_backfillSafe {batchSize : ℕ} (hlo : 1 ≤ batchSize) (hhi : batchSize ≤ 1000)
    {table : TokenTable} (hrow : ∃ row ∈ table.rows, row.tokenJson.isNotNull = true) :
    ¬BackfillSafe unicode codec batchSize table := by
  rintro ⟨fuel, rows, log, hrun, -, -⟩
  rw [backfillLegacyOauthCredentials, if_neg (by omega), Option.map_eq_some_iff] at hrun
  obtain ⟨result, hloop, hresult⟩ := hrun
  cases result with
  | error e => simp at hresult
  | ok value => exact backfillLoop_ne_ok hlo fuel hrow value hloop

/-- **The backfill is safe exactly on a table it has nothing to do for.** One row whose
`token_json` is not `NULL`, be it plaintext or the JSON `null` that every write of the program
leaves, keeps the command from ever returning. -/
theorem backfillSafe_iff (unicode : UnicodeData) (codec : OAuthCredentialCodec) {batchSize : ℕ}
    (hlo : 1 ≤ batchSize) (hhi : batchSize ≤ 1000) (table : TokenTable) :
    BackfillSafe unicode codec batchSize table ↔
      ∀ row ∈ table.rows, row.tokenJson.isNotNull = false := by
  constructor
  · intro hsafe row hmem
    by_contra hnn
    exact not_backfillSafe hlo hhi ⟨row, hmem, by simpa using hnn⟩ hsafe
  · intro hnull
    refine ⟨1, table.rows, [], ?_, ?_, ?_⟩
    · rw [backfillLegacyOauthCredentials, if_neg (by omega),
        backfillLoop_of_all_null hlo hnull]
      rfl
    · intro row hmem hobj
      have hnn := hnull row hmem
      cases hjson : row.tokenJson with
      | sqlNull => simp [hjson, JsonColumn.holdsObject, JsonColumn.read, Json.isDict] at hobj
      | json value => simp [hjson, JsonColumn.isNotNull] at hnn
    · exact fun row hmem _ ↦ hmem

end

/-! ### A connected account -/

/-- A connected account with an encrypted credential, the plaintext column as given. -/
def connectedRow (tokenJson : JsonColumn) : AgentToken where
  userId := 1
  userEmail := some "owner@example.com"
  tokenJson := tokenJson
  encryptedTokenPayload := some "ciphertext"
  credentialKeyId := some "active"
  credentialFormatVersion := some "v1"
  googleEmailNormalized := some "owner@example.com"
  connectionStatus := .connected

/-- The table that holds this account only. -/
def connectedTable (tokenJson : JsonColumn) : TokenTable :=
  ⟨[connectedRow tokenJson], List.pairwise_singleton _ _⟩

/-- A codec whose ciphertext is fixed. -/
def fixedCodec : OAuthCredentialCodec where
  encrypt _ _ _ := .ok ⟨"ciphertext", "active", "v1"⟩

theorem backfillSafe_connectedTable_sqlNull :
    BackfillSafe .ascii fixedCodec 100 (connectedTable .sqlNull) :=
  (backfillSafe_iff .ascii fixedCodec (by decide) (by decide) _).mpr fun row hmem ↦ by
    obtain rfl : row = connectedRow .sqlNull := by simpa [connectedTable] using hmem
    rfl

/-- The same account as the program itself writes it: the command quarantines it, and never
returns. -/
theorem not_backfillSafe_connectedTable_jsonNull :
    ¬BackfillSafe .ascii fixedCodec 100 (connectedTable (.json .null)) ∧
      backfillLegacyRow .ascii fixedCodec (connectedRow (.json .null))
        = .ok ((connectedRow (.json .null)).dropPlaintext .quarantined, .quarantined) := by
  constructor
  · exact not_backfillSafe (by decide) (by decide)
      ⟨connectedRow (.json .null), List.mem_singleton_self _, rfl⟩
  · exact backfillLegacyRow_of_read_null rfl

end Onebox.Credentials
