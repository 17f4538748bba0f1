import Mathlib.Data.List.Nodup
import Mathlib.Data.Nat.Basic
import Onebox.Notifications.Triage
import Onebox.Python.Lists
import Onebox.Transition.Clocked

/-!
# The table of triage work

`gmail_triage_work` as a table: rows have a primary key, and the constraint on the mailbox and the
message is checked when a row is inserted. `claim_triage_work` takes up to three transactions, since
its insertion can hit the constraint; whoever has been given a claim may finalize or release with it
at any later time and any number of times.
-/

namespace Onebox.Notifications

open Python Transition

/-! ## One row -/

namespace GmailTriageWork

/-- The row that `claim_triage_work` inserts. -/
def inserted (settings : Settings) (sourceHistoryId : ℕ) (now : Time) (token : LeaseToken) :
    GmailTriageWork where
  sourceHistoryId := sourceHistoryId
  state := .processing
  attemptCount := 1
  leaseToken := some token
  leaseExpiresAt := some (now + settings.leaseDuration)
  nextAttemptAt := none
  triageSummary := none
  lastErrorCode := none
  processedAt := none

/-- The conditions on which `claim_triage_work` returns `None`. -/
def refuses (now : Time) (row : GmailTriageWork) : Bool :=
  row.state.terminal || row.leaseExpiresAt.any (now < ·) || row.nextAttemptAt.any (now < ·)

/-- What `claim_triage_work` writes to a row it grants. -/
def reclaimed (settings : Settings) (now : Time) (token : LeaseToken) (row : GmailTriageWork) :
    GmailTriageWork :=
  { row with
    attemptCount := row.attemptCount + 1
    leaseToken := some token
    leaseExpiresAt := some (now + settings.leaseDuration)
    nextAttemptAt := none }

/-- `state == "processing"` and `lease_token == claim.lease_token`. -/
def HeldBy (token : LeaseToken) (row : GmailTriageWork) : Prop :=
  row.state = .processing ∧ row.leaseToken = some token

instance (token : LeaseToken) (row : GmailTriageWork) : Decidable (row.HeldBy token) :=
  inferInstanceAs (Decidable (_ ∧ _))

/-- What `finalize_triage_work` writes. -/
def finalized (now : Time) (args : FinalizeTriage) (row : GmailTriageWork) : GmailTriageWork :=
  { row with
    state := args.state
    triageSummary := storedSummary args.summary
    lastErrorCode := args.errorCode
    nextAttemptAt := none
    processedAt := some now }

/-- What `release_triage_work` writes. -/
def released (settings : Settings) (now : Time) (errorCode : String) (row : GmailTriageWork) :
    GmailTriageWork :=
  { row with
    leaseToken := none
    leaseExpiresAt := none
    nextAttemptAt := some (retryAt settings now (max 1 row.attemptCount))
    lastErrorCode := some errorCode }

/-- What has been recorded of the outcome. -/
def outcome (row : GmailTriageWork) : TriageState × Option String × Option Time :=
  (row.state, row.triageSummary, row.processedAt)

theorem refuses_eq_false {now : Time} {row : GmailTriageWork} (h : row.refuses now = false) :
    row.state.terminal = false ∧ (∀ expires, row.leaseExpiresAt = some expires → expires ≤ now) ∧
      ∀ next, row.nextAttemptAt = some next → next ≤ now := by
  obtain ⟨⟨hstate, hlease⟩, hnext⟩ := by simpa only [refuses, Bool.or_eq_false_iff] using h
  refine ⟨hstate, fun expires hexpires ↦ ?_, fun next hattempt ↦ ?_⟩
  · rw [hexpires] at hlease
    simpa using hlease
  · rw [hattempt] at hnext
    simpa using hnext

end GmailTriageWork

/-! ## The table -/

/-- The primary key. -/
abbrev RowId := ℕ

/-- A row with the columns that identify it. -/
structure TriageRecord where
  id : RowId
  mailboxEmail : String
  messageId : MessageId
  work : GmailTriageWork

/-- The columns of `uq_gmail_triage_work_mailbox_message`. -/
def TriageRecord.key (record : TriageRecord) : String × MessageId :=
  (record.mailboxEmail, record.messageId)

/-- `gmail_triage_work`, with the next primary key and the next token to be drawn. -/
structure TriageTable where
  records : List TriageRecord
  nextId : RowId
  nextToken : LeaseToken

/-- `ClaimedTriageWork`, with the primary key of its row. -/
structure RowClaim where
  id : RowId
  leaseToken : LeaseToken
  deriving DecidableEq

/-- What a call answers. -/
inductive TriageTableAnswer
  | granted (claim : RowClaim)
  | refused
  /-- `claim_triage_work` goes on with another transaction. -/
  | pending
  | raised
  | done
  | terminal (result : Bool)
  deriving DecidableEq

namespace TriageTable

/-- The row of a mailbox and message. -/
def select (t : TriageTable) (key : String × MessageId) : Option TriageRecord :=
  t.records.find? (·.key = key)

/-- Updates the row with the given primary key. -/
def setWork (t : TriageTable) (id : RowId) (work : GmailTriageWork) : TriageTable :=
  { t with records := t.records.map fun record ↦
      if record.id = id then { record with work := work } else record }

/-- The insertion of `claim_triage_work`, `none` on an `IntegrityError`. -/
def insert (settings : Settings) (t : TriageTable) (key : String × MessageId)
    (sourceHistoryId : ℕ) (now : Time) : Option (TriageTable × TriageTableAnswer) :=
  match t.select key with
  | some _ => none
  | none =>
    some
      ({ records := t.records ++
          [⟨t.nextId, key.1, key.2, .inserted settings sourceHistoryId now t.nextToken⟩]
         nextId := t.nextId + 1
         nextToken := t.nextToken + 1 },
        .granted ⟨t.nextId, t.nextToken⟩)

/-- The lease rules of `claim_triage_work` on a locked row. -/
def claimRecord (settings : Settings) (t : TriageTable) (now : Time) (record : TriageRecord) :
    TriageTable × TriageTableAnswer :=
  if record.work.refuses now then (t, .refused)
  else
    ({ t.setWork record.id (record.work.reclaimed settings now t.nextToken) with
        nextToken := t.nextToken + 1 },
      .granted ⟨record.id, t.nextToken⟩)

/-- The locked row of a claim that still holds it. -/
def held (t : TriageTable) (claim : RowClaim) : Option TriageRecord :=
  t.records.find? fun record ↦ record.id = claim.id ∧ record.work.HeldBy claim.leaseToken

/-- `finalize_triage_work`. -/
def finalizeTriageWork (t : TriageTable) (now : Time) (claim : RowClaim) (args : FinalizeTriage) :
    TriageTable :=
  match t.held claim with
  | none => t
  | some record => t.setWork record.id (record.work.finalized now args)

/-- `release_triage_work`. -/
def releaseTriageWork (settings : Settings) (t : TriageTable) (now : Time) (claim : RowClaim)
    (errorCode : String) : TriageTable :=
  match t.held claim with
  | none => t
  | some record => t.setWork record.id (record.work.released settings now errorCode)

/-- `triage_work_is_terminal`. -/
def triageWorkIsTerminal (t : TriageTable) (key : String × MessageId) : Bool :=
  match t.select key with
  | none => false
  | some record => record.work.state.terminal

end TriageTable

/-! ## Claims in progress -/

/-- Which transaction of `claim_triage_work` is next. -/
inductive ClaimPhase
  /-- The select found no row. -/
  | inserting
  /-- The insertion hit the unique constraint. -/
  | conflicted
  deriving DecidableEq

/-- A call of `claim_triage_work` between two of its transactions. -/
structure PendingClaim where
  key : String × MessageId
  sourceHistoryId : ℕ
  /-- The reading of the clock at the start of the call. -/
  now : Time
  phase : ClaimPhase

/-- The table and the calls of `claim_triage_work` in progress. -/
structure TriageTableWorld where
  table : TriageTable
  pending : ℕ → Option PendingClaim

/-- The transactions. -/
inductive TriageTableCall
  /-- The first transaction of `claim_triage_work`, which has read the clock at `now`. -/
  | claim (n : ℕ) (mailboxEmail : String) (messageId : MessageId) (sourceHistoryId : ℕ) (now : Time)
  | insert (n : ℕ)
  /-- The select after the rollback. -/
  | reselect (n : ℕ)
  /-- The call fails, is cancelled, or its process dies. -/
  | abandon (n : ℕ)
  | finalize (claim : RowClaim) (args : FinalizeTriage) (now : Time)
  | release (claim : RowClaim) (errorCode : String) (now : Time)
  | isTerminal (mailboxEmail : String) (messageId : MessageId)

/-- The reading of the clock that a transaction brings. -/
def TriageTableCall.reading : TriageTableCall → Option Time
  | claim _ _ _ _ now | finalize _ _ now | release _ _ now => some now
  | insert _ | reselect _ | abandon _ | isTerminal _ _ => none

namespace TriageTableWorld

def setPending (w : TriageTableWorld) (n : ℕ) (p : Option PendingClaim) : TriageTableWorld :=
  { w with pending := Function.update w.pending n p }

theorem setPending_self (w : TriageTableWorld) (n : ℕ) (p : Option PendingClaim) :
    (w.setPending n p).pending n = p := Function.update_self _ _ _

theorem setPending_of_ne (w : TriageTableWorld) {n m : ℕ} (h : m ≠ n) (p : Option PendingClaim) :
    (w.setPending n p).pending m = w.pending m := Function.update_of_ne h _ _

def step (settings : Settings) (w : TriageTableWorld) :
    TriageTableCall → Option (TriageTableWorld × TriageTableAnswer)
  | .claim n mailboxEmail messageId sourceHistoryId now =>
    match w.pending n with
    | some _ => none
    | none =>
      match w.table.select (mailboxEmail, messageId) with
      | none =>
        some (w.setPending n (some ⟨(mailboxEmail, messageId), sourceHistoryId, now, .inserting⟩),
          .pending)
      | some record =>
        let result := w.table.claimRecord settings now record
        some ({ w with table := result.1 }, result.2)
  | .insert n =>
    match w.pending n with
    | some ⟨key, sourceHistoryId, now, .inserting⟩ =>
      match w.table.insert settings key sourceHistoryId now with
      | none => some (w.setPending n (some ⟨key, sourceHistoryId, now, .conflicted⟩), .pending)
      | some (table, answer) => some ({ w with table := table }.setPending n none, answer)
    | _ => none
  | .reselect n =>
    match w.pending n with
    | some ⟨key, _, now, .conflicted⟩ =>
      match w.table.select key with
      | none => some (w.setPending n none, .raised)
      | some record =>
        let result := w.table.claimRecord settings now record
        some ({ w with table := result.1 }.setPending n none, result.2)
    | _ => none
  | .abandon n =>
    match w.pending n with
    | none => none
    | some _ => some (w.setPending n none, .raised)
  | .finalize claim args now =>
    some ({ w with table := w.table.finalizeTriageWork now claim args }, .done)
  | .release claim errorCode now =>
    some ({ w with table := w.table.releaseTriageWork settings now claim errorCode }, .done)
  | .isTerminal mailboxEmail messageId =>
    some (w, .terminal (w.table.triageWorkIsTerminal (mailboxEmail, messageId)))

end TriageTableWorld

/-! ## Well-formed tables -/

/-- What the constraints of the table and the drawing of keys and tokens ensure. -/
structure TriageTable.WellFormed (t : TriageTable) : Prop where
  keys : (t.records.map TriageRecord.key).Nodup
  ids : (t.records.map TriageRecord.id).Nodup
  ids_lt : ∀ record ∈ t.records, record.id < t.nextId
  tokens_lt : ∀ record ∈ t.records, ∀ token, record.work.leaseToken = some token →
    token < t.nextToken

/-- The calls on `gmail_triage_work`; every table that meets its constraints may be there at the
start. -/
def triageTable (settings : Settings) :
    System TriageTableWorld TriageTableCall TriageTableAnswer where
  init w := w.table.WellFormed ∧ ∀ n, w.pending n = none
  step := TriageTableWorld.step settings

namespace TriageTable

variable {settings : Settings} {t : TriageTable} {record other : TriageRecord}
  {work : GmailTriageWork} {key : String × MessageId}

theorem map_key_setWork (id : RowId) :
    (t.setWork id work).records.map TriageRecord.key = t.records.map TriageRecord.key := by
  rw [setWork, List.map_map]
  refine List.map_congr_left fun record _ ↦ ?_
  simp only [Function.comp]
  split
  · rfl
  · rfl

theorem map_id_setWork (id : RowId) :
    (t.setWork id work).records.map TriageRecord.id = t.records.map TriageRecord.id := by
  rw [setWork, List.map_map]
  refine List.map_congr_left fun record _ ↦ ?_
  simp only [Function.comp]
  split
  · rfl
  · rfl

theorem mem_setWork_self (hmem : record ∈ t.records) :
    { record with work := work } ∈ (t.setWork record.id work).records := by
  refine List.mem_map.mpr ⟨record, hmem, ?_⟩
  rw [if_pos rfl]

theorem mem_setWork_of_ne {id : RowId} (hmem : other ∈ t.records) (hne : other.id ≠ id) :
    other ∈ (t.setWork id work).records := by
  refine List.mem_map.mpr ⟨other, hmem, ?_⟩
  rw [if_neg hne]

theorem mem_select (h : t.select key = some record) : record ∈ t.records ∧ record.key = key :=
  ⟨List.mem_of_find?_eq_some h, by simpa using List.find?_some h⟩

theorem ne_of_select_eq_none (h : t.select key = none) : ∀ record ∈ t.records, record.key ≠ key :=
  fun record hmem ↦ by simpa using List.find?_eq_none.mp h record hmem

theorem mem_held {claim : RowClaim} (h : t.held claim = some record) :
    record ∈ t.records ∧ record.id = claim.id ∧ record.work.HeldBy claim.leaseToken := by
  refine ⟨List.mem_of_find?_eq_some h, ?_⟩
  simpa using List.find?_some h

namespace WellFormed

theorem eq_of_id (h : t.WellFormed) (hrecord : record ∈ t.records) (hother : other ∈ t.records)
    (hid : record.id = other.id) : record = other :=
  List.inj_on_of_nodup_map h.ids hrecord hother hid

theorem eq_of_key (h : t.WellFormed) (hrecord : record ∈ t.records) (hother : other ∈ t.records)
    (hkey : record.key = other.key) : record = other :=
  List.inj_on_of_nodup_map h.keys hrecord hother hkey

/-- The rows after an update: the one that was written, and all others as they were. -/
theorem mem_setWork (h : t.WellFormed) (hmem : record ∈ t.records)
    (hother : other ∈ (t.setWork record.id work).records) :
    other = { record with work := work } ∨ other ∈ t.records ∧ other.id ≠ record.id := by
  obtain ⟨row, hrow, rfl⟩ := List.mem_map.mp hother
  by_cases hid : row.id = record.id
  · obtain rfl := h.eq_of_id hrow hmem hid
    exact Or.inl (if_pos rfl)
  · rw [if_neg hid]
    exact Or.inr ⟨hrow, hid⟩

/-- An update that brings no token, or only the one it has drawn, keeps the table well formed. -/
theorem setWork (h : t.WellFormed) (hmem : record ∈ t.records) {nextToken : LeaseToken}
    (hle : t.nextToken ≤ nextToken)
    (hwork : ∀ token, work.leaseToken = some token → token < nextToken) :
    WellFormed { t.setWork record.id work with nextToken := nextToken } where
  keys := by
    rw [map_key_setWork]
    exact h.keys
  ids := by
    rw [map_id_setWork]
    exact h.ids
  ids_lt other hother := by
    rcases h.mem_setWork hmem hother with rfl | ⟨hold, -⟩
    · exact h.ids_lt record hmem
    · exact h.ids_lt other hold
  tokens_lt other hother token htoken := by
    rcases h.mem_setWork hmem hother with rfl | ⟨hold, -⟩
    · exact hwork token htoken
    · exact Nat.lt_of_lt_of_le (h.tokens_lt other hold token htoken) hle

/-- An insertion that meets the constraint keeps the table well formed. -/
theorem append (h : t.WellFormed) (hkey : ∀ record ∈ t.records, record.key ≠ key)
    (sourceHistoryId : ℕ) (now : Time) :
    WellFormed
      ⟨t.records ++
          [⟨t.nextId, key.1, key.2, .inserted settings sourceHistoryId now t.nextToken⟩],
        t.nextId + 1, t.nextToken + 1⟩ where
  keys := by
    rw [List.map_append, List.nodup_append]
    refine ⟨h.keys, List.nodup_singleton _, ?_⟩
    rintro _ hold _ hnew rfl
    obtain ⟨record, hmem, hrecord⟩ := List.mem_map.mp hold
    exact hkey record hmem (hrecord.trans (List.mem_singleton.mp hnew))
  ids := by
    rw [List.map_append, List.nodup_append]
    refine ⟨h.ids, List.nodup_singleton _, ?_⟩
    rintro _ hold _ hnew rfl
    obtain ⟨record, hmem, hrecord⟩ := List.mem_map.mp hold
    exact Nat.ne_of_lt (h.ids_lt record hmem) (hrecord.trans (List.mem_singleton.mp hnew))
  ids_lt record hmem := by
    rcases List.mem_append.mp hmem with hold | hnew
    · exact Nat.lt_succ_of_lt (h.ids_lt record hold)
    · obtain rfl := List.mem_singleton.mp hnew
      exact Nat.lt_succ_self _
  tokens_lt record hmem token htoken := by
    rcases List.mem_append.mp hmem with hold | hnew
    · exact Nat.lt_succ_of_lt (h.tokens_lt record hold token htoken)
    · obtain rfl := List.mem_singleton.mp hnew
      obtain rfl := Option.some.inj htoken
      exact Nat.lt_succ_self _

end WellFormed

end TriageTable

/-! ## What a step can do -/

/-- The effects of a transaction taken at `time`. -/
inductive TriageEffect (settings : Settings) (t : TriageTable) (time : Time)
    (call : TriageTableCall) : TriageTable → TriageTableAnswer → Prop
  | nothing {answer : TriageTableAnswer} (h : ∀ claim, answer ≠ .granted claim) :
      TriageEffect settings t time call t answer
  | inserted (key : String × MessageId) (sourceHistoryId : ℕ) (now : Time)
      (hkey : ∀ record ∈ t.records, record.key ≠ key) (hnow : now ≤ time) :
      TriageEffect settings t time call
        ⟨t.records ++
            [⟨t.nextId, key.1, key.2, .inserted settings sourceHistoryId now t.nextToken⟩],
          t.nextId + 1, t.nextToken + 1⟩
        (.granted ⟨t.nextId, t.nextToken⟩)
  | reclaimed (record : TriageRecord) (now : Time) (hmem : record ∈ t.records)
      (hrefuses : record.work.refuses now = false) (hnow : now ≤ time) :
      TriageEffect settings t time call
        { t.setWork record.id (record.work.reclaimed settings now t.nextToken) with
          nextToken := t.nextToken + 1 }
        (.granted ⟨record.id, t.nextToken⟩)
  | finalized (record : TriageRecord) (claim : RowClaim) (args : FinalizeTriage) (now : Time)
      (hcall : call = .finalize claim args now) (hmem : record ∈ t.records)
      (hid : record.id = claim.id) (hheld : record.work.HeldBy claim.leaseToken) :
      TriageEffect settings t time call (t.setWork record.id (record.work.finalized now args)) .done
  | released (record : TriageRecord) (claim : RowClaim) (errorCode : String) (now : Time)
      (hcall : call = .release claim errorCode now) (hmem : record ∈ t.records)
      (hid : record.id = claim.id) (hheld : record.work.HeldBy claim.leaseToken) :
      TriageEffect settings t time call
        (t.setWork record.id (record.work.released settings now errorCode)) .done

/-- No call in progress has read the clock later than `time`. -/
def TriageTableWorld.ReadingsBy (w : TriageTableWorld) (time : Time) : Prop :=
  ∀ n p, w.pending n = some p → p.now ≤ time

section

variable {settings : Settings} {t : TriageTable} {w w' : TriageTableWorld} {time : Time}
  {call : TriageTableCall} {answer : TriageTableAnswer}

theorem effect_of_claimRecord {record : TriageRecord} {now : Time} (hmem : record ∈ t.records)
    (hnow : now ≤ time) :
    TriageEffect settings t time call (t.claimRecord settings now record).1
      (t.claimRecord settings now record).2 := by
  rw [TriageTable.claimRecord]
  split
  · exact .nothing nofun
  · rename_i hrefuses
    exact .reclaimed record now hmem (Bool.not_eq_true _ ▸ hrefuses) hnow

/-- **The inversion lemma.** -/
theorem effect_of_step (hpending : w.ReadingsBy time)
    (hreading : ∀ now, call.reading = some now → now ≤ time)
    (h : w.step settings call = some (w', answer)) :
    TriageEffect settings w.table time call w'.table answer := by
  cases call with
  | claim n mailboxEmail messageId sourceHistoryId now =>
    simp only [TriageTableWorld.step] at h
    split at h
    · cases h
    · split at h
      · obtain ⟨rfl, rfl⟩ := by simpa using h
        exact .nothing nofun
      · rename_i record hrecord
        obtain ⟨rfl, rfl⟩ := by simpa using h
        exact effect_of_claimRecord (TriageTable.mem_select hrecord).1 (hreading now rfl)
  | insert n =>
    simp only [TriageTableWorld.step] at h
    split at h
    · rename_i key sourceHistoryId now hp
      rw [TriageTable.insert] at h
      cases hselect : w.table.select key with
      | none =>
        simp only [hselect] at h
        obtain ⟨rfl, rfl⟩ := by simpa using h
        exact .inserted key sourceHistoryId now (TriageTable.ne_of_select_eq_none hselect)
          (hpending n _ hp)
      | some record =>
        simp only [hselect] at h
        obtain ⟨rfl, rfl⟩ := by simpa using h
        exact .nothing nofun
    · cases h
  | reselect n =>
    simp only [TriageTableWorld.step] at h
    split at h
    · rename_i key sourceHistoryId now hp
      split at h
      · obtain ⟨rfl, rfl⟩ := by simpa using h
        exact .nothing nofun
      · rename_i record hrecord
        obtain ⟨rfl, rfl⟩ := by simpa using h
        exact effect_of_claimRecord (TriageTable.mem_select hrecord).1 (hpending n _ hp)
    · cases h
  | abandon n =>
    simp only [TriageTableWorld.step] at h
    split at h
    · cases h
    · obtain ⟨rfl, rfl⟩ := by simpa using h
      exact .nothing nofun
  | finalize claim args now =>
    obtain ⟨rfl, rfl⟩ := by simpa [TriageTableWorld.step] using h
    simp only [TriageTable.finalizeTriageWork]
    split
    · exact .nothing nofun
    · rename_i record hheld
      obtain ⟨hmem, hid, hholds⟩ := TriageTable.mem_held hheld
      exact .finalized record claim args now rfl hmem hid hholds
  | release claim errorCode now =>
    obtain ⟨rfl, rfl⟩ := by simpa [TriageTableWorld.step] using h
    simp only [TriageTable.releaseTriageWork]
    split
    · exact .nothing nofun
    · rename_i record hheld
      obtain ⟨hmem, hid, hholds⟩ := TriageTable.mem_held hheld
      exact .released record claim errorCode now rfl hmem hid hholds
  | isTerminal mailboxEmail messageId =>
    obtain ⟨rfl, rfl⟩ := by simpa [TriageTableWorld.step] using h
    exact .nothing nofun

/-- Calls in progress keep the readings they have. -/
theorem TriageTableWorld.ReadingsBy.step (hpending : w.ReadingsBy time)
    (hreading : ∀ now, call.reading = some now → now ≤ time)
    (h : w.step settings call = some (w', answer)) : w'.ReadingsBy time := by
  -- A pending claim keeps the reading of the clock with which it started.
  have hset : ∀ (u : TriageTableWorld) (n : ℕ) (p : Option PendingClaim), u.pending = w.pending →
      (∀ p', p = some p' → p'.now ≤ time) → (u.setPending n p).ReadingsBy time := by
    intro u n p hu hp m q hq
    by_cases hmn : m = n
    · subst hmn
      rw [setPending_self] at hq
      exact hp q hq
    · rw [setPending_of_ne u hmn, hu] at hq
      exact hpending m q hq
  cases call with
  | claim n mailboxEmail messageId sourceHistoryId now =>
    simp only [TriageTableWorld.step] at h
    split at h
    · cases h
    · split at h
      · obtain ⟨rfl, -⟩ := by simpa using h
        refine hset w n _ rfl fun p' hp' ↦ ?_
        obtain rfl := Option.some.inj hp'
        exact hreading now rfl
      · obtain ⟨rfl, -⟩ := by simpa using h
        exact hpending
  | insert n =>
    simp only [TriageTableWorld.step] at h
    split at h
    · rename_i key sourceHistoryId now hp
      split at h
      · obtain ⟨rfl, -⟩ := by simpa using h
        refine hset w n _ rfl fun p' hp' ↦ ?_
        obtain rfl := Option.some.inj hp'
        have hstarted := hpending n _ hp
        exact hstarted
      · obtain ⟨rfl, -⟩ := by simpa using h
        exact hset _ n none rfl nofun
    · cases h
  | reselect n =>
    simp only [TriageTableWorld.step] at h
    split at h
    · split at h
      · obtain ⟨rfl, -⟩ := by simpa using h
        exact hset w n none rfl nofun
      · obtain ⟨rfl, -⟩ := by simpa using h
        exact hset _ n none rfl nofun
    · cases h
  | abandon n =>
    simp only [TriageTableWorld.step] at h
    split at h
    · cases h
    · obtain ⟨rfl, -⟩ := by simpa using h
      exact hset w n none rfl nofun
  | _ =>
    obtain ⟨rfl, -⟩ := by simpa [TriageTableWorld.step] using h
    exact hpending

end

namespace TriageEffect

variable {settings : Settings} {t t' : TriageTable} {time : Time} {call : TriageTableCall}
  {answer : TriageTableAnswer}

theorem wellFormed (h : TriageEffect settings t time call t' answer) (hI : t.WellFormed) :
    t'.WellFormed := by
  cases h with
  | nothing h => exact hI
  | inserted key sourceHistoryId now hkey hnow => exact hI.append hkey sourceHistoryId now
  | reclaimed record now hmem hrefuses hnow =>
    refine hI.setWork hmem (Nat.le_succ _) fun token htoken ↦ ?_
    obtain rfl := Option.some.inj htoken
    exact Nat.lt_succ_self _
  | finalized record claim args now hcall hmem hid hheld =>
    exact hI.setWork hmem (Nat.le_refl _) fun token ↦ hI.tokens_lt record hmem token
  | released record claim errorCode now hcall hmem hid hheld =>
    exact hI.setWork hmem (Nat.le_refl _) nofun

theorem nextToken_le (h : TriageEffect settings t time call t' answer) :
    t.nextToken ≤ t'.nextToken := by
  cases h with
  | inserted => exact Nat.le_succ _
  | reclaimed => exact Nat.le_succ _
  | _ => exact Nat.le_refl _

end TriageEffect

end Onebox.Notifications
