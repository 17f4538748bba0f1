import Onebox.Notifications.Steps
import Onebox.Notifications.TriageTable
import Onebox.Transition.Simulation

/-!
# The workers on the table of triage work

A worker triages one message at a time, on the rows of one mailbox, which it identifies by their
messages. Here these rows are found in the table, with its primary keys and its constraint: each
step of the workers makes one call on the table or none, so that what holds of every run of the
table holds of theirs.
-/

namespace Onebox.Notifications

open Python Transition

/-! ## The rows of a mailbox -/

/-- The store has the rows of one mailbox of the table. -/
structure TriageStore.Shows (s : TriageStore) (mailboxEmail : String) (t : TriageTable) : Prop where
  wellFormed : t.WellFormed
  nextToken : s.nextToken = t.nextToken
  rows : ∀ id row, s.rows id = some row ↔
    ∃ record ∈ t.records, record.key = (mailboxEmail, id) ∧ record.work = row

namespace TriageStore

variable {settings : Settings} {s s' : TriageStore} {mailboxEmail : String} {t : TriageTable}
  {id : MessageId} {record : TriageRecord} {work row : GmailTriageWork} {claim : ClaimedTriageWork}
  {now : Time}

theorem Shows.exists_select (h : s.Shows mailboxEmail t) (hrow : s.rows id = some row) :
    ∃ record, t.select (mailboxEmail, id) = some record ∧ record.work = row := by
  obtain ⟨record, hmem, hkey, hwork⟩ := (h.rows id row).mp hrow
  exact ⟨record, (find?_eq_some_iff_of_nodup h.wellFormed.keys).mpr ⟨hmem, hkey⟩, hwork⟩

theorem Shows.select_eq_none (h : s.Shows mailboxEmail t) (hnone : s.rows id = none) :
    t.select (mailboxEmail, id) = none := by
  rw [Option.eq_none_iff_forall_ne_some]
  intro record hselect
  obtain ⟨hmem, hkey⟩ := TriageTable.mem_select hselect
  have hrow := (h.rows id record.work).mpr ⟨record, hmem, hkey, rfl⟩
  rw [hnone] at hrow
  cases hrow

/-- Writing the row of a message is writing its record. -/
theorem Shows.write (h : s.Shows mailboxEmail t) (hmem : record ∈ t.records)
    (hkey : record.key = (mailboxEmail, id)) {nextToken : LeaseToken}
    (hle : t.nextToken ≤ nextToken)
    (hwork : ∀ token, work.leaseToken = some token → token < nextToken) :
    Shows { s.setRow id work with nextToken := nextToken } mailboxEmail
      { t.setWork record.id work with nextToken := nextToken } where
  wellFormed := h.wellFormed.setWork hmem hle hwork
  nextToken := rfl
  rows id' row := by
    change Function.update s.rows id (some work) id' = some row ↔ _
    by_cases hid : id' = id
    · subst hid
      rw [Function.update_self]
      constructor
      · intro hrow
        obtain rfl := Option.some.inj hrow
        exact ⟨_, TriageTable.mem_setWork_self hmem, hkey, rfl⟩
      · rintro ⟨other, hother, hkey', rfl⟩
        rcases h.wellFormed.mem_setWork hmem hother with rfl | ⟨hold, hne⟩
        · rfl
        · exact absurd (h.wellFormed.eq_of_key hold hmem (hkey'.trans hkey.symm)) fun heq ↦
            hne (congrArg TriageRecord.id heq)
    · rw [Function.update_of_ne hid, h.rows]
      constructor
      · rintro ⟨other, hother, hkey', rfl⟩
        refine ⟨other, TriageTable.mem_setWork_of_ne hother fun heq ↦ hid ?_, hkey', rfl⟩
        rw [h.wellFormed.eq_of_id hother hmem heq, hkey] at hkey'
        exact (Prod.mk.inj hkey').2.symm
      · rintro ⟨other, hother, hkey', rfl⟩
        rcases h.wellFormed.mem_setWork hmem hother with rfl | ⟨hold, -⟩
        · exact absurd (Prod.mk.inj (hkey'.symm.trans hkey)).2 hid
        · exact ⟨other, hold, hkey', rfl⟩

/-- A write that draws no token. -/
theorem Shows.rewrite (h : s.Shows mailboxEmail t) (hmem : record ∈ t.records)
    (hkey : record.key = (mailboxEmail, id))
    (hwork : ∀ token, work.leaseToken = some token → token < t.nextToken) :
    (s.setRow id work).Shows mailboxEmail (t.setWork record.id work) :=
  have hwrite := h.write hmem hkey (Nat.le_refl _) hwork
  ⟨hwrite.wellFormed, h.nextToken, hwrite.rows⟩

/-! ### The transactions -/

theorem claimRow_eq : s.claimRow settings id now row =
    if row.refuses now then (s, .refused)
    else
      ({ s.setRow id (row.reclaimed settings now s.nextToken) with nextToken := s.nextToken + 1 },
        .claimed ⟨id, s.nextToken⟩) := by
  rw [claimRow, GmailTriageWork.refuses]
  cases row.state.terminal with
  | true => rfl
  | false =>
    cases row.leaseExpiresAt.any (now < ·) with
    | true => rfl
    | false =>
      cases row.nextAttemptAt.any (now < ·) with
      | true => rfl
      | false => rfl

theorem Shows.claimRow (h : s.Shows mailboxEmail t) (hmem : record ∈ t.records)
    (hkey : record.key = (mailboxEmail, id)) :
    (s.claimRow settings id now record.work).1.Shows mailboxEmail
      (t.claimRecord settings now record).1 := by
  rw [claimRow_eq, TriageTable.claimRecord]
  split
  · exact h
  · rw [h.nextToken]
    refine h.write hmem hkey (Nat.le_succ _) fun token htoken ↦ ?_
    obtain rfl := Option.some.inj htoken
    exact Nat.lt_succ_self _

theorem Shows.insertRow (h : s.Shows mailboxEmail t) (hnone : s.rows id = none)
    (sourceHistoryId : ℕ) :
    ∃ t' answer, t.insert settings (mailboxEmail, id) sourceHistoryId now = some (t', answer) ∧
      (s.insertRow settings id sourceHistoryId now).1.Shows mailboxEmail t' := by
  have hselect := h.select_eq_none hnone
  rw [TriageTable.insert, hselect]
  refine ⟨_, _, rfl, ?_, by rw [← h.nextToken]; rfl, fun id' row ↦ ?_⟩
  · exact h.wellFormed.append (TriageTable.ne_of_select_eq_none hselect) sourceHistoryId now
  · change Function.update s.rows id (some _) id' = some row ↔ _
    by_cases hid : id' = id
    · subst hid
      rw [Function.update_self]
      constructor
      · intro hrow
        obtain rfl := Option.some.inj hrow
        refine ⟨_, List.mem_append_right _ List.mem_cons_self, rfl, ?_⟩
        rw [← h.nextToken]
        rfl
      · rintro ⟨other, hother, hkey, rfl⟩
        rcases List.mem_append.mp hother with hold | hnew
        · exact absurd hkey (TriageTable.ne_of_select_eq_none hselect other hold)
        · rw [List.mem_singleton.mp hnew, ← h.nextToken]
          rfl
    · rw [Function.update_of_ne hid, h.rows]
      constructor
      · rintro ⟨other, hother, hkey, rfl⟩
        exact ⟨other, List.mem_append_left _ hother, hkey, rfl⟩
      · rintro ⟨other, hother, hkey, rfl⟩
        rcases List.mem_append.mp hother with hold | hnew
        · exact ⟨other, hold, hkey, rfl⟩
        · rw [List.mem_singleton.mp hnew] at hkey
          exact absurd (Prod.mk.inj hkey).2.symm hid

/-- The claim holds the row of its message just when it holds the record. -/
theorem Shows.held (h : s.Shows mailboxEmail t) (hmem : record ∈ t.records)
    (hkey : record.key = (mailboxEmail, claim.id)) :
    s.held claim = none ∧ t.held ⟨record.id, claim.leaseToken⟩ = none ∨
      s.held claim = some record.work ∧ t.held ⟨record.id, claim.leaseToken⟩ = some record := by
  have hrow := (h.rows claim.id record.work).mpr ⟨record, hmem, hkey, rfl⟩
  by_cases hheld : record.work.HeldBy claim.leaseToken
  · refine Or.inr ⟨?_, ?_⟩
    · rw [TriageStore.held, hrow]
      exact if_pos hheld
    · cases hfound : t.held ⟨record.id, claim.leaseToken⟩ with
      | none =>
        have hnot : ¬record.work.HeldBy claim.leaseToken := by
          simpa using List.find?_eq_none.mp hfound record hmem
        exact absurd hheld hnot
      | some other =>
        obtain ⟨hother, hid, -⟩ := TriageTable.mem_held hfound
        rw [h.wellFormed.eq_of_id hother hmem hid]
  · refine Or.inl ⟨?_, ?_⟩
    · rw [TriageStore.held, hrow]
      exact if_neg hheld
    · rw [Option.eq_none_iff_forall_ne_some]
      intro other hfound
      obtain ⟨hother, hid, hholds⟩ := TriageTable.mem_held hfound
      rw [h.wellFormed.eq_of_id hother hmem hid] at hholds
      exact hheld hholds

theorem Shows.finalize (h : s.Shows mailboxEmail t) (hmem : record ∈ t.records)
    (hkey : record.key = (mailboxEmail, claim.id)) (args : FinalizeTriage) :
    (finalizeTriageWork s now claim args).Shows mailboxEmail
      (t.finalizeTriageWork now ⟨record.id, claim.leaseToken⟩ args) := by
  rw [finalizeTriageWork, TriageTable.finalizeTriageWork]
  rcases h.held hmem hkey with ⟨hs, ht⟩ | ⟨hs, ht⟩
  · rw [hs, ht]
    exact h
  · rw [hs, ht]
    exact h.rewrite hmem hkey fun token ↦ h.wellFormed.tokens_lt record hmem token

theorem Shows.release (h : s.Shows mailboxEmail t) (hmem : record ∈ t.records)
    (hkey : record.key = (mailboxEmail, claim.id)) (errorCode : String) :
    (releaseTriageWork settings s now claim errorCode).Shows mailboxEmail
      (t.releaseTriageWork settings now ⟨record.id, claim.leaseToken⟩ errorCode) := by
  rw [releaseTriageWork, TriageTable.releaseTriageWork]
  rcases h.held hmem hkey with ⟨hs, ht⟩ | ⟨hs, ht⟩
  · rw [hs, ht]
    exact h
  · rw [hs, ht]
    exact h.rewrite hmem hkey (by rintro _ ⟨⟩)

end TriageStore

/-! ## One call -/

namespace TriageWorker

/-- The call of `claim_triage_work` that is in progress. -/
def pendingClaim (mailboxEmail : String) (worker : TriageWorker) : Option PendingClaim :=
  match worker.call with
  | .inserting now =>
    some ⟨(mailboxEmail, worker.messageId), worker.sourceHistoryId, now, .inserting⟩
  | .conflicted now =>
    some ⟨(mailboxEmail, worker.messageId), worker.sourceHistoryId, now, .conflicted⟩
  | _ => none

/-- The claim that the call has been given is for its message, whose row is there. -/
def Backed (mailboxEmail : String) (t : TriageTable) (worker : TriageWorker) : Prop :=
  match worker.call with
  | .analysing claim | .finalizing claim _ _ | .releasing claim _ =>
    claim.id = worker.messageId ∧
      (mailboxEmail, worker.messageId) ∈ t.records.map TriageRecord.key
  | _ => True

end TriageWorker

/-- What the table makes of a step of worker `n`, which leaves the store `s'` and goes on to triage
as `next`: one call or none. -/
structure TriageMatch (settings : Settings) (mailboxEmail : String) (n : ℕ) (x : TriageTableWorld)
    (s' : TriageStore) (next : Option TriageWorker) (y : TriageTableWorld) : Prop where
  step : y = x ∨ ∃ call answer, x.step settings call = some (y, answer)
  shows : s'.Shows mailboxEmail y.table
  pending : y.pending = Function.update x.pending n (next.bind (·.pendingClaim mailboxEmail))
  backed : ∀ worker, next = some worker → worker.Backed mailboxEmail y.table

section

variable {settings : Settings} {s s' : TriageStore} {mailboxEmail : String} {t : TriageTable}
  {x y : TriageTableWorld} {id : MessageId} {sourceHistoryId n : ℕ} {call call' : TriageCall}
  {event : TriageEvent} {now : Time} {tableCall : TriageTableCall} {answer : TriageTableAnswer}

theorem map_key_claimRecord {record : TriageRecord} :
    (t.claimRecord settings now record).1.records.map TriageRecord.key =
      t.records.map TriageRecord.key := by
  rw [TriageTable.claimRecord]
  split
  · rfl
  · exact TriageTable.map_key_setWork _

/-- No row is deleted. -/
theorem keys_of_step (h : x.step settings tableCall = some (y, answer))
    {key : String × MessageId} (hkey : key ∈ x.table.records.map TriageRecord.key) :
    key ∈ y.table.records.map TriageRecord.key := by
  cases tableCall with
  | claim n mailboxEmail messageId sourceHistoryId now =>
    simp only [TriageTableWorld.step] at h
    split at h
    · cases h
    · split at h
      · obtain ⟨rfl, -⟩ := by simpa using h
        exact hkey
      · obtain ⟨rfl, -⟩ := by simpa using h
        rw [map_key_claimRecord]
        exact hkey
  | insert n =>
    simp only [TriageTableWorld.step, TriageTable.insert] at h
    split at h
    · rename_i key' sourceHistoryId now hp
      cases hselect : x.table.select key' with
      | none =>
        simp only [hselect] at h
        obtain ⟨rfl, -⟩ := by simpa using h
        change key ∈ (_ ++ _ : List TriageRecord).map TriageRecord.key
        rw [List.map_append]
        exact List.mem_append_left _ hkey
      | some record =>
        simp only [hselect] at h
        obtain ⟨rfl, -⟩ := by simpa using h
        exact hkey
    · cases h
  | reselect n =>
    simp only [TriageTableWorld.step] at h
    split at h
    · split at h
      · obtain ⟨rfl, -⟩ := by simpa using h
        exact hkey
      · obtain ⟨rfl, -⟩ := by simpa using h
        change key ∈ (x.table.claimRecord settings _ _).1.records.map TriageRecord.key
        rw [map_key_claimRecord]
        exact hkey
    · cases h
  | abandon n =>
    simp only [TriageTableWorld.step] at h
    split at h
    · cases h
    · obtain ⟨rfl, -⟩ := by simpa using h
      exact hkey
  | finalize claim args now =>
    obtain ⟨rfl, -⟩ := by simpa [TriageTableWorld.step] using h
    simp only [TriageTable.finalizeTriageWork]
    split
    · exact hkey
    · rw [TriageTable.map_key_setWork]
      exact hkey
  | release claim errorCode now =>
    obtain ⟨rfl, -⟩ := by simpa [TriageTableWorld.step] using h
    simp only [TriageTable.releaseTriageWork]
    split
    · exact hkey
    · rw [TriageTable.map_key_setWork]
      exact hkey
  | isTerminal =>
    obtain ⟨rfl, -⟩ := by simpa [TriageTableWorld.step] using h
    exact hkey

theorem TriageMatch.keys {next : Option TriageWorker}
    (h : TriageMatch settings mailboxEmail n x s' next y) {key : String × MessageId}
    (hkey : key ∈ x.table.records.map TriageRecord.key) :
    key ∈ y.table.records.map TriageRecord.key := by
  rcases h.step with rfl | ⟨tableCall, answer, hs⟩
  · exact hkey
  · exact keys_of_step hs hkey

theorem TriageWorker.Backed.mono {worker : TriageWorker} (h : worker.Backed mailboxEmail x.table)
    (hkeys : ∀ key ∈ x.table.records.map TriageRecord.key,
      key ∈ y.table.records.map TriageRecord.key) : worker.Backed mailboxEmail y.table := by
  obtain ⟨messageId, sourceHistoryId, call⟩ := worker
  cases call with
  | analysing | finalizing | releasing => exact ⟨h.1, hkeys _ h.2⟩
  | _ => trivial

/-- A worker that has no claim to make stops what it has in progress, or has nothing in progress. -/
theorem exists_triageMatch_of_idle (h : s.Shows mailboxEmail x.table) {next : Option TriageWorker}
    (hidle : next.bind (·.pendingClaim mailboxEmail) = none)
    (hbacked : ∀ worker, next = some worker → worker.Backed mailboxEmail x.table) :
    ∃ y, TriageMatch settings mailboxEmail n x s next y := by
  cases hpending : x.pending n with
  | none =>
    refine ⟨x, Or.inl rfl, h, ?_, hbacked⟩
    rw [hidle, ← hpending, Function.update_eq_self]
  | some pending =>
    refine ⟨x.setPending n none, Or.inr ⟨.abandon n, .raised, ?_⟩, h, ?_, hbacked⟩
    · simp only [TriageTableWorld.step, hpending]
    · rw [hidle]
      rfl

/-- The lease rules on the row of the message. -/
theorem triageMatch_of_claimRow (h : s.Shows mailboxEmail x.table) {record : TriageRecord}
    (hselect : x.table.select (mailboxEmail, id) = some record)
    (htable : y.table = (x.table.claimRecord settings now record).1)
    (hpending : y.pending = Function.update x.pending n none)
    (hs : x.step settings tableCall = some (y, answer)) :
    TriageMatch settings mailboxEmail n x (s.claimRow settings id now record.work).1
      (some ⟨id, sourceHistoryId, afterClaim (s.claimRow settings id now record.work).2⟩) y := by
  obtain ⟨hmem, hkey⟩ := TriageTable.mem_select hselect
  have hthere : (mailboxEmail, id) ∈ y.table.records.map TriageRecord.key := by
    rw [htable, map_key_claimRecord, ← hkey]
    exact List.mem_map_of_mem hmem
  have hshows : (s.claimRow settings id now record.work).1.Shows mailboxEmail y.table :=
    htable ▸ h.claimRow hmem hkey
  cases hanswer : (s.claimRow settings id now record.work).2 with
  | claimed claim =>
    refine ⟨Or.inr ⟨_, _, hs⟩, hshows, hpending, ?_⟩
    rintro worker ⟨⟩
    exact ⟨claimRow_claimed hanswer, hthere⟩
  | refused =>
    refine ⟨Or.inr ⟨_, _, hs⟩, hshows, hpending, ?_⟩
    rintro worker ⟨⟩
    trivial

/-- **A transaction of a call is a call on the table.** -/
theorem exists_triageMatch_of_transaction (h : s.Shows mailboxEmail x.table)
    (hpending : x.pending n = TriageWorker.pendingClaim mailboxEmail ⟨id, sourceHistoryId, call⟩)
    (hbacked : TriageWorker.Backed mailboxEmail x.table ⟨id, sourceHistoryId, call⟩)
    (htransaction : call.transaction settings s id sourceHistoryId now = some (s', call')) :
    ∃ y, TriageMatch settings mailboxEmail n x s' (some ⟨id, sourceHistoryId, call'⟩) y := by
  cases call with
  | claiming =>
    have hfree : x.pending n = none := hpending
    have hsame : x.pending = Function.update x.pending n none := by
      rw [← hfree, Function.update_eq_self]
    simp only [TriageCall.transaction] at htransaction
    split at htransaction
    · rename_i hnone
      obtain ⟨rfl, rfl⟩ := by simpa using htransaction
      refine ⟨x.setPending n (some ⟨(mailboxEmail, id), sourceHistoryId, now, .inserting⟩),
        Or.inr ⟨.claim n mailboxEmail id sourceHistoryId now, .pending, ?_⟩, h, rfl, ?_⟩
      · simp only [TriageTableWorld.step, hfree, h.select_eq_none hnone]
      · rintro worker ⟨⟩
        trivial
    · rename_i row hrow
      obtain ⟨rfl, rfl⟩ := by simpa using htransaction
      obtain ⟨record, hselect, rfl⟩ := h.exists_select hrow
      have hstep : x.step settings (.claim n mailboxEmail id sourceHistoryId now) =
          some (⟨(x.table.claimRecord settings now record).1, x.pending⟩,
            (x.table.claimRecord settings now record).2) := by
        simp only [TriageTableWorld.step, hfree, hselect]
      exact ⟨⟨_, x.pending⟩, triageMatch_of_claimRow h hselect rfl hsame hstep⟩
  | inserting started =>
    have hstarted : x.pending n =
      some ⟨(mailboxEmail, id), sourceHistoryId, started, .inserting⟩ := hpending
    simp only [TriageCall.transaction] at htransaction
    split at htransaction
    · rename_i hnone
      obtain ⟨rfl, rfl⟩ := by simpa using htransaction
      obtain ⟨t', answer, hinsert, hshows⟩ := h.insertRow hnone sourceHistoryId
      refine ⟨{ x with table := t' }.setPending n none, Or.inr ⟨.insert n, answer, ?_⟩, hshows,
        rfl, ?_⟩
      · simp only [TriageTableWorld.step, hstarted, hinsert]
      · rintro worker ⟨⟩
        refine ⟨rfl, ?_⟩
        obtain ⟨record, hmem, hkey, -⟩ := (hshows.rows id _).mp (s.setRow_self id _)
        exact List.mem_map.mpr ⟨record, hmem, hkey⟩
    · rename_i row hrow
      obtain ⟨rfl, rfl⟩ := by simpa using htransaction
      obtain ⟨record, hselect, -⟩ := h.exists_select hrow
      refine ⟨x.setPending n (some ⟨(mailboxEmail, id), sourceHistoryId, started, .conflicted⟩),
        Or.inr ⟨.insert n, .pending, ?_⟩, h, rfl, ?_⟩
      · simp only [TriageTableWorld.step, hstarted, TriageTable.insert, hselect]
      · rintro worker ⟨⟩
        trivial
  | conflicted started =>
    have hstarted : x.pending n =
      some ⟨(mailboxEmail, id), sourceHistoryId, started, .conflicted⟩ := hpending
    simp only [TriageCall.transaction] at htransaction
    split at htransaction
    · rename_i hnone
      obtain ⟨rfl, rfl⟩ := by simpa using htransaction
      refine ⟨x.setPending n none, Or.inr ⟨.reselect n, .raised, ?_⟩, h, rfl, ?_⟩
      · simp only [TriageTableWorld.step, hstarted, h.select_eq_none hnone]
      · rintro worker ⟨⟩
        trivial
    · rename_i row hrow
      obtain ⟨rfl, rfl⟩ := by simpa using htransaction
      obtain ⟨record, hselect, rfl⟩ := h.exists_select hrow
      have hstep : x.step settings (.reselect n) =
          some
            ({ x with table := (x.table.claimRecord settings started record).1 }.setPending n none,
              (x.table.claimRecord settings started record).2) := by
        simp only [TriageTableWorld.step, hstarted, hselect]
      exact ⟨_, triageMatch_of_claimRow h hselect rfl rfl hstep⟩
  | refused =>
    obtain ⟨rfl, rfl⟩ := by simpa [TriageCall.transaction] using htransaction
    exact exists_triageMatch_of_idle h rfl (by rintro worker ⟨⟩; trivial)
  | finalizing claim args guarded =>
    obtain ⟨rfl, rfl⟩ := by simpa [TriageCall.transaction] using htransaction
    obtain ⟨hid, hthere⟩ := hbacked
    obtain ⟨record, hmem, hkey⟩ := List.mem_map.mp hthere
    have hidle : x.pending = Function.update x.pending n none := by
      rw [← show x.pending n = none from hpending, Function.update_eq_self]
    refine ⟨⟨x.table.finalizeTriageWork now ⟨record.id, claim.leaseToken⟩ args, x.pending⟩,
      Or.inr ⟨.finalize ⟨record.id, claim.leaseToken⟩ args now, .done, rfl⟩,
      h.finalize hmem (by rw [hkey, hid]) args, hidle, ?_⟩
    rintro worker ⟨⟩
    trivial
  | releasing claim errorCode =>
    obtain ⟨rfl, rfl⟩ := by simpa [TriageCall.transaction] using htransaction
    obtain ⟨hid, hthere⟩ := hbacked
    obtain ⟨record, hmem, hkey⟩ := List.mem_map.mp hthere
    have hidle : x.pending = Function.update x.pending n none := by
      rw [← show x.pending n = none from hpending, Function.update_eq_self]
    refine ⟨⟨x.table.releaseTriageWork settings now ⟨record.id, claim.leaseToken⟩ errorCode,
        x.pending⟩,
      Or.inr ⟨.release ⟨record.id, claim.leaseToken⟩ errorCode now, .done, rfl⟩,
      h.release hmem (by rw [hkey, hid]) errorCode, hidle, ?_⟩
    rintro worker ⟨⟩
    trivial
  | _ => cases htransaction

/-- A transaction that leaves a claim in progress has written nothing. -/
theorem eq_or_eq_none_of_transaction
    (h : call.transaction settings s id sourceHistoryId now = some (s', call')) :
    s' = s ∨ TriageWorker.pendingClaim mailboxEmail ⟨id, sourceHistoryId, call'⟩ = none := by
  have hclaimed : ∀ answer : ClaimAnswer,
      TriageWorker.pendingClaim mailboxEmail ⟨id, sourceHistoryId, afterClaim answer⟩ = none := by
    intro answer
    cases answer with
    | claimed claim => rfl
    | refused => rfl
  cases call with
  | claiming =>
    simp only [TriageCall.transaction] at h
    split at h
    · obtain ⟨rfl, -⟩ := by simpa using h
      exact Or.inl rfl
    · obtain ⟨-, rfl⟩ := by simpa using h
      exact Or.inr (hclaimed _)
  | inserting started =>
    simp only [TriageCall.transaction] at h
    split at h
    · obtain ⟨-, rfl⟩ := by simpa using h
      exact Or.inr rfl
    · obtain ⟨rfl, -⟩ := by simpa using h
      exact Or.inl rfl
  | conflicted started =>
    simp only [TriageCall.transaction] at h
    split at h
    · obtain ⟨rfl, -⟩ := by simpa using h
      exact Or.inl rfl
    · obtain ⟨-, rfl⟩ := by simpa using h
      exact Or.inr (hclaimed _)
  | refused | finalizing | releasing =>
    obtain ⟨-, rfl⟩ := by simpa [TriageCall.transaction] using h
    exact Or.inr rfl
  | _ => cases h

theorem pendingClaim_afterDatabaseError :
    TriageWorker.pendingClaim mailboxEmail ⟨id, sourceHistoryId, call.afterDatabaseError⟩ =
      none := by
  cases call with
  | finalizing claim args guarded =>
    cases guarded with
    | true => rfl
    | false => rfl
  | _ => rfl

theorem backed_afterDatabaseError
    (h : TriageWorker.Backed mailboxEmail t ⟨id, sourceHistoryId, call⟩) :
    TriageWorker.Backed mailboxEmail t ⟨id, sourceHistoryId, call.afterDatabaseError⟩ := by
  cases call with
  | finalizing claim args guarded =>
    cases guarded with
    | true => exact h
    | false => trivial
  | _ => trivial

/-- **A step of a call is a call on the table, or none.** -/
theorem exists_triageMatch_of_step (h : s.Shows mailboxEmail x.table)
    (hpending : x.pending n = TriageWorker.pendingClaim mailboxEmail ⟨id, sourceHistoryId, call⟩)
    (hbacked : TriageWorker.Backed mailboxEmail x.table ⟨id, sourceHistoryId, call⟩)
    (hs : call.step settings s id sourceHistoryId event = some (s', call')) :
    ∃ y, TriageMatch settings mailboxEmail n x s' (some ⟨id, sourceHistoryId, call'⟩) y := by
  cases event with
  | transact now => exact exists_triageMatch_of_transaction h hpending hbacked hs
  | databaseFails committed now =>
    simp only [TriageCall.step] at hs
    split at hs
    · cases hs
    · rename_i s'' call'' htransaction
      obtain ⟨rfl, rfl⟩ := by simpa using hs
      have hidle : ∃ y, TriageMatch settings mailboxEmail n x s
          (some ⟨id, sourceHistoryId, call.afterDatabaseError⟩) y := by
        refine exists_triageMatch_of_idle h pendingClaim_afterDatabaseError ?_
        rintro worker ⟨⟩
        exact backed_afterDatabaseError hbacked
      cases committed with
      | false => exact hidle
      | true =>
        rcases eq_or_eq_none_of_transaction htransaction with hsame | hnone
        · rw [if_pos rfl, hsame]
          exact hidle
        · -- The transaction is in the table, and the call goes on as after an error.
          obtain ⟨y, hy⟩ := exists_triageMatch_of_transaction h hpending hbacked htransaction
          refine ⟨y, hy.step, hy.shows, ?_, ?_⟩
          · rw [hy.pending]
            refine congrArg _ (hnone.trans ?_)
            exact pendingClaim_afterDatabaseError.symm
          · rintro worker ⟨⟩
            exact (backed_afterDatabaseError hbacked).mono fun key ↦ hy.keys
  | analysed result =>
    simp only [TriageCall.step] at hs
    split at hs
    · rename_i claim
      obtain ⟨rfl, rfl⟩ := by simpa using hs
      have hafter : TriageWorker.pendingClaim mailboxEmail
            ⟨id, sourceHistoryId, afterAnalysis claim result⟩ = none ∧
          TriageWorker.Backed mailboxEmail x.table
            ⟨id, sourceHistoryId, afterAnalysis claim result⟩ := by
        cases result with
        | rejected statusCode =>
          rw [afterAnalysis]
          split
          · exact ⟨rfl, hbacked⟩
          · exact ⟨rfl, hbacked⟩
        | _ => exact ⟨rfl, hbacked⟩
      refine exists_triageMatch_of_idle h hafter.1 ?_
      rintro worker ⟨⟩
      exact hafter.2
    · cases hs
  | abandon =>
    have hraised : s' = s ∧ call' = .raised := by
      simp only [TriageCall.step] at hs
      split at hs
      · cases hs
      · cases hs
      · obtain ⟨rfl, rfl⟩ := by simpa using hs
        exact ⟨rfl, rfl⟩
    obtain ⟨rfl, rfl⟩ := hraised
    refine exists_triageMatch_of_idle h rfl ?_
    rintro worker ⟨⟩
    trivial

end

/-! ## The workers -/

/-- The message that a worker is triaging. -/
def WorkerPhase.triageWorker : WorkerPhase → Option TriageWorker
  | .triagingInbox _ sourceHistoryId _ _ (some (messageId, call)) =>
    some ⟨messageId, sourceHistoryId, call⟩
  | .triagingHistory _ final _ (some (messageId, call)) => some ⟨messageId, final, call⟩
  | _ => none

def MailWorld.triageWorker (w : MailWorld) (n : ℕ) : Option TriageWorker :=
  (w.workers n).bind fun worker ↦ worker.phase.triageWorker

section

variable {env : MailEnv} {w w' : MailWorld} {worker : Worker} {label : WorkerEvent}
  {result : StepResult} {phase : WorkerPhase} {next : Option WorkerPhase}

theorem triageWorker_of_plain (h : phase.plain = true) : phase.triageWorker = none := by
  cases phase with
  | triagingInbox => cases h
  | triagingHistory => cases h
  | _ => rfl

theorem PlainNext.triageWorker (h : PlainNext next) :
    next.bind WorkerPhase.triageWorker = none := by
  cases next with
  | none => rfl
  | some phase => exact triageWorker_of_plain (h phase rfl)

/-- A step of a worker is a step of the call it is in, or leaves the rows alone and the worker
without a claim. -/
theorem WorkerEffect.triage (h : WorkerEffect env w worker label result) :
    (∃ id sourceHistoryId call call' event,
      worker.phase.triageWorker = some ⟨id, sourceHistoryId, call⟩ ∧
        call.step env.settings w.triage id sourceHistoryId event = some (result.triage, call') ∧
        result.phase.bind WorkerPhase.triageWorker = some ⟨id, sourceHistoryId, call'⟩) ∨
      result.triage = w.triage ∧
        ∀ next, result.phase.bind WorkerPhase.triageWorker = some next → next.call = .claiming := by
  cases h with
  | plain steady triage listed next =>
    refine Or.inr ⟨triage, fun other hother ↦ ?_⟩
    rw [next.triageWorker] at hother
    cases hother
  | historyTriage labelled phase called =>
    exact Or.inl ⟨_, _, _, _, _, by rw [phase]; rfl, called, rfl⟩
  | inboxTriage labelled phase called =>
    exact Or.inl ⟨_, _, _, _, _, by rw [phase]; rfl, called, rfl⟩
  | historyTaken | inboxTaken =>
    refine Or.inr ⟨rfl, ?_⟩
    rintro next ⟨⟩
    rfl
  | checkpointed phase plain =>
    refine Or.inr ⟨rfl, fun other hother ↦ ?_⟩
    rw [plain.triageWorker] at hother
    cases hother
  | recovered phase succeeds =>
    refine Or.inr ⟨rfl, fun other hother ↦ ?_⟩
    rcases succeeds with ⟨rfl, -⟩ | plain
    · cases hother
    · rw [plain.triageWorker] at hother
      cases hother
  | _ => exact Or.inr ⟨rfl, nofun⟩

end

/-! ## The refinement -/

/-- The workers and the table of triage work, of which they have one mailbox. -/
structure TriageTracks (mailboxEmail : String) (w : MailWorld) (x : TriageTableWorld) : Prop where
  shows : w.triage.Shows mailboxEmail x.table
  pending : ∀ n, x.pending n = (w.triageWorker n).bind (·.pendingClaim mailboxEmail)
  backed : ∀ n worker, w.triageWorker n = some worker → worker.Backed mailboxEmail x.table

section

variable {env : MailEnv} {mailboxEmail : String} {w w' : MailWorld} {x y : TriageTableWorld}
  {e : MailLabel} {o : Reply} {n : ℕ}

/-- A match for the step of one worker. -/
theorem TriageTracks.matched (h : TriageTracks mailboxEmail w x)
    (hmatch : TriageMatch env.settings mailboxEmail n x w'.triage (w'.triageWorker n) y)
    (hothers : ∀ m, m ≠ n → w'.triageWorker m = w.triageWorker m) :
    TriageTracks mailboxEmail w' y := by
  refine ⟨hmatch.shows, fun m ↦ ?_, fun m worker hm ↦ ?_⟩
  · rw [hmatch.pending]
    by_cases hmn : m = n
    · subst hmn
      exact Function.update_self _ _ _
    · rw [Function.update_of_ne hmn, hothers m hmn]
      exact h.pending m
  · by_cases hmn : m = n
    · subst hmn
      exact hmatch.backed worker hm
    · rw [hothers m hmn] at hm
      exact (h.backed m worker hm).mono fun key ↦ hmatch.keys

/-- **Every step of the workers is one call on the table of triage work, or none.** -/
theorem TriageTracks.step (h : TriageTracks mailboxEmail w x)
    (hs : w.step env e = some (w', o)) :
    ∃ y, (y = x ∨ ∃ call answer, x.step env.settings call = some (y, answer)) ∧
      TriageTracks mailboxEmail w' y := by
  cases mailEffect_of_step hs with
  | gmail => exact ⟨x, Or.inl rfl, h.shows, h.pending, h.backed⟩
  | jobs => exact ⟨x, Or.inl rfl, h.shows, h.pending, h.backed⟩
  | @claimed n id clock jobs worker steady fresh =>
    have hself : ((w.setJobs jobs).setWorker n worker).triageWorker n = none := by
      rw [MailWorld.triageWorker, MailWorld.setWorker_self]
      cases worker with
      | none => rfl
      | some claimed => rw [Option.bind_some, fresh claimed rfl]; rfl
    have hidle : ∃ y, TriageMatch env.settings mailboxEmail n x w.triage none y :=
      exists_triageMatch_of_idle h.shows rfl nofun
    obtain ⟨y, hy⟩ := hidle
    rw [← hself] at hy
    have hothers : ∀ m, m ≠ n →
        ((w.setJobs jobs).setWorker n worker).triageWorker m = w.triageWorker m := by
      intro m hmn
      rw [MailWorld.triageWorker, MailWorld.setWorker_of_ne _ hmn]
      rfl
    exact ⟨y, hy.step, h.matched hy hothers⟩
  | @work n label worker result current effect =>
    have hself : (w.apply n worker result).triageWorker n =
        result.phase.bind WorkerPhase.triageWorker := by
      rw [MailWorld.triageWorker, MailWorld.apply_self]
      cases result.phase with
      | none => rfl
      | some phase => rfl
    have hothers : ∀ m, m ≠ n → (w.apply n worker result).triageWorker m = w.triageWorker m := by
      intro m hmn
      rw [MailWorld.triageWorker, MailWorld.apply_of_ne _ hmn]
      rfl
    have hbefore : w.triageWorker n = worker.phase.triageWorker := by
      rw [MailWorld.triageWorker, current]
      rfl
    -- Either the step is one of the call of the message in hand, or the table is left alone.
    rcases effect.triage with ⟨id, sourceHistoryId, call, call', event, hworker, hcall, hnext⟩ |
      ⟨hsame, hnext⟩
    · rw [hworker] at hbefore
      have hpending := h.pending n
      rw [hbefore] at hpending
      obtain ⟨y, hy⟩ := exists_triageMatch_of_step h.shows hpending (h.backed n _ hbefore) hcall
      rw [← hnext, ← hself] at hy
      exact ⟨y, hy.step, h.matched hy hothers⟩
    · have hidle : ∃ y, TriageMatch env.settings mailboxEmail n x w.triage
          (result.phase.bind WorkerPhase.triageWorker) y := by
        cases hphase : result.phase.bind WorkerPhase.triageWorker with
        | none => exact exists_triageMatch_of_idle h.shows rfl nofun
        | some next =>
          have hclaiming := hnext next hphase
          refine exists_triageMatch_of_idle h.shows ?_ ?_
          · rw [Option.bind_some, TriageWorker.pendingClaim, hclaiming]
          · rintro worker ⟨⟩
            rw [TriageWorker.Backed, hclaiming]
            trivial
      obtain ⟨y, hy⟩ := hidle
      rw [← hself, ← hsame] at hy
      exact ⟨y, hy.step, h.matched hy hothers⟩

/-- **The workers refine the table of triage work.** -/
theorem simulation_triageTable (env : MailEnv) (mailboxEmail : String) :
    System.Simulation (mailWorkers env) (triageTable env.settings) System.anyStep System.anyStep
      (TriageTracks mailboxEmail) where
  init w hinit := by
    obtain ⟨-, -, -, hrows, hworkers, -⟩ := hinit
    have hnone : ∀ n, w.triageWorker n = none := fun n ↦ by
      rw [MailWorld.triageWorker, hworkers n]
      rfl
    have hwell : (⟨[], 0, w.triage.nextToken⟩ : TriageTable).WellFormed :=
      ⟨.nil, .nil, fun _ hmem ↦ absurd hmem List.not_mem_nil,
        fun _ hmem ↦ absurd hmem List.not_mem_nil⟩
    refine ⟨⟨⟨[], 0, w.triage.nextToken⟩, fun _ ↦ none⟩, ⟨hwell, fun _ ↦ rfl⟩,
      ⟨hwell, rfl, fun id row ↦ ?_⟩, fun n ↦ ?_, fun n worker hn ↦ ?_⟩
    · rw [hrows id]
      exact ⟨nofun, fun ⟨record, hmem, _⟩ ↦ absurd hmem List.not_mem_nil⟩
    · rw [hnone n]
      rfl
    · rw [hnone n] at hn
      cases hn
  step w x e w' o h _ hs := by
    obtain ⟨y, hstep, htracks⟩ := h.step hs
    rcases hstep with rfl | ⟨call, answer, hcall⟩
    · exact Or.inl htracks
    · exact Or.inr ⟨call, y, answer, trivial, hcall, htracks⟩

/-- The rows that a run of the workers leaves are in the table after some calls on it. -/
theorem exists_triageTracks_of_run {tr : List (MailLabel × Reply)}
    (hinit : (mailWorkers env).init w) (hrun : System.Run (mailWorkers env) System.anyStep w tr w')
    (mailboxEmail : String) :
    ∃ x y tr', (triageTable env.settings).init x ∧
      System.Run (triageTable env.settings) System.anyStep x tr' y ∧
      TriageTracks mailboxEmail w' y := by
  have hsimulation := simulation_triageTable env mailboxEmail
  obtain ⟨x, hx, htracks⟩ := hsimulation.init w hinit
  obtain ⟨y, tr', hfollow, htracks'⟩ := hsimulation.follow hrun htracks
  exact ⟨x, y, tr', hx, hfollow, htracks'⟩

end

end Onebox.Notifications
