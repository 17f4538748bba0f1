import Onebox.Notifications.TriageTable

/-!
# One outcome per message

A row stays in the state `processing` across all of its leases, so it is not the state that keeps
its workers apart. What does is that a row is written only by the holder of its token, or to grant a
new one; and that a new one is granted only when the lease, or the wait after a release, has run out
on the clock. Both readings of a call that loses the race for the insertion are old, but none is
later than the clock.
-/

namespace Onebox.Notifications

open Python Transition

/-- The table under a clock that does not run backwards. -/
def triageUnderClock (settings : Settings) :
    System (Clocked TriageTableWorld Time) (Time × TriageTableCall) TriageTableAnswer :=
  (triageTable settings).clocked TriageTableCall.reading

/-- Runs of the table under a clock. -/
abbrev TriageRun (settings : Settings) :=
  System.Run (triageUnderClock settings) System.anyStep

/-- What holds of the table and of the claims in progress at every time. -/
structure TriageTableInvariant (s : Clocked TriageTableWorld Time) : Prop where
  table : s.state.table.WellFormed
  readings : s.state.ReadingsBy s.clock

section

variable {settings : Settings} {s t u : Clocked TriageTableWorld Time} {time : Time}
  {call : TriageTableCall} {answer : TriageTableAnswer}
  {tr : List ((Time × TriageTableCall) × TriageTableAnswer)}

theorem triageTableInvariant_init (h : (triageUnderClock settings).init s) :
    TriageTableInvariant s where
  table := h.1
  readings n p hp := by
    rw [h.2 n] at hp
    cases hp

/-- The step lemma. -/
theorem TriageTableInvariant.step (hI : TriageTableInvariant s)
    (h : (triageUnderClock settings).step s (time, call) = some (t, answer)) :
    TriageTableInvariant t ∧ s.clock ≤ t.clock ∧
      TriageEffect settings s.state.table t.clock call t.state.table answer := by
  obtain ⟨hclock, rfl, hreading, hstep⟩ := System.step_of_clocked h
  have hreadings : s.state.ReadingsBy t.clock :=
    fun n p hp ↦ Nat.le_trans (hI.readings n p hp) hclock
  have heffect := effect_of_step hreadings hreading hstep
  exact ⟨⟨heffect.wellFormed hI.table, hreadings.step hreading hstep⟩, hclock, heffect⟩

theorem TriageTableInvariant.run (hI : TriageTableInvariant s) (h : TriageRun settings s tr t) :
    TriageTableInvariant t :=
  h.invariant hI fun _ _ _ _ hI' _ hs ↦ (hI'.step hs).1

end

/-! ## What the rows of a table become -/

/-- What a transaction makes of a row of its table. -/
inductive RecordMove (settings : Settings) (t : TriageTable) (time : Time) (call : TriageTableCall)
    (record : TriageRecord) : GmailTriageWork → Prop
  | stays : RecordMove settings t time call record record.work
  | reclaimed (now : Time) (hrefuses : record.work.refuses now = false) (hnow : now ≤ time) :
      RecordMove settings t time call record (record.work.reclaimed settings now t.nextToken)
  | finalized (claim : RowClaim) (args : FinalizeTriage) (now : Time)
      (hcall : call = .finalize claim args now) (hid : record.id = claim.id)
      (hheld : record.work.HeldBy claim.leaseToken) :
      RecordMove settings t time call record (record.work.finalized now args)
  | released (claim : RowClaim) (errorCode : String) (now : Time)
      (hcall : call = .release claim errorCode now) (hid : record.id = claim.id)
      (hheld : record.work.HeldBy claim.leaseToken) :
      RecordMove settings t time call record (record.work.released settings now errorCode)

section

variable {settings : Settings} {t t' : TriageTable} {time : Time} {call : TriageTableCall}
  {answer : TriageTableAnswer} {record other : TriageRecord}

/-- The row that is written, or one of the others. -/
theorem mem_setWork_of_mem (work : GmailTriageWork) (hI : t.WellFormed)
    (hother : other ∈ t.records) (hrecord : record ∈ t.records) :
    (other = record ∧ { other with work := work } ∈ (t.setWork record.id work).records) ∨
      other ∈ (t.setWork record.id work).records := by
  by_cases hid : other.id = record.id
  · obtain rfl := hI.eq_of_id hother hrecord hid
    exact Or.inl ⟨rfl, TriageTable.mem_setWork_self hother⟩
  · exact Or.inr (TriageTable.mem_setWork_of_ne hother hid)

/-- **Every row survives**, with what the transaction makes of it. -/
theorem TriageEffect.move (h : TriageEffect settings t time call t' answer) (hI : t.WellFormed)
    (hrecord : record ∈ t.records) :
    ∃ work, { record with work := work } ∈ t'.records ∧
      RecordMove settings t time call record work := by
  cases h with
  | nothing => exact ⟨record.work, hrecord, .stays⟩
  | inserted => exact ⟨record.work, List.mem_append_left _ hrecord, .stays⟩
  | reclaimed row now hmem hrefuses hnow =>
    rcases mem_setWork_of_mem (row.work.reclaimed settings now t.nextToken)
        hI hrecord hmem with ⟨rfl, hwritten⟩ | hkept
    · exact ⟨_, hwritten, .reclaimed now hrefuses hnow⟩
    · exact ⟨record.work, hkept, .stays⟩
  | finalized row claim args now hcall hmem hid hheld =>
    rcases mem_setWork_of_mem (row.work.finalized now args)
        hI hrecord hmem with ⟨rfl, hwritten⟩ | hkept
    · exact ⟨_, hwritten, .finalized claim args now hcall hid hheld⟩
    · exact ⟨record.work, hkept, .stays⟩
  | released row claim errorCode now hcall hmem hid hheld =>
    rcases mem_setWork_of_mem (row.work.released settings now errorCode)
        hI hrecord hmem with ⟨rfl, hwritten⟩ | hkept
    · exact ⟨_, hwritten, .released claim errorCode now hcall hid hheld⟩
    · exact ⟨record.work, hkept, .stays⟩

/-- The row of a claim that has been granted carries its token and a lease. -/
theorem TriageEffect.granted {claim : RowClaim}
    (h : TriageEffect settings t time call t' (.granted claim)) :
    claim.leaseToken = t.nextToken ∧ t'.nextToken = t.nextToken + 1 ∧
      ∃ record ∈ t'.records, record.id = claim.id ∧
        record.work.leaseToken = some claim.leaseToken ∧
        ∃ expires, record.work.leaseExpiresAt = some expires := by
  cases h with
  | nothing h => exact absurd rfl (h claim)
  | inserted =>
    exact ⟨rfl, rfl, _, List.mem_append_right _ (List.mem_singleton_self _), rfl, rfl, _, rfl⟩
  | reclaimed record now hmem hrefuses hnow =>
    exact ⟨rfl, rfl, _, TriageTable.mem_setWork_self hmem, rfl, rfl, _, rfl⟩

end

/-- A row whose outcome is recorded is left as it is. -/
theorem RecordMove.eq_of_terminal {settings : Settings} {t : TriageTable} {time : Time}
    {call : TriageTableCall} {record : TriageRecord} {work : GmailTriageWork}
    (h : RecordMove settings t time call record work)
    (hterminal : record.work.state.terminal = true) : work = record.work := by
  have hnot : ∀ token, ¬record.work.HeldBy token := by
    intro token hheld
    rw [hheld.1] at hterminal
    cases hterminal
  cases h with
  | stays => rfl
  | reclaimed now hrefuses =>
    rw [(GmailTriageWork.refuses_eq_false hrefuses).1] at hterminal
    cases hterminal
  | finalized claim _ _ _ _ hheld => exact absurd hheld (hnot claim.leaseToken)
  | released claim _ _ _ _ hheld => exact absurd hheld (hnot claim.leaseToken)

/-! ## What excludes a second claim -/

/-- Between `s` and `t` the claim was released by its holder, who put the next attempt off to
`next`. -/
def ReleasedBetween (settings : Settings) (s t : Clocked TriageTableWorld Time) (claim : RowClaim)
    (next : Time) : Prop :=
  ∃ v v' tr tr' time errorCode now answer record, TriageRun settings s tr v ∧
    v.state.table.held claim = some record ∧
    (triageUnderClock settings).step v (time, .release claim errorCode now) = some (v', answer) ∧
    next = retryAt settings now (max 1 record.work.attemptCount) ∧
    TriageRun settings v' tr' t

/-- The row of a claim granted in the step to `s`: the claim still holds it, or its lease has run
out, or it was released and the row is waiting for its next attempt or may be attempted again. -/
inductive Excludes (settings : Settings) (s t : Clocked TriageTableWorld Time) (claim : RowClaim)
    (expires : Time) (row : GmailTriageWork) : Prop
  | holds (htoken : row.leaseToken = some claim.leaseToken)
      (hexpires : row.leaseExpiresAt = some expires)
  | expired (h : expires ≤ t.clock)
  | waits (next : Time) (h : ReleasedBetween settings s t claim next)
      (htoken : row.leaseToken = none) (hnext : row.nextAttemptAt = some next)
  | waited (next : Time) (h : ReleasedBetween settings s t claim next) (hnext : next ≤ t.clock)

section

variable {settings : Settings} {s t u : Clocked TriageTableWorld Time} {claim : RowClaim}
  {expires next time : Time} {call : TriageTableCall} {answer : TriageTableAnswer}
  {record : TriageRecord} {work : GmailTriageWork}

theorem ReleasedBetween.snoc (h : ReleasedBetween settings s t claim next)
    (hs : (triageUnderClock settings).step t (time, call) = some (u, answer)) :
    ReleasedBetween settings s u claim next := by
  obtain ⟨v, v', tr, tr', time', errorCode, now, answer', record, hrun, hheld, hstep, hnext,
    hrest⟩ := h
  exact ⟨v, v', tr, _, time', errorCode, now, answer', record, hrun, hheld, hstep, hnext,
    hrest.snoc trivial hs⟩

/-- The holder of a row of a well-formed table is found. -/
theorem held_eq_some {t : TriageTable} (hI : t.WellFormed) (hmem : record ∈ t.records)
    (hid : record.id = claim.id) (hheld : record.work.HeldBy claim.leaseToken) :
    t.held claim = some record := by
  cases hfind : t.held claim with
  | none =>
    have hnot := List.find?_eq_none.mp hfind record hmem
    rw [decide_eq_true_eq] at hnot
    exact absurd ⟨hid, hheld⟩ hnot
  | some other =>
    obtain ⟨hother, hid', -⟩ := TriageTable.mem_held hfind
    rw [hI.eq_of_id hother hmem (hid'.trans hid.symm)]

/-- **The step lemma of exclusion.** -/
theorem Excludes.step {tr : List ((Time × TriageTableCall) × TriageTableAnswer)}
    (hrun : TriageRun settings s tr t) (hI : TriageTableInvariant t)
    (h : Excludes settings s t claim expires record.work) (hmem : record ∈ t.state.table.records)
    (hid : record.id = claim.id)
    (hs : (triageUnderClock settings).step t (time, call) = some (u, answer))
    (hmove : RecordMove settings t.state.table u.clock call record work) :
    Excludes settings s u claim expires work := by
  obtain ⟨-, hclock, -⟩ := hI.step hs
  -- What has run out stays so; the other two cases depend on what becomes of the row.
  rcases h with ⟨htoken, hexpires⟩ | hexpired | ⟨next, hreleased, htoken, hnext⟩ |
    ⟨next, hreleased, hnext⟩
  · rcases hmove with _ | ⟨now, hrefuses, hnow⟩ | ⟨other, args, now, hcall, -, hheld⟩ |
      ⟨other, errorCode, now, hcall, hother, hheld⟩
    · exact .holds htoken hexpires
    · refine .expired (Nat.le_trans ?_ hnow)
      exact (GmailTriageWork.refuses_eq_false hrefuses).2.1 expires hexpires
    · exact .holds htoken hexpires
    · have heq : other = claim := by
        obtain ⟨id, token⟩ := other
        obtain ⟨id', token'⟩ := claim
        obtain rfl := Option.some.inj (htoken.symm.trans hheld.2)
        obtain rfl : id = id' := hother.symm.trans hid
        rfl
      subst heq hcall
      refine .waits _ ⟨t, u, tr, [], time, errorCode, now, answer, record, hrun,
        held_eq_some hI.table hmem hid hheld, hs, rfl, .nil u⟩ rfl rfl
  · exact .expired (Nat.le_trans hexpired hclock)
  · rcases hmove with _ | ⟨now, hrefuses, hnow⟩ | ⟨other, args, now, hcall, -, hheld⟩ |
      ⟨other, errorCode, now, hcall, -, hheld⟩
    · exact .waits next (hreleased.snoc hs) htoken hnext
    · refine .waited next (hreleased.snoc hs) (Nat.le_trans ?_ hnow)
      exact (GmailTriageWork.refuses_eq_false hrefuses).2.2 next hnext
    · rw [hheld.2] at htoken
      cases htoken
    · rw [hheld.2] at htoken
      cases htoken
  · exact .waited next (hreleased.snoc hs) (Nat.le_trans hnext hclock)

/-- The run lemma of exclusion: the row of a claim granted in `s` is still there, and is in one of
the four situations. -/
theorem Excludes.run {tr : List ((Time × TriageTableCall) × TriageTableAnswer)}
    (hrun : TriageRun settings s tr t) (hI : TriageTableInvariant s)
    (hmem : record ∈ s.state.table.records) (hid : record.id = claim.id)
    (htoken : record.work.leaseToken = some claim.leaseToken)
    (hexpires : record.work.leaseExpiresAt = some expires) :
    s.state.table.nextToken ≤ t.state.table.nextToken ∧ ∃ row,
      { record with work := row } ∈ t.state.table.records ∧
        Excludes settings s t claim expires row := by
  induction hrun with
  | nil => exact ⟨Nat.le_refl _, record.work, hmem, .holds htoken hexpires⟩
  | snoc hprefix _ hs ih =>
    obtain ⟨hle, row, hrow, hexcludes⟩ := ih
    have hIt := hI.run hprefix
    obtain ⟨-, -, heffect⟩ := hIt.step hs
    obtain ⟨work, hwork, hmove⟩ := heffect.move hIt.table hrow
    exact ⟨Nat.le_trans hle heffect.nextToken_le, work, hwork,
      hexcludes.step hprefix hIt hrow hid hs hmove⟩

end

/-- When a second claim is granted, the first one excludes nothing any more. -/
theorem Excludes.regranted {settings : Settings} {s t : Clocked TriageTableWorld Time}
    {claim : RowClaim} {expires time : Time} {call : TriageTableCall} {record : TriageRecord}
    {work : GmailTriageWork} (h : Excludes settings s t claim expires record.work)
    (hI : t.state.table.WellFormed) (hmem : record ∈ t.state.table.records)
    (hmove : RecordMove settings t.state.table time call record work) (hclock : t.clock ≤ time)
    (htoken : work.leaseToken = some t.state.table.nextToken) :
    expires ≤ time ∨ ∃ next, ReleasedBetween settings s t claim next ∧ next ≤ time := by
  rcases hmove with _ | ⟨now, hrefuses, hnow⟩ | ⟨other, args, now, hcall, -, hheld⟩ |
    ⟨other, errorCode, now, hcall, -, hheld⟩
  · exact absurd (hI.tokens_lt record hmem _ htoken) (Nat.lt_irrefl _)
  · obtain ⟨-, hlease, hattempt⟩ := GmailTriageWork.refuses_eq_false hrefuses
    rcases h with ⟨-, hexpires⟩ | hexpired | ⟨next, hreleased, -, hnext⟩ |
      ⟨next, hreleased, hnext⟩
    · exact Or.inl (Nat.le_trans (hlease expires hexpires) hnow)
    · exact Or.inl (Nat.le_trans hexpired hclock)
    · exact Or.inr ⟨next, hreleased, Nat.le_trans (hattempt next hnext) hnow⟩
    · exact Or.inr ⟨next, hreleased, Nat.le_trans hnext hclock⟩
  · exact absurd (hI.tokens_lt record hmem _ htoken) (Nat.lt_irrefl _)
  · cases htoken

/-! ## Finalization -/

section

variable {settings : Settings} {s t u : Clocked TriageTableWorld Time} {record : TriageRecord}
  {tr : List ((Time × TriageTableCall) × TriageTableAnswer)}

/-- The run lemma of terminal rows. -/
theorem terminal_run (hrun : TriageRun settings s tr t) (hI : TriageTableInvariant s)
    (hmem : record ∈ s.state.table.records) (hterminal : record.work.state.terminal = true) :
    record ∈ t.state.table.records := by
  induction hrun with
  | nil => exact hmem
  | snoc hprefix _ hs ih =>
    have hIt := hI.run hprefix
    obtain ⟨-, -, heffect⟩ := hIt.step hs
    obtain ⟨work, hwork, hmove⟩ := heffect.move hIt.table ih
    rw [hmove.eq_of_terminal hterminal] at hwork
    exact hwork

theorem held_eq_none_of_terminal {t : TriageTable} {claim : RowClaim} (hI : t.WellFormed)
    (hmem : record ∈ t.records) (hid : record.id = claim.id)
    (hterminal : record.work.state.terminal = true) : t.held claim = none := by
  cases hfind : t.held claim with
  | none => rfl
  | some other =>
    obtain ⟨hother, hid', hstate, -⟩ := TriageTable.mem_held hfind
    obtain rfl := hI.eq_of_id hother hmem (hid'.trans hid.symm)
    rw [hstate] at hterminal
    cases hterminal

/-- A row that was not there has no outcome. -/
theorem TriageEffect.outcome_of_new {t t' : TriageTable} {time : Time} {call : TriageTableCall}
    {answer : TriageTableAnswer} (h : TriageEffect settings t time call t' answer)
    (hI : t.WellFormed) (hmem : record ∈ t'.records)
    (hnew : ∀ before ∈ t.records, before.id ≠ record.id) :
    record.work.outcome = (.processing, none, none) := by
  have hwritten : ∀ (row : TriageRecord) (work : GmailTriageWork), row ∈ t.records →
      record ∉ (t.setWork row.id work).records := by
    intro row work hrow hrecord
    rcases hI.mem_setWork hrow hrecord with rfl | ⟨hold, -⟩
    · exact hnew row hrow rfl
    · exact hnew record hold rfl
  cases h with
  | nothing => exact absurd rfl (hnew record hmem)
  | inserted =>
    rcases List.mem_append.mp hmem with hold | hlast
    · exact absurd rfl (hnew record hold)
    · obtain rfl := List.mem_singleton.mp hlast
      rfl
  | reclaimed row _ hrow => exact absurd hmem (hwritten row _ hrow)
  | finalized row _ _ _ _ hrow => exact absurd hmem (hwritten row _ hrow)
  | released row _ _ _ _ hrow => exact absurd hmem (hwritten row _ hrow)

end

/-! ## A message is triaged once -/

/-- In every run of the table under a clock:

* no mailbox and message have two rows;
* of two claims granted for one message the tokens differ, and the second is granted after the lease
  of the first has run out, or after the first was released and the next attempt has come;
* only the holder of a row finalizes or releases it;
* the outcome of a row is written by a finalization of its holder only, an inserted row has none;
* after a finalization no call changes the row, and no claim holds it. -/
structure TriagedOnce (settings : Settings) : Prop where
  one_row : ∀ s t tr, (triageUnderClock settings).init s → TriageRun settings s tr t →
    (t.state.table.records.map TriageRecord.key).Nodup
  exclusive : ∀ s t u t' u' tr tr' e e' claim claim' record record',
    (triageUnderClock settings).init s → TriageRun settings s tr t →
    (triageUnderClock settings).step t e = some (u, .granted claim) →
    TriageRun settings u tr' t' →
    (triageUnderClock settings).step t' e' = some (u', .granted claim') →
    record ∈ u.state.table.records → record.id = claim.id →
    record' ∈ u'.state.table.records → record'.id = claim'.id → record.key = record'.key →
    claim.leaseToken ≠ claim'.leaseToken ∧ ∃ expires, record.work.leaseExpiresAt = some expires ∧
      (expires ≤ e'.1 ∨ ∃ next, ReleasedBetween settings u t' claim next ∧ next ≤ e'.1)
  holder : ∀ s t tr u time call answer claim, (triageUnderClock settings).init s →
    TriageRun settings s tr t →
    (triageUnderClock settings).step t (time, call) = some (u, answer) →
    (∃ args now, call = .finalize claim args now) ∨
      (∃ errorCode now, call = .release claim errorCode now) →
    (∃ record ∈ t.state.table.records, record.id = claim.id ∧
      record.work.HeldBy claim.leaseToken) ∨ u.state.table = t.state.table
  outcome : ∀ s t tr u time call answer record record', (triageUnderClock settings).init s →
    TriageRun settings s tr t →
    (triageUnderClock settings).step t (time, call) = some (u, answer) →
    record ∈ t.state.table.records → record' ∈ u.state.table.records → record.id = record'.id →
    record'.work.outcome = record.work.outcome ∨
      ∃ claim args now, call = .finalize claim args now ∧
        t.state.table.held claim = some record ∧
        record'.work.outcome = (args.state, storedSummary args.summary, some now)
  inserted : ∀ s t tr u time call answer record', (triageUnderClock settings).init s →
    TriageRun settings s tr t →
    (triageUnderClock settings).step t (time, call) = some (u, answer) →
    record' ∈ u.state.table.records → (∀ record ∈ t.state.table.records, record.id ≠ record'.id) →
    record'.work.outcome = (.processing, none, none)
  final : ∀ s t t' u tr tr' time claim args now answer record,
    (triageUnderClock settings).init s → TriageRun settings s tr t →
    (triageUnderClock settings).step t (time, .finalize claim args now) = some (u, answer) →
    t.state.table.held claim = some record → TriageRun settings u tr' t' →
    { record with work := record.work.finalized now args } ∈ t'.state.table.records ∧
      ∀ claim', claim'.id = claim.id → t'.state.table.held claim' = none

section

variable {settings : Settings} {s t u : Clocked TriageTableWorld Time} {time : Time}
  {call : TriageTableCall} {answer : TriageTableAnswer} {claim : RowClaim}

/-- A call of `finalize_triage_work` or `release_triage_work` that is not the holder's changes
nothing. -/
theorem table_eq_of_held_eq_none
    (hs : (triageUnderClock settings).step t (time, call) = some (u, answer))
    (hcall : (∃ args now, call = .finalize claim args now) ∨
      ∃ errorCode now, call = .release claim errorCode now)
    (hheld : t.state.table.held claim = none) : u.state.table = t.state.table := by
  obtain ⟨-, -, -, hstep⟩ := System.step_of_clocked hs
  rcases hcall with ⟨args, now, rfl⟩ | ⟨errorCode, now, rfl⟩
  · obtain ⟨hworld, -⟩ := by simpa [triageTable, TriageTableWorld.step] using hstep
    rw [← hworld]
    simp only [TriageTable.finalizeTriageWork, hheld]
  · obtain ⟨hworld, -⟩ := by simpa [triageTable, TriageTableWorld.step] using hstep
    rw [← hworld]
    simp only [TriageTable.releaseTriageWork, hheld]

/-- A finalization of the holder writes the outcome. -/
theorem finalized_mem {args : FinalizeTriage} {now : Time} {record : TriageRecord}
    (hs : (triageUnderClock settings).step t (time, .finalize claim args now) = some (u, answer))
    (hheld : t.state.table.held claim = some record) :
    { record with work := record.work.finalized now args } ∈ u.state.table.records := by
  obtain ⟨-, -, -, hstep⟩ := System.step_of_clocked hs
  obtain ⟨hworld, -⟩ := by simpa [triageTable, TriageTableWorld.step] using hstep
  rw [← hworld]
  simp only [TriageTable.finalizeTriageWork, hheld]
  exact TriageTable.mem_setWork_self (TriageTable.mem_held hheld).1

/-- The outcome of a row changes with the finalization of its holder only. -/
theorem RecordMove.outcome {t : TriageTable} {record : TriageRecord} {work : GmailTriageWork}
    (hI : t.WellFormed) (hmem : record ∈ t.records)
    (h : RecordMove settings t time call record work) :
    work.outcome = record.work.outcome ∨ ∃ claim args now, call = .finalize claim args now ∧
      t.held claim = some record ∧
      work.outcome = (args.state, storedSummary args.summary, some now) := by
  cases h with
  | stays => exact Or.inl rfl
  | reclaimed => exact Or.inl rfl
  | finalized claim args now hcall hid hheld =>
    exact Or.inr ⟨claim, args, now, hcall, held_eq_some hI hmem hid hheld, rfl⟩
  | released => exact Or.inl rfl

end

/-- **A message is triaged to exactly one recorded outcome.** -/
theorem triagedOnce (settings : Settings) : TriagedOnce settings where
  one_row s t tr hinit hrun := ((triageTableInvariant_init hinit).run hrun).table.keys
  exclusive := by
    intro s t u t' u' tr tr' ⟨time, call⟩ ⟨time', call'⟩ claim claim' record record' hinit hrun
      hgrant hrun' hgrant' hrecord hid hrecord' hid' hkey
    have hIt := (triageTableInvariant_init hinit).run hrun
    obtain ⟨hIu, -, heffect⟩ := hIt.step hgrant
    obtain ⟨hdrawn, hnext, row, hrow, hrowId, htoken, expires, hexpires⟩ := heffect.granted
    obtain rfl := hIu.table.eq_of_id hrow hrecord (hrowId.trans hid.symm)
    -- The row of the first claim is still there, and is the one that is granted again.
    obtain ⟨hle, work, hwork, hexcludes⟩ := Excludes.run hrun' hIu hrow hrowId htoken hexpires
    have hIt' := hIu.run hrun'
    obtain ⟨hIu', hclock, heffect'⟩ := hIt'.step hgrant'
    obtain ⟨hdrawn', -, row', hrow', hrowId', htoken', -⟩ := heffect'.granted
    obtain ⟨work', hwork', hmove⟩ := heffect'.move hIt'.table hwork
    have heq : row' = { row with work := work' } := by
      rw [hIu'.table.eq_of_id hrow' hrecord' (hrowId'.trans hid'.symm)]
      exact hIu'.table.eq_of_key hrecord' hwork' hkey.symm
    subst heq
    obtain ⟨-, htime, -, -⟩ := System.step_of_clocked hgrant'
    refine ⟨?_, expires, hexpires, ?_⟩
    · rw [hdrawn, hdrawn']
      exact Nat.ne_of_lt (Nat.lt_of_lt_of_le (hnext ▸ Nat.lt_succ_self _) hle)
    · rw [← htime]
      have hwas : work'.leaseToken = some t'.state.table.nextToken := by
        rw [← hdrawn']
        exact htoken'
      exact hexcludes.regranted hIt'.table hwork hmove hclock hwas
  holder := by
    intro s t tr u time call answer claim hinit hrun hs hcall
    cases hheld : t.state.table.held claim with
    | none => exact Or.inr (table_eq_of_held_eq_none hs hcall hheld)
    | some record => exact Or.inl ⟨record, TriageTable.mem_held hheld⟩
  outcome := by
    intro s t tr u time call answer record record' hinit hrun hs hmem hmem' hid
    have hI := (triageTableInvariant_init hinit).run hrun
    obtain ⟨hIu, -, heffect⟩ := hI.step hs
    obtain ⟨work, hwork, hmove⟩ := heffect.move hI.table hmem
    obtain rfl := hIu.table.eq_of_id hwork hmem' hid
    exact hmove.outcome hI.table hmem
  inserted := by
    intro s t tr u time call answer record' hinit hrun hs hmem hnew
    have hI := (triageTableInvariant_init hinit).run hrun
    exact (hI.step hs).2.2.outcome_of_new hI.table hmem hnew
  final := by
    intro s t t' u tr tr' time claim args now answer record hinit hrun hs hheld hrun'
    have hI := (triageTableInvariant_init hinit).run hrun
    have hIu := (hI.step hs).1
    have hmem := finalized_mem hs hheld
    have hlast := terminal_run hrun' hIu hmem args.terminal
    refine ⟨hlast, fun claim' hclaim ↦ ?_⟩
    refine held_eq_none_of_terminal (hIu.run hrun').table hlast ?_ args.terminal
    exact (TriageTable.mem_held hheld).2.1.trans hclaim.symm

end Onebox.Notifications
