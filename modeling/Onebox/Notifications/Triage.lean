import Onebox.Notifications.Settings
import Onebox.Transition.System

/-!
# Triage of one message

`_triage_message` claims the durable work row of a message, analyses the message, and finalizes or
releases the row; both of the latter are fenced on the lease token of the claim. Any number of
calls run side by side, each one transaction or provider call at a time.

A call's answer is decided by the path it takes, not by what its finalization wrote. So an analysis
that outlasts its lease can answer `True` after another worker has taken the message over: see
`Unsuperseded` for the exact condition. Without retention a row is identified by its message.
-/

namespace Onebox.Notifications

open Python Transition

/-! ## The work row -/

/-- The `state` column of `gmail_triage_work`. -/
inductive TriageState
  | processing
  | succeeded
  | noop
  | deadLetter
  deriving DecidableEq

/-- `state in {"succeeded", "noop", "dead_letter"}`. -/
def TriageState.terminal : TriageState → Bool
  | processing => false
  | succeeded | noop | deadLetter => true

/-- A row of `gmail_triage_work`. -/
structure GmailTriageWork where
  sourceHistoryId : ℕ
  state : TriageState
  attemptCount : ℕ
  leaseToken : Option LeaseToken
  leaseExpiresAt : Option Time
  nextAttemptAt : Option Time
  triageSummary : Option String
  lastErrorCode : Option String
  processedAt : Option Time

/-- The work rows of one mailbox, and the next token to be drawn. -/
structure TriageStore where
  rows : MessageId → Option GmailTriageWork
  nextToken : LeaseToken

/-- `ClaimedTriageWork`. -/
structure ClaimedTriageWork where
  id : MessageId
  leaseToken : LeaseToken
  deriving DecidableEq

/-- What `claim_triage_work` answers. -/
inductive ClaimAnswer
  | claimed (claim : ClaimedTriageWork)
  | refused

namespace TriageStore

def setRow (s : TriageStore) (id : MessageId) (row : GmailTriageWork) : TriageStore :=
  { s with rows := Function.update s.rows id (some row) }

/-- The message's row is in a terminal state. -/
def Terminal (s : TriageStore) (id : MessageId) : Prop :=
  ∃ row, s.rows id = some row ∧ row.state.terminal = true

/-- `triage_work_is_terminal`. -/
def triageWorkIsTerminal (s : TriageStore) (id : MessageId) : Bool :=
  match s.rows id with
  | none => false
  | some row => row.state.terminal

/-- The insertion of a row by `claim_triage_work`. -/
def insertRow (settings : Settings) (s : TriageStore) (id : MessageId) (sourceHistoryId : ℕ)
    (now : Time) : TriageStore × ClaimAnswer :=
  ({ s.setRow id
      { sourceHistoryId := sourceHistoryId
        state := .processing
        attemptCount := 1
        leaseToken := some s.nextToken
        leaseExpiresAt := some (now + settings.leaseDuration)
        nextAttemptAt := none
        triageSummary := none
        lastErrorCode := none
        processedAt := none } with nextToken := s.nextToken + 1 },
    .claimed ⟨id, s.nextToken⟩)

/-- The lease rules of `claim_triage_work` on a locked row. -/
def claimRow (settings : Settings) (s : TriageStore) (id : MessageId) (now : Time)
    (row : GmailTriageWork) : TriageStore × ClaimAnswer :=
  if row.state.terminal then (s, .refused)
  else if row.leaseExpiresAt.any (now < ·) then (s, .refused)
  else if row.nextAttemptAt.any (now < ·) then (s, .refused)
  else
    ({ s.setRow id
        { row with
          attemptCount := row.attemptCount + 1
          leaseToken := some s.nextToken
          leaseExpiresAt := some (now + settings.leaseDuration)
          nextAttemptAt := none } with nextToken := s.nextToken + 1 },
      .claimed ⟨id, s.nextToken⟩)

/-- The locked row of a claim that still holds it. -/
def held (s : TriageStore) (claim : ClaimedTriageWork) : Option GmailTriageWork :=
  match s.rows claim.id with
  | none => none
  | some row =>
    if row.state = .processing ∧ row.leaseToken = some claim.leaseToken then some row else none

end TriageStore

/-- The keyword arguments of `finalize_triage_work`. -/
structure FinalizeTriage where
  state : TriageState
  terminal : state.terminal = true
  summary : Option String
  errorCode : Option String

/-- `summary[:4_000] if summary else None`. -/
def storedSummary (summary : Option String) : Option String :=
  match summary with
  | none => none
  | some text => if text = "" then none else some (String.ofList (text.toList.take 4000))

/-- `finalize_triage_work`. -/
def finalizeTriageWork (s : TriageStore) (now : Time) (claim : ClaimedTriageWork)
    (args : FinalizeTriage) : TriageStore :=
  match s.held claim with
  | none => s
  | some row =>
    s.setRow claim.id
      { row with
        state := args.state
        triageSummary := storedSummary args.summary
        lastErrorCode := args.errorCode
        nextAttemptAt := none
        processedAt := some now }

/-- `release_triage_work`. -/
def releaseTriageWork (settings : Settings) (s : TriageStore) (now : Time)
    (claim : ClaimedTriageWork) (errorCode : String) : TriageStore :=
  match s.held claim with
  | none => s
  | some row =>
    s.setRow claim.id
      { row with
        leaseToken := none
        leaseExpiresAt := none
        nextAttemptAt := some (retryAt settings now (max 1 row.attemptCount))
        lastErrorCode := some errorCode }

/-! ## One call -/

/-- How the provider call, the parsing and the analysis between a claim and its end turn out. -/
inductive AnalysisResult
  /-- `"error" in content`. -/
  | invalidContent
  /-- `not should_process_email(content)`. -/
  | filtered
  | summarized (response : String)
  | rejected (statusCode : Option ℕ)
  | providerError
  | llmError
  /-- Any other exception. -/
  | internalError

/-- Where a call is. -/
inductive TriageCall
  | claiming
  /-- The select found no row at `now`; the insertion is next. -/
  | inserting (now : Time)
  /-- The insertion hit the unique constraint. -/
  | conflicted (now : Time)
  /-- No claim was granted; `triage_work_is_terminal` is next. -/
  | refused
  | analysing (claim : ClaimedTriageWork)
  /-- `guarded` inside the `try`, where a database error leads to another finalization. -/
  | finalizing (claim : ClaimedTriageWork) (args : FinalizeTriage) (guarded : Bool)
  | releasing (claim : ClaimedTriageWork) (errorCode : String)
  | returned (result : Bool)
  | raised

/-- The arguments of the last resort. -/
def triageFailed : FinalizeTriage := ⟨.deadLetter, rfl, none, some "triage_failed"⟩

/-- `_triage_message` from the end of the analysis on. -/
def afterAnalysis (claim : ClaimedTriageWork) : AnalysisResult → TriageCall
  | .invalidContent =>
    .finalizing claim ⟨.deadLetter, rfl, none, some "message_payload_invalid"⟩ true
  | .filtered => .finalizing claim ⟨.noop, rfl, none, none⟩ true
  | .summarized response => .finalizing claim ⟨.succeeded, rfl, some response, none⟩ true
  | .rejected statusCode =>
    -- A history entry can outlive a deleted message.
    if statusCode = some 404 then
      .finalizing claim ⟨.noop, rfl, none, some "message_not_found"⟩ false
    else .releasing claim "triage_provider_rejected"
  | .providerError => .releasing claim "triage_provider_unavailable"
  | .llmError => .releasing claim "triage_llm_unavailable"
  | .internalError => .finalizing claim triageFailed false

/-- The steps of a call. -/
inductive TriageEvent
  /-- The next database transaction, at the given time. -/
  | transact (now : Time)
  /-- The next transaction is reported as failed, whether or not it was committed. -/
  | databaseFails (committed : Bool) (now : Time)
  | analysed (result : AnalysisResult)
  /-- The call is cancelled, or its process dies. -/
  | abandon

/-- The call after a claim. -/
def afterClaim : ClaimAnswer → TriageCall
  | .claimed claim => .analysing claim
  | .refused => .refused

/-- The next database transaction of a call: what it commits, and where the call goes on. -/
def TriageCall.transaction (settings : Settings) (s : TriageStore) (id : MessageId)
    (sourceHistoryId : ℕ) (now : Time) : TriageCall → Option (TriageStore × TriageCall)
  | .claiming =>
    match s.rows id with
    | none => some (s, .inserting now)
    | some row =>
      let result := s.claimRow settings id now row
      some (result.1, afterClaim result.2)
  | .inserting started =>
    match s.rows id with
    | none =>
      let result := s.insertRow settings id sourceHistoryId started
      some (result.1, afterClaim result.2)
    | some _ => some (s, .conflicted started)
  | .conflicted started =>
    match s.rows id with
    | none => some (s, .raised)
    | some row =>
      let result := s.claimRow settings id started row
      some (result.1, afterClaim result.2)
  | .refused => some (s, .returned (s.triageWorkIsTerminal id))
  | .finalizing claim args _ => some (finalizeTriageWork s now claim args, .returned true)
  | .releasing claim errorCode =>
    some (releaseTriageWork settings s now claim errorCode, .returned false)
  | .analysing _ | .returned _ | .raised => none

/-- Where a call goes on when its transaction is reported as failed. -/
def TriageCall.afterDatabaseError : TriageCall → TriageCall
  | .finalizing claim _ true => .finalizing claim triageFailed false
  | _ => .raised

/-- One step of a call. -/
def TriageCall.step (settings : Settings) (s : TriageStore) (id : MessageId)
    (sourceHistoryId : ℕ) (call : TriageCall) : TriageEvent → Option (TriageStore × TriageCall)
  | .transact now => call.transaction settings s id sourceHistoryId now
  | .databaseFails committed now =>
    match call.transaction settings s id sourceHistoryId now with
    | none => none
    | some (s', _) => some (if committed then s' else s, call.afterDatabaseError)
  | .analysed result =>
    match call with
    | .analysing claim => some (s, afterAnalysis claim result)
    | _ => none
  | .abandon =>
    match call with
    | .returned _ | .raised => none
    | _ => some (s, .raised)

/-! ## What a step keeps -/

/-- Terminal rows are left as they are. -/
def TriageStore.Keeps (s s' : TriageStore) : Prop :=
  ∀ id row, s.rows id = some row → row.state.terminal = true → s'.rows id = some row

namespace TriageStore

variable {s s' s'' : TriageStore} {id : MessageId}

theorem Keeps.refl (s : TriageStore) : s.Keeps s := fun _ _ hrow _ ↦ hrow

theorem Keeps.trans (h : s.Keeps s') (h' : s'.Keeps s'') : s.Keeps s'' :=
  fun id row hrow hterminal ↦ h' id row (h id row hrow hterminal) hterminal

theorem Keeps.terminal (h : s.Keeps s') (hterminal : s.Terminal id) : s'.Terminal id := by
  obtain ⟨row, hrow, hstate⟩ := hterminal
  exact ⟨row, h id row hrow hstate, hstate⟩

theorem setRow_self (s : TriageStore) (id : MessageId) (row : GmailTriageWork) :
    (s.setRow id row).rows id = some row := Function.update_self _ _ _

/-- Writing a row that is not terminal keeps the terminal ones. -/
theorem keeps_setRow {row' : GmailTriageWork}
    (h : ∀ row, s.rows id = some row → row.state.terminal = false) :
    s.Keeps (s.setRow id row') := by
  intro id' row hrow hterminal
  by_cases hid : id' = id
  · subst hid
    rw [h row hrow] at hterminal
    cases hterminal
  · rw [setRow]
    exact (Function.update_of_ne hid _ _).trans hrow

theorem triageWorkIsTerminal_iff : s.triageWorkIsTerminal id = true ↔ s.Terminal id := by
  rw [triageWorkIsTerminal, Terminal]
  cases hrow : s.rows id with
  | none => simp
  | some row => simp

theorem held_eq_some {claim : ClaimedTriageWork} {row : GmailTriageWork}
    (h : s.held claim = some row) : s.rows claim.id = some row ∧ row.state = .processing := by
  rw [held] at h
  split at h
  · cases h
  · rename_i current hrow
    split at h
    · rename_i hheld
      obtain rfl := Option.some.inj h
      exact ⟨hrow, hheld.1⟩
    · cases h

theorem held_not_terminal {claim : ClaimedTriageWork} {row : GmailTriageWork}
    (h : s.held claim = some row) :
    ∀ row', s.rows claim.id = some row' → row'.state.terminal = false := by
  intro row' hrow'
  obtain ⟨hrow, hstate⟩ := held_eq_some h
  rw [hrow] at hrow'
  obtain rfl := Option.some.inj hrow'
  rw [hstate]
  rfl

theorem keeps_claimRow (settings : Settings) (now : Time) {row : GmailTriageWork}
    (hrow : s.rows id = some row) : s.Keeps (s.claimRow settings id now row).1 := by
  rw [claimRow]
  split
  · exact .refl s
  · rename_i hstate
    split
    · exact .refl s
    · split
      · exact .refl s
      · refine keeps_setRow fun row' hrow' ↦ ?_
        rw [hrow] at hrow'
        obtain rfl := Option.some.inj hrow'
        exact Bool.not_eq_true _ ▸ hstate

theorem keeps_insertRow (settings : Settings) (sourceHistoryId : ℕ) (now : Time)
    (hnone : s.rows id = none) : s.Keeps (s.insertRow settings id sourceHistoryId now).1 := by
  refine keeps_setRow fun row hrow ↦ ?_
  rw [hnone] at hrow
  cases hrow

theorem keeps_finalizeTriageWork (now : Time) (claim : ClaimedTriageWork)
    (args : FinalizeTriage) : s.Keeps (finalizeTriageWork s now claim args) := by
  rw [finalizeTriageWork]
  split
  · exact .refl s
  · rename_i row hheld
    exact keeps_setRow (held_not_terminal hheld)

theorem keeps_releaseTriageWork (settings : Settings) (now : Time) (claim : ClaimedTriageWork)
    (errorCode : String) : s.Keeps (releaseTriageWork settings s now claim errorCode) := by
  rw [releaseTriageWork]
  split
  · exact .refl s
  · rename_i row hheld
    exact keeps_setRow (held_not_terminal hheld)

/-- A finalization by the holder of the row, or of a row that is terminal, leaves it terminal. -/
theorem terminal_finalizeTriageWork (now : Time) {claim : ClaimedTriageWork}
    (args : FinalizeTriage) (h : s.Terminal claim.id ∨ (s.held claim).isSome = true) :
    (finalizeTriageWork s now claim args).Terminal claim.id := by
  rcases h with hterminal | hheld
  · exact (keeps_finalizeTriageWork now claim args).terminal hterminal
  · obtain ⟨row, hrow⟩ := Option.isSome_iff_exists.mp hheld
    rw [finalizeTriageWork, hrow]
    exact ⟨_, setRow_self _ _ _, args.terminal⟩

end TriageStore

section

variable {settings : Settings} {s s' : TriageStore} {id : MessageId} {sourceHistoryId : ℕ}
  {call call' : TriageCall} {event : TriageEvent}

theorem TriageCall.transaction_keeps {now : Time}
    (h : call.transaction settings s id sourceHistoryId now = some (s', call')) : s.Keeps s' := by
  cases call with
  | claiming =>
    simp only [transaction] at h
    split at h
    · obtain ⟨rfl, -⟩ := by simpa using h
      exact .refl s
    · rename_i row hrow
      obtain ⟨rfl, -⟩ := by simpa using h
      exact TriageStore.keeps_claimRow settings now hrow
  | inserting started =>
    simp only [transaction] at h
    split at h
    · rename_i hnone
      obtain ⟨rfl, -⟩ := by simpa using h
      exact TriageStore.keeps_insertRow settings sourceHistoryId started hnone
    · obtain ⟨rfl, -⟩ := by simpa using h
      exact .refl s
  | conflicted started =>
    simp only [transaction] at h
    split at h
    · obtain ⟨rfl, -⟩ := by simpa using h
      exact .refl s
    · rename_i row hrow
      obtain ⟨rfl, -⟩ := by simpa using h
      exact TriageStore.keeps_claimRow settings started hrow
  | refused =>
    obtain ⟨rfl, -⟩ := by simpa [transaction] using h
    exact .refl s
  | finalizing claim args guarded =>
    obtain ⟨rfl, -⟩ := by simpa [transaction] using h
    exact TriageStore.keeps_finalizeTriageWork now claim args
  | releasing claim errorCode =>
    obtain ⟨rfl, -⟩ := by simpa [transaction] using h
    exact TriageStore.keeps_releaseTriageWork settings now claim errorCode
  | _ => cases h

theorem TriageCall.step_keeps
    (h : call.step settings s id sourceHistoryId event = some (s', call')) : s.Keeps s' := by
  cases event with
  | transact now => exact transaction_keeps h
  | databaseFails committed now =>
    simp only [step] at h
    split at h
    · cases h
    · rename_i s'' call'' htransaction
      cases committed with
      | true =>
        obtain ⟨rfl, -⟩ := by simpa using h
        exact transaction_keeps htransaction
      | false =>
        obtain ⟨rfl, -⟩ := by simpa using h
        exact .refl s
  | analysed result =>
    simp only [step] at h
    split at h
    · obtain ⟨rfl, -⟩ := by simpa using h
      exact .refl s
    · cases h
  | abandon =>
    simp only [step] at h
    split at h
    · cases h
    · cases h
    · obtain ⟨rfl, -⟩ := by simpa using h
      exact .refl s

/-- The claim of a call is for its message, and a call that has answered `True` is done. -/
def CallInvariant (s : TriageStore) (id : MessageId) : TriageCall → Prop
  | .analysing claim | .finalizing claim _ _ | .releasing claim _ => claim.id = id
  | .returned result => result = true → s.Terminal id
  | .claiming | .inserting _ | .conflicted _ | .refused | .raised => True

theorem CallInvariant.mono (hI : CallInvariant s id call) (hkeeps : s.Keeps s') :
    CallInvariant s' id call := by
  cases call with
  | returned result => exact fun hresult ↦ hkeeps.terminal (hI hresult)
  | _ => exact hI

/-- When a call finalizes its row, it still holds it, or the row is terminal already: no other
worker has taken the message over and left it unfinished. -/
def TriageCall.Unsuperseded (s : TriageStore) : TriageCall → Prop
  | .finalizing claim _ _ => s.Terminal claim.id ∨ (s.held claim).isSome = true
  | _ => True

theorem callInvariant_afterClaim {answer : ClaimAnswer}
    (h : ∀ claim, answer = .claimed claim → claim.id = id) :
    CallInvariant s id (afterClaim answer) := by
  cases answer with
  | claimed claim => exact h claim rfl
  | refused => trivial

theorem claimRow_claimed {row : GmailTriageWork} {now : Time} {claim : ClaimedTriageWork}
    (h : (s.claimRow settings id now row).2 = .claimed claim) : claim.id = id := by
  rw [TriageStore.claimRow] at h
  split at h
  · cases h
  · split at h
    · cases h
    · split at h
      · cases h
      · cases h
        rfl

theorem callInvariant_afterAnalysis {claim : ClaimedTriageWork} (hid : claim.id = id)
    (result : AnalysisResult) : CallInvariant s id (afterAnalysis claim result) := by
  cases result with
  | rejected statusCode =>
    rw [afterAnalysis]
    split
    · exact hid
    · exact hid
  | _ => exact hid

theorem CallInvariant.transaction {now : Time} (hI : CallInvariant s id call)
    (hC : call.Unsuperseded s)
    (h : call.transaction settings s id sourceHistoryId now = some (s', call')) :
    CallInvariant s' id call' := by
  cases call with
  | claiming =>
    simp only [TriageCall.transaction] at h
    split at h
    · obtain ⟨-, rfl⟩ := by simpa using h
      trivial
    · obtain ⟨-, rfl⟩ := by simpa using h
      exact callInvariant_afterClaim fun claim ↦ claimRow_claimed
  | inserting started =>
    simp only [TriageCall.transaction] at h
    split at h
    · obtain ⟨-, rfl⟩ := by simpa using h
      exact callInvariant_afterClaim fun claim hclaim ↦ by cases hclaim; rfl
    · obtain ⟨-, rfl⟩ := by simpa using h
      trivial
  | conflicted started =>
    simp only [TriageCall.transaction] at h
    split at h
    · obtain ⟨-, rfl⟩ := by simpa using h
      trivial
    · obtain ⟨-, rfl⟩ := by simpa using h
      exact callInvariant_afterClaim fun claim ↦ claimRow_claimed
  | refused =>
    obtain ⟨rfl, rfl⟩ := by simpa [TriageCall.transaction] using h
    exact TriageStore.triageWorkIsTerminal_iff.mp
  -- The one place where the call must not be superseded.
  | finalizing claim args guarded =>
    obtain ⟨rfl, rfl⟩ := by simpa [TriageCall.transaction] using h
    intro _
    have hid : claim.id = id := hI
    rw [← hid]
    exact TriageStore.terminal_finalizeTriageWork now args hC
  | releasing claim errorCode =>
    obtain ⟨rfl, rfl⟩ := by simpa [TriageCall.transaction] using h
    exact nofun
  | _ => cases h

/-- **The step lemma of a call.** -/
theorem CallInvariant.step (hI : CallInvariant s id call)
    (hC : ∀ now, event = .transact now → call.Unsuperseded s)
    (h : call.step settings s id sourceHistoryId event = some (s', call')) :
    CallInvariant s' id call' := by
  cases event with
  | transact now => exact hI.transaction (hC now rfl) h
  | databaseFails committed now =>
    simp only [TriageCall.step] at h
    split at h
    · cases h
    · obtain ⟨-, rfl⟩ := by simpa using h
      cases call with
      | finalizing claim args guarded =>
        cases guarded with
        | true => exact hI
        | false => trivial
      | _ => trivial
  | analysed result =>
    simp only [TriageCall.step] at h
    split at h
    · obtain ⟨rfl, rfl⟩ := by simpa using h
      exact callInvariant_afterAnalysis hI result
    · cases h
  | abandon =>
    simp only [TriageCall.step] at h
    split at h
    · cases h
    · cases h
    · obtain ⟨-, rfl⟩ := by simpa using h
      trivial

end

/-! ## Any number of workers -/

/-- One run of `_triage_message`. -/
structure TriageWorker where
  messageId : MessageId
  sourceHistoryId : ℕ
  call : TriageCall

/-- The work rows of a mailbox and the calls in progress. -/
structure TriageWorld where
  store : TriageStore
  workers : ℕ → Option TriageWorker

/-- The steps of the workers. -/
inductive TriageLabel
  | call (n : ℕ) (messageId : MessageId) (sourceHistoryId : ℕ)
  | work (n : ℕ) (event : TriageEvent)
  /-- The call is over; its worker takes the answer, if there is one. -/
  | collect (n : ℕ)

namespace TriageWorld

def setWorker (w : TriageWorld) (n : ℕ) (worker : Option TriageWorker) : TriageWorld :=
  { w with workers := Function.update w.workers n worker }

/-- One step; collecting an answer returns it. -/
def step (settings : Settings) (w : TriageWorld) : TriageLabel → Option (TriageWorld × Option Bool)
  | .call n messageId sourceHistoryId =>
    match w.workers n with
    | some _ => none
    | none => some (w.setWorker n (some ⟨messageId, sourceHistoryId, .claiming⟩), none)
  | .work n event =>
    match w.workers n with
    | none => none
    | some worker =>
      match worker.call.step settings w.store worker.messageId worker.sourceHistoryId event with
      | none => none
      | some (store, call) =>
        some ({ w with store := store }.setWorker n (some { worker with call := call }), none)
  | .collect n =>
    match w.workers n with
    | some ⟨_, _, .returned result⟩ => some (w.setWorker n none, some result)
    | some ⟨_, _, .raised⟩ => some (w.setWorker n none, none)
    | _ => none

end TriageWorld

/-- The calls of `_triage_message` on one mailbox. -/
def triageWorkers (settings : Settings) : System TriageWorld TriageLabel (Option Bool) where
  init w := (∀ n, w.workers n = none) ∧
    ∀ id row token, w.store.rows id = some row → row.leaseToken = some token →
      token < w.store.nextToken
  step := TriageWorld.step settings

/-- No finalization of the step finds its message taken over and unfinished. -/
def Unsuperseded (w : TriageWorld) (e : TriageLabel) : Prop :=
  ∀ n now worker, e = .work n (.transact now) → w.workers n = some worker →
    worker.call.Unsuperseded w.store

/-- The invariant of the calls. -/
def CallsInvariant (w : TriageWorld) : Prop :=
  ∀ n worker, w.workers n = some worker → CallInvariant w.store worker.messageId worker.call

section

variable {settings : Settings} {w w' : TriageWorld} {e : TriageLabel} {o : Option Bool}

theorem TriageWorld.setWorker_self (w : TriageWorld) (n : ℕ) (worker : Option TriageWorker) :
    (w.setWorker n worker).workers n = worker := Function.update_self _ _ _

theorem TriageWorld.setWorker_of_ne (w : TriageWorld) {n m : ℕ} (h : m ≠ n)
    (worker : Option TriageWorker) : (w.setWorker n worker).workers m = w.workers m :=
  Function.update_of_ne h _ _

theorem TriageWorld.setWorker_cases {n m : ℕ} {worker : Option TriageWorker}
    {other : TriageWorker} (h : (w.setWorker n worker).workers m = some other) :
    m = n ∧ worker = some other ∨ m ≠ n ∧ w.workers m = some other := by
  by_cases hmn : m = n
  · subst hmn
    rw [setWorker_self] at h
    exact Or.inl ⟨rfl, h⟩
  · rw [setWorker_of_ne w hmn] at h
    exact Or.inr ⟨hmn, h⟩

/-- The step lemma. -/
theorem CallsInvariant.step (hI : CallsInvariant w) (hC : Unsuperseded w e)
    (hs : w.step settings e = some (w', o)) : CallsInvariant w' := by
  intro m other hm
  cases e with
  | call n messageId sourceHistoryId =>
    simp only [TriageWorld.step] at hs
    split at hs
    · cases hs
    · obtain ⟨rfl, -⟩ := by simpa using hs
      rcases TriageWorld.setWorker_cases hm with ⟨-, hnew⟩ | ⟨-, hold⟩
      · obtain rfl := Option.some.inj hnew
        trivial
      · exact hI m other hold
  | work n event =>
    simp only [TriageWorld.step] at hs
    split at hs
    · cases hs
    · rename_i worker hworker
      split at hs
      · cases hs
      · rename_i store call hstep
        obtain ⟨rfl, -⟩ := by simpa using hs
        rcases TriageWorld.setWorker_cases hm with ⟨-, hnew⟩ | ⟨-, hold⟩
        · obtain rfl := Option.some.inj hnew
          refine (hI n worker hworker).step (fun now hnow ↦ ?_) hstep
          exact hC n now worker (by rw [hnow]) hworker
        · exact (hI m other hold).mono (TriageCall.step_keeps hstep)
  | collect n =>
    simp only [TriageWorld.step] at hs
    split at hs
    · obtain ⟨rfl, -⟩ := by simpa using hs
      rcases TriageWorld.setWorker_cases hm with ⟨-, hnew⟩ | ⟨-, hold⟩
      · cases hnew
      · exact hI m other hold
    · obtain ⟨rfl, -⟩ := by simpa using hs
      rcases TriageWorld.setWorker_cases hm with ⟨-, hnew⟩ | ⟨-, hold⟩
      · cases hnew
      · exact hI m other hold
    · cases hs

end

/-! ## A message reported done is done -/

/-- In every run whose steps meet `C`, a call that returns `True` has its message in a terminal
state. -/
def ReportedDoneIsDone (settings : Settings) (C : TriageWorld → TriageLabel → Prop) : Prop :=
  ∀ s t tr n worker, (triageWorkers settings).init s →
    System.Run (triageWorkers settings) C s tr t → t.workers n = some worker →
    worker.call = .returned true → t.store.Terminal worker.messageId

/-- **A call that is not superseded reports the truth.** -/
theorem reportedDoneIsDone_of_unsuperseded (settings : Settings) :
    ReportedDoneIsDone settings Unsuperseded := by
  intro s t tr n worker hinit hrun hworker hcall
  have hI : CallsInvariant t := by
    refine hrun.invariant (I := CallsInvariant) (fun m other hm ↦ ?_) fun w e w' o hI hC hs ↦
      hI.step hC hs
    rw [hinit.1 m] at hm
    cases hm
  have hcallInvariant := hI n worker hworker
  rw [hcall] at hcallInvariant
  exact hcallInvariant rfl

/-! ### A message that was taken over -/

def emptyTriage : TriageWorld := ⟨⟨fun _ ↦ none, 0⟩, fun _ ↦ none⟩

/-- The first analysis outlasts its lease; a second worker claims the message and is still at it
when the first one finalizes. -/
def takenOverSchedule : List TriageLabel :=
  [.call 0 "m" 1, .work 0 (.transact 0), .work 0 (.transact 0),
    .call 1 "m" 1, .work 1 (.transact (seconds 120)),
    .work 0 (.analysed .filtered), .work 0 (.transact (seconds 121))]

/-- **The answer of a superseded call**: it returns `True` for a message that is still being
processed. -/
theorem not_reportedDoneIsDone : ¬ReportedDoneIsDone .default System.anyStep := by
  intro h
  have hreplay : (triageWorkers .default).replay emptyTriage takenOverSchedule = some (_, _) := rfl
  have hinit : (triageWorkers .default).init emptyTriage := ⟨fun _ ↦ rfl, nofun⟩
  obtain ⟨row, hrow, hstate⟩ := h _ _ _ 0 _ hinit (System.run_of_replay hreplay) rfl rfl
  obtain rfl := Option.some.inj hrow
  exact absurd hstate (by decide)

end Onebox.Notifications
