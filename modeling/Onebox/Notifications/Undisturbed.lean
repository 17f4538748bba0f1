import Onebox.Notifications.CoveredWork
import Onebox.Notifications.Progress

/-!
# Work that is not disturbed

A job is claimed on a mailbox that is up and running, and its worker is alone: mail may arrive and
leave, notifications be posted and watches be renewed, but no other worker moves, and neither the
database nor the provider nor the model fails. Then the job is completed within the bound on the
steps of a claim; the cursor has reached it, and every message that its listing returned has an
outcome. This is what a deployment with one worker does after a restart, once the leases of the
worker before it have run out.
-/

namespace Onebox.Notifications

open Python Transition

/-! ## No disturbance -/

/-- The end of an analysis is written to the row at once. -/
def AnalysisResult.settles : AnalysisResult → Bool
  | .invalidContent | .filtered | .summarized _ | .internalError => true
  | .rejected statusCode => statusCode = some 404
  | .providerError | .llmError => false

/-- Nothing fails: from `T` on, the worker takes its messages, and a listing returns what there is
within its limits. -/
def WorkerEvent.Smooth (env : MailEnv) (T : Time) : WorkerEvent → Prop
  | .readMailbox | .transact _ | .takeMessage | .triaged => True
  | .triage (.transact now) => T ≤ now
  | .triage (.analysed result) => result.settles = true
  | .listHistory responses => ∀ start failure,
    historyMessageIds env.unicode env.settings responses start ≠ some (.error failure)
  | .triage (.databaseFails _ _) | .triage .abandon | .databaseFails _ _ | .listInbox _
  | .resyncFails _ | .readProfile | .profileInvalid | .abandon => False

/-- The `n`-th worker is alone, and nothing fails. -/
def Undisturbed (env : MailEnv) (n : ℕ) (T : Time) (_ : MailWorld) : MailLabel → Prop
  | .claimJob _ _ _ => False
  | .work m event => m = n ∧ event.Smooth env T
  | .arrive _ _ | .touch _ | .remove _ | .claimWatch _ | .completeWatch _ _ _ | .failWatch _ _ _
  | .heartbeat _ | .enqueue _ _ _ _ => True

/-! ## The triage of a message -/

/-- The row is finished, or a claim from `T` on is granted. -/
def GmailTriageWork.Free (T : Time) (row : GmailTriageWork) : Prop :=
  row.state.terminal = true ∨
    (∀ expires, row.leaseExpiresAt = some expires → expires ≤ T) ∧
      ∀ next, row.nextAttemptAt = some next → next ≤ T

/-- All rows are free but that of one message, if any. -/
def TriageStore.FreeBut (s : TriageStore) (T : Time) (current : Option MessageId) : Prop :=
  ∀ id row, s.rows id = some row → current ≠ some id → row.Free T

/-- A call on its way: it has the row, or the row is there to be had, or is finished. -/
def CallOnItsWay (s : TriageStore) (T : Time) (id : MessageId) : TriageCall → Prop
  | .claiming => ∀ row, s.rows id = some row → row.Free T
  | .inserting _ => s.rows id = none
  | .refused | .returned true => s.Terminal id
  | .analysing claim | .finalizing claim _ _ => claim.id = id ∧ (s.held claim).isSome = true
  | .conflicted _ | .releasing _ _ | .returned false | .raised => False

section

variable {settings : Settings} {s s' : TriageStore} {id : MessageId} {sourceHistoryId : ℕ}
  {call call' : TriageCall} {event : TriageEvent} {T now : Time} {row : GmailTriageWork}

theorem held_setRow {claim : ClaimedTriageWork} (hid : claim.id = id)
    (hstate : row.state = .processing) (htoken : row.leaseToken = some claim.leaseToken) :
    (s.setRow id row).held claim = some row := by
  subst hid
  rw [TriageStore.held, TriageStore.setRow_self]
  exact if_pos ⟨hstate, htoken⟩

theorem rows_setRow_of_ne {id' : MessageId} (hne : id' ≠ id) :
    (s.setRow id row).rows id' = s.rows id' := Function.update_of_ne hne _ _

theorem any_lt_eq_false {time : Option Time} (h : ∀ x, time = some x → x ≤ T) (hnow : T ≤ now) :
    time.any (now < ·) = false := by
  rcases time with _ | x
  · rfl
  · exact decide_eq_false (not_lt.mpr ((h x rfl).trans hnow))

theorem TriageState.eq_processing {state : TriageState} (h : state.terminal = false) :
    state = .processing := by
  rcases state with _ | _ | _ | _
  · rfl
  all_goals cases h

/-- A claim of a free row is granted, unless the row is finished. -/
theorem onItsWay_claimRow (hrow : s.rows id = some row) (hfree : row.Free T) (hnow : T ≤ now) :
    CallOnItsWay (s.claimRow settings id now row).1 T id
        (afterClaim (s.claimRow settings id now row).2) ∧
      ∀ id' ≠ id, (s.claimRow settings id now row).1.rows id' = s.rows id' := by
  rw [TriageStore.claimRow]
  rcases hterminal : row.state.terminal with _ | _
  · rcases hfree with hdone | ⟨hlease, hnext⟩
    · rw [hterminal] at hdone
      cases hdone
    rw [if_neg Bool.false_ne_true, any_lt_eq_false hlease hnow, if_neg Bool.false_ne_true,
      any_lt_eq_false hnext hnow, if_neg Bool.false_ne_true]
    refine ⟨⟨rfl, ?_⟩, fun id' hne ↦ rows_setRow_of_ne hne⟩
    exact Option.isSome_iff_exists.mpr
      ⟨_, held_setRow rfl (TriageState.eq_processing hterminal) rfl⟩
  · rw [if_pos rfl]
    exact ⟨⟨row, hrow, hterminal⟩, fun _ _ ↦ rfl⟩

theorem onItsWay_finalize {claim : ClaimedTriageWork} {args : FinalizeTriage}
    (hid : claim.id = id) (hheld : (s.held claim).isSome = true) :
    (finalizeTriageWork s now claim args).Terminal id ∧
      ∀ id' ≠ id, (finalizeTriageWork s now claim args).rows id' = s.rows id' := by
  subst hid
  refine ⟨TriageStore.terminal_finalizeTriageWork now args (Or.inr hheld), fun id' hne ↦ ?_⟩
  obtain ⟨row, hrow⟩ := Option.isSome_iff_exists.mp hheld
  rw [finalizeTriageWork, hrow]
  exact rows_setRow_of_ne hne

theorem onItsWay_afterAnalysis {claim : ClaimedTriageWork} {result : AnalysisResult}
    (hsettles : result.settles = true) (hid : claim.id = id)
    (hheld : (s.held claim).isSome = true) :
    CallOnItsWay s T id (afterAnalysis claim result) := by
  rcases result with _ | _ | response | statusCode | _ | _ | _
  case rejected =>
    rw [afterAnalysis, if_pos (of_decide_eq_true hsettles)]
    exact ⟨hid, hheld⟩
  case providerError | llmError => cases hsettles
  all_goals exact ⟨hid, hheld⟩

theorem CallOnItsWay.transaction (hI : CallOnItsWay s T id call) (hnow : T ≤ now)
    (h : call.transaction settings s id sourceHistoryId now = some (s', call')) :
    CallOnItsWay s' T id call' ∧ ∀ id' ≠ id, s'.rows id' = s.rows id' := by
  rcases call with _ | started | started | _ | claim | ⟨claim, args, guarded⟩ |
    ⟨claim, errorCode⟩ | ⟨_ | _⟩ | _
  case claiming =>
    rw [TriageCall.transaction] at h
    split at h
    · rename_i hnone
      obtain ⟨rfl, rfl⟩ := Prod.mk.inj (Option.some.inj h)
      exact ⟨hnone, fun _ _ ↦ rfl⟩
    · rename_i row hrow
      obtain ⟨rfl, rfl⟩ := Prod.mk.inj (Option.some.inj h)
      exact onItsWay_claimRow hrow (hI row hrow) hnow
  case inserting =>
    have hnone : s.rows id = none := hI
    rw [TriageCall.transaction, hnone] at h
    obtain ⟨rfl, rfl⟩ := Prod.mk.inj (Option.some.inj h)
    refine ⟨⟨rfl, ?_⟩, fun id' hne ↦ rows_setRow_of_ne hne⟩
    exact Option.isSome_iff_exists.mpr ⟨_, held_setRow rfl rfl rfl⟩
  case refused =>
    obtain ⟨rfl, rfl⟩ := Prod.mk.inj (Option.some.inj h)
    rw [TriageStore.triageWorkIsTerminal_iff.mpr hI]
    exact ⟨hI, fun _ _ ↦ rfl⟩
  case finalizing =>
    obtain ⟨rfl, rfl⟩ := Prod.mk.inj (Option.some.inj h)
    exact onItsWay_finalize hI.1 hI.2
  case conflicted | releasing | returned.false | raised => exact hI.elim
  case analysing | returned.true => cases h

/-- **The step lemma of a call**: it stays on its way, and leaves the other rows alone. -/
theorem CallOnItsWay.step {env : MailEnv} (hI : CallOnItsWay s T id call)
    (hsmooth : (WorkerEvent.triage event).Smooth env T)
    (h : call.step settings s id sourceHistoryId event = some (s', call')) :
    CallOnItsWay s' T id call' ∧ ∀ id' ≠ id, s'.rows id' = s.rows id' := by
  rcases event with now | ⟨committed, now⟩ | result | _
  · exact hI.transaction hsmooth h
  · exact hsmooth.elim
  · simp only [TriageCall.step] at h
    split at h
    · obtain ⟨rfl, rfl⟩ := Prod.mk.inj (Option.some.inj h)
      exact ⟨onItsWay_afterAnalysis hsmooth hI.1 hI.2, fun _ _ ↦ rfl⟩
    · cases h
  · exact hsmooth.elim

end

/-! ## The tables -/

/-- What the worker needs of the tables: it holds its job, and the mailbox is as it was at its
claim, with a cursor. -/
structure JobInHand (s : JobStore) (claim : ClaimedNotificationJob) : Prop where
  held : ∃ job, s.heldJob claim = some job
  mailbox : ∃ state cursor, s.mailbox = some state ∧ state.resyncState = .idle ∧
    state.resyncRequired = false ∧ state.resyncGeneration = claim.resyncGeneration ∧
    state.historyCursor = some cursor

/-- The jobs are left as they are, and so is the recovery; the cursor does not fall. -/
structure JobStore.Leaves (s s' : JobStore) : Prop where
  jobs (id : JobId) (job : GmailNotificationJob) : s.jobs id = some job → s'.jobs id = some job
  mailbox (state : GmailMailboxState) : s.mailbox = some state →
    ∃ state', s'.mailbox = some state' ∧ state'.recovery = state.recovery ∧
      ∀ cursor, state.historyCursor = some cursor →
        ∃ cursor', state'.historyCursor = some cursor' ∧ cursor ≤ cursor'

section

variable {s s' : JobStore} {claim : ClaimedNotificationJob} {job : GmailNotificationJob}
  {state state' : GmailMailboxState}

theorem JobStore.Leaves.refl (s : JobStore) : s.Leaves s :=
  ⟨fun _ _ h ↦ h, fun state h ↦ ⟨state, h, rfl, fun cursor hcursor ↦ ⟨cursor, hcursor, le_rfl⟩⟩⟩

theorem leaves_setMailbox (hrecovery : ∀ state, s.mailbox = some state →
      state'.recovery = state.recovery)
    (hcursor : ∀ state cursor, s.mailbox = some state → state.historyCursor = some cursor →
      ∃ cursor', state'.historyCursor = some cursor' ∧ cursor ≤ cursor') :
    s.Leaves (s.setMailbox state') :=
  ⟨fun _ _ h ↦ h, fun state h ↦
    ⟨state', rfl, hrecovery state h, fun cursor ↦ hcursor state cursor h⟩⟩

theorem leaves_enqueueNotification {id : JobId} (pubsubMessageId : String) (historyId : ℕ)
    (receivedAt : Time) (hfresh : s.jobs id = none) :
    s.Leaves (enqueueNotification s id pubsubMessageId historyId receivedAt).1 := by
  rw [enqueueNotification]
  split
  · exact .refl s
  split
  · exact .refl s
  split
  · exact .refl s
  refine ⟨fun id' job hjob ↦ ?_, (JobStore.Leaves.refl s).mailbox⟩
  have hne : id' ≠ id := by
    rintro rfl
    rw [hfresh] at hjob
    cases hjob
  exact (Function.update_of_ne hne _ _).trans hjob

theorem leaves_claimWatchRenewal (settings : Settings) (now : Time) :
    s.Leaves (claimWatchRenewal settings s now).1 := by
  rw [claimWatchRenewal]
  split
  · exact .refl s
  split
  · exact .refl s
  split
  · exact .refl s
  refine ⟨fun _ _ h ↦ h, fun state hmailbox ↦ ?_⟩
  rw [hmailbox, Option.getD_some]
  exact ⟨_, rfl, rfl, fun cursor hcursor ↦ ⟨cursor, hcursor, le_rfl⟩⟩

theorem leaves_completeWatchRenewal (leaseToken : LeaseToken) (historyId : ℕ)
    (expiresAt : Time) :
    s.Leaves (completeWatchRenewal s leaseToken historyId expiresAt).1 := by
  rw [completeWatchRenewal]
  split
  · exact .refl s
  rename_i state hmailbox
  split
  · refine leaves_setMailbox ?_ ?_
    · intro old hold
      obtain rfl := Option.some.inj (hmailbox.symm.trans hold)
      rfl
    · intro old cursor hold hcursor
      obtain rfl := Option.some.inj (hmailbox.symm.trans hold)
      refine ⟨_, rfl, ?_⟩
      rw [hcursor, cursorOr.eq_def]
      rcases cursor with _ | cursor
      · exact Nat.zero_le _
      · exact le_rfl
  · exact .refl s

theorem leaves_failWatchRenewal (settings : Settings) (now : Time) (leaseToken : LeaseToken)
    (errorCode : String) : s.Leaves (failWatchRenewal settings s now leaseToken errorCode) := by
  rw [failWatchRenewal]
  split
  · exact .refl s
  rename_i state hmailbox
  split
  · refine leaves_setMailbox ?_ ?_
    · intro old hold
      obtain rfl := Option.some.inj (hmailbox.symm.trans hold)
      rfl
    · intro old cursor hold hcursor
      obtain rfl := Option.some.inj (hmailbox.symm.trans hold)
      exact ⟨cursor, hcursor, le_rfl⟩
  · exact .refl s

theorem leaves_recordWorkerHeartbeat (now : Time) : s.Leaves (recordWorkerHeartbeat s now) := by
  rw [recordWorkerHeartbeat]
  split
  · exact .refl s
  rename_i state hmailbox
  refine leaves_setMailbox ?_ ?_
  · intro old hold
    obtain rfl := Option.some.inj (hmailbox.symm.trans hold)
    rfl
  · intro old cursor hold hcursor
    obtain rfl := Option.some.inj (hmailbox.symm.trans hold)
    exact ⟨cursor, hcursor, le_rfl⟩

theorem JobInHand.of_leaves (h : JobInHand s claim) (hleaves : s.Leaves s') :
    JobInHand s' claim := by
  obtain ⟨job, hheld⟩ := h.held
  obtain ⟨hjob, hby⟩ := heldBy_of_heldJob hheld
  obtain ⟨state, cursor, hmailbox, hidle, hrequired, hgeneration, hcursor⟩ := h.mailbox
  obtain ⟨state', hmailbox', hrecovery, hcursors⟩ := hleaves.mailbox state hmailbox
  obtain ⟨cursor', hcursor', -⟩ := hcursors cursor hcursor
  refine ⟨⟨job, heldJob_eq_some (hleaves.jobs _ _ hjob) hby⟩, state', cursor', hmailbox', ?_, ?_,
    ?_, hcursor'⟩
  · exact (congrArg RecoveryColumns.state hrecovery).trans hidle
  · exact (congrArg RecoveryColumns.required hrecovery).trans hrequired
  · exact (congrArg RecoveryColumns.generation hrecovery).trans hgeneration

/-- A job in hand is completed, and the cursor set. -/
theorem JobInHand.completes (h : JobInHand s claim) (settings : Settings) (clock : ℕ → Time)
    (historyCursor : ℕ) :
    (∃ job, (completeJobAndAdvanceCursor settings s clock claim historyCursor).1.jobs claim.id
        = some job ∧ job.state = .succeeded) ∧
      ∃ cursor, (completeJobAndAdvanceCursor settings s clock claim historyCursor).1.historyCursor
        = some cursor ∧ historyCursor ≤ cursor := by
  obtain ⟨job, hheld⟩ := h.held
  obtain ⟨state, cursor, hmailbox, hidle, -, hgeneration, -⟩ := h.mailbox
  have hcompleted :
      (completeJobAndAdvanceCursor settings s clock claim historyCursor).2 = true :=
    completeJobAndAdvanceCursor_of_current hheld hmailbox hidle hgeneration
  obtain ⟨job', state', state'', -, -, -, -, -, hcursor, hstore⟩ :=
    completeJobAndAdvanceCursor_spec hcompleted
  rw [hstore]
  exact ⟨⟨_, Function.update_self _ _ _, rfl⟩, _, hcursor, le_max_right _ _⟩

end

/-! ## The worker -/

/-- Where the worker is, with the messages that its listing has returned. -/
def PhaseOnItsWay (T : Time) (claim : ClaimedNotificationJob) (triage : TriageStore)
    (listed : List MessageId) : WorkerPhase → Prop
  | .claimed | .listingHistory _ => listed = [] ∧ triage.FreeBut T none
  | .completing historyCursor => listed = [] ∧ claim.historyId ≤ historyCursor
  | .triagingHistory _ _ pending current =>
    triage.FreeBut T (current.map Prod.fst) ∧
      (∀ messageId call, current = some (messageId, call) →
        CallOnItsWay triage T messageId call) ∧
      ∀ messageId ∈ listed, Outstanding pending current messageId ∨ triage.Terminal messageId
  | .advancing _ _ => ∀ messageId ∈ listed, triage.Terminal messageId
  | _ => False

/-- The job is completed, the cursor has reached it, and the messages listed have outcomes. -/
structure Served (claim : ClaimedNotificationJob) (listed : List MessageId) (w : MailWorld) :
    Prop where
  job : ∃ job, w.jobs.jobs claim.id = some job ∧ job.state = .succeeded
  cursor : ∃ cursor, w.jobs.historyCursor = some cursor ∧ claim.historyId ≤ cursor
  handled : ∃ new, w.listed = listed ++ new ∧ ∀ messageId ∈ new, w.triage.Terminal messageId

/-- The worker is on its way, or through. -/
inductive OnItsWay (n : ℕ) (T : Time) (claim : ClaimedNotificationJob) (listed : List MessageId)
    (w : MailWorld) : Prop
  | busy {phase : WorkerPhase} {new : List MessageId} (worker : w.workers n = some ⟨claim, phase⟩)
      (hand : JobInHand w.jobs claim) (more : w.listed = listed ++ new)
      (way : PhaseOnItsWay T claim w.triage new phase)
  | through (worker : w.workers n = none) (served : Served claim listed w)

section

variable {env : MailEnv} {w w' : MailWorld} {n : ℕ} {T : Time} {claim : ClaimedNotificationJob}
  {listed new : List MessageId} {phase : WorkerPhase} {event : WorkerEvent} {result : StepResult}
  {label : MailLabel} {reply : Reply} {s s' : TriageStore} {messageId : MessageId}
  {call call' : TriageCall}

/-- Steps that leave the jobs, the worker and the messages alone. -/
theorem OnItsWay.of_leaves (h : OnItsWay n T claim listed w) (hjobs : w.jobs.Leaves w'.jobs)
    (htriage : w'.triage = w.triage) (hlisted : w'.listed = w.listed)
    (hworkers : w'.workers = w.workers) : OnItsWay n T claim listed w' := by
  rcases h with ⟨worker, hand, more, way⟩ | ⟨worker, served⟩
  · exact .busy (by rw [hworkers]; exact worker) (hand.of_leaves hjobs) (hlisted.trans more)
      (htriage ▸ way)
  · obtain ⟨job, hjob, hstate⟩ := served.job
    obtain ⟨cursor, hcursor, hreached⟩ := served.cursor
    obtain ⟨state, hmailbox, hstored⟩ := Option.bind_eq_some_iff.mp hcursor
    obtain ⟨state', hmailbox', -, hcursors⟩ := hjobs.mailbox state hmailbox
    obtain ⟨cursor', hcursor', hle⟩ := hcursors cursor hstored
    refine .through (by rw [hworkers]; exact worker) ⟨⟨job, hjobs.jobs _ _ hjob, hstate⟩,
      ⟨cursor', ?_, hreached.trans hle⟩, ?_⟩
    · rw [JobStore.historyCursor, hmailbox']
      exact hcursor'
    · rw [hlisted, htriage]
      exact served.handled

/-- The mailbox is read. -/
theorem JobInHand.afterMailboxRead {s : JobStore} (h : JobInHand s claim) :
    ∃ cursor, MailWorld.afterMailboxRead claim s.mailbox =
      if claim.historyId ≤ cursor then .completing cursor else .listingHistory cursor := by
  obtain ⟨state, cursor, hmailbox, hidle, hrequired, -, hcursor⟩ := h.mailbox
  refine ⟨cursor, ?_⟩
  rw [hmailbox, MailWorld.afterMailboxRead, if_neg (by rw [hidle, hrequired]; simp), hcursor]

/-- What a triage has free, with a message at hand that is finished or not. -/
theorem freeBut_of_rows {current : Option MessageId} (hfree : s.FreeBut T (some messageId))
    (hrows : ∀ id ≠ messageId, s'.rows id = s.rows id)
    (hcurrent : current = some messageId ∨ ∀ row, s'.rows messageId = some row → row.Free T) :
    s'.FreeBut T current := by
  intro id row hrow hne
  by_cases hid : id = messageId
  · subst hid
    rcases hcurrent with rfl | hall
    · exact absurd rfl hne
    · exact hall row hrow
  · rw [hrows id hid] at hrow
    exact hfree id row hrow fun heq ↦ hid (Option.some.inj heq).symm

theorem free_of_terminal {row : GmailTriageWork} (h : s.Terminal messageId)
    (hrow : s.rows messageId = some row) : row.Free T := by
  obtain ⟨row', hrow', hterminal⟩ := h
  obtain rfl := Option.some.inj (hrow.symm.trans hrow')
  exact Or.inl hterminal

/-- The next message is taken, or there is none left. -/
theorem PhaseOnItsWay.takeMessage (hway : PhaseOnItsWay T claim w.triage new phase)
    (h : w.workerStep env ⟨claim, phase⟩ .takeMessage = some result) :
    ∃ next, result = w.goto next ∧ PhaseOnItsWay T claim w.triage new next := by
  simp only [MailWorld.workerStep] at h
  split at h
  · exact hway.elim
  · exact hway.elim
  · rename_i start final messageId pending
    obtain ⟨hfree, -, houtstanding⟩ := hway
    obtain rfl := Option.some.inj h
    refine ⟨_, rfl, fun id row hrow _ ↦ hfree id row hrow (by rintro ⟨⟩), ?_, ?_⟩
    · rintro _ _ ⟨⟩ row hrow
      exact hfree messageId row hrow (by rintro ⟨⟩)
    · exact fun id hid ↦ (houtstanding id hid).imp_left Outstanding.taken
  · rename_i start final
    obtain ⟨-, -, houtstanding⟩ := hway
    obtain rfl := Option.some.inj h
    refine ⟨_, rfl, fun id hid ↦ ?_⟩
    exact (houtstanding id hid).resolve_left not_outstanding_nil
  · cases h

/-- The call goes on. -/
theorem PhaseOnItsWay.triage {triageEvent : TriageEvent}
    (hway : PhaseOnItsWay T claim w.triage new phase)
    (hsmooth : (WorkerEvent.triage triageEvent).Smooth env T)
    (h : w.workerStep env ⟨claim, phase⟩ (.triage triageEvent) = some result) :
    ∃ next triage, result = { w.goto next with triage := triage } ∧
      PhaseOnItsWay T claim triage new next := by
  simp only [MailWorld.workerStep] at h
  split at h
  · exact hway.elim
  · rename_i start final pending messageId call
    obtain ⟨hfree, hcall, houtstanding⟩ := hway
    split at h
    · cases h
    rename_i triage call' hcalled
    obtain rfl := Option.some.inj h
    obtain ⟨hcall', hrows⟩ := (hcall messageId call rfl).step hsmooth hcalled
    refine ⟨_, triage, rfl, freeBut_of_rows hfree hrows (Or.inl rfl), ?_, fun id hid ↦ ?_⟩
    · rintro _ _ ⟨⟩
      exact hcall'
    · rcases houtstanding id hid with hout | hterminal
      · exact Or.inl hout.called
      · exact Or.inr ((TriageCall.step_keeps hcalled).terminal hterminal)
  · cases h

/-- The call is over, and its message finished. -/
theorem PhaseOnItsWay.triaged (hway : PhaseOnItsWay T claim w.triage new phase)
    (h : w.workerStep env ⟨claim, phase⟩ .triaged = some result) :
    ∃ next, result = w.goto next ∧ PhaseOnItsWay T claim w.triage new next := by
  simp only [MailWorld.workerStep] at h
  split at h
  · exact hway.elim
  · exact hway.elim
  · exact hway.elim
  · rename_i start final pending messageId
    obtain ⟨hfree, hcall, houtstanding⟩ := hway
    obtain rfl := Option.some.inj h
    have hterminal : w.triage.Terminal messageId := hcall messageId _ rfl
    refine ⟨_, rfl, freeBut_of_rows hfree (fun _ _ ↦ rfl)
      (Or.inr fun row ↦ free_of_terminal hterminal), by rintro _ _ ⟨⟩, fun id hid ↦ ?_⟩
    rcases houtstanding id hid with (hmem | ⟨_, ⟨⟩⟩) | hdone
    · exact Or.inl (Or.inl hmem)
    · exact Or.inr hterminal
    · exact Or.inr hdone
  · exact (hway.2.1 _ _ rfl).elim
  · exact (hway.2.1 _ _ rfl).elim
  · cases h

/-- The history is listed. -/
theorem PhaseOnItsWay.listHistory {responses : List (Except HistoryFailure Json)}
    (hway : PhaseOnItsWay T claim w.triage new phase)
    (hsmooth : (WorkerEvent.listHistory responses).Smooth env T)
    (h : w.workerStep env ⟨claim, phase⟩ (.listHistory responses) = some result) :
    new = [] ∧ ∃ next more, result = { w.goto next with listed := more } ∧
      PhaseOnItsWay T claim w.triage more next := by
  simp only [MailWorld.workerStep] at h
  split at h
  · rename_i start
    obtain ⟨rfl, hfree⟩ := hway
    split at h
    · cases h
    · rename_i failure hfailure
      exact absurd hfailure (hsmooth start failure)
    · rename_i work hcollected
      split at h
      · cases h
      split at h
      · obtain rfl := Option.some.inj h
        exact ⟨rfl, _, _, rfl, hfree, by rintro _ _ ⟨⟩, fun id hid ↦ Or.inl (Or.inl hid)⟩
      · cases h
  · cases h

/-- The last transaction. -/
theorem PhaseOnItsWay.transact {clock : ℕ → Time}
    (hway : PhaseOnItsWay T claim w.triage new phase)
    (h : w.workerStep env ⟨claim, phase⟩ (.transact clock) = some result) :
    (∀ messageId ∈ new, w.triage.Terminal messageId) ∧ ∃ historyCursor,
      claim.historyId ≤ historyCursor ∧
        result = w.advance env.settings clock claim historyCursor := by
  rcases phase with _ | sourceHistoryId | ⟨resync, sourceHistoryId⟩ | ⟨resync, _, _, _, _⟩ |
    ⟨resync, newest⟩ | ⟨resync, historyCursor⟩ | ⟨resync, token, processedCount⟩ | resync |
    ⟨resync, errorCode⟩ | start | ⟨_, _, _, _⟩ | ⟨start, final⟩ | historyCursor | args |
    ⟨errorCode, immediately⟩ | errorCode
  case advancing =>
    obtain rfl := Option.some.inj h
    exact ⟨hway, _, le_max_right _ _, rfl⟩
  case completing =>
    obtain rfl := Option.some.inj h
    obtain ⟨rfl, hreached⟩ := hway
    exact ⟨List.forall_mem_nil _, _, hreached, rfl⟩
  case claimed | listingHistory | triagingHistory => cases h
  all_goals exact hway.elim

theorem PhaseOnItsWay.readMailbox (hhand : JobInHand w.jobs claim)
    (hway : PhaseOnItsWay T claim w.triage new phase)
    (h : w.workerStep env ⟨claim, phase⟩ .readMailbox = some result) :
    ∃ next, result = w.goto next ∧ PhaseOnItsWay T claim w.triage new next := by
  simp only [MailWorld.workerStep] at h
  split at h
  · obtain ⟨rfl, hfree⟩ := hway
    obtain ⟨cursor, hread⟩ := hhand.afterMailboxRead
    obtain rfl := Option.some.inj h
    rw [hread]
    refine ⟨_, rfl, ?_⟩
    split
    · rename_i hreached
      exact ⟨rfl, hreached⟩
    · exact ⟨rfl, hfree⟩
  · cases h

/-- **The step lemma.** -/
theorem OnItsWay.step (h : OnItsWay n T claim listed w) (hC : Undisturbed env n T w label)
    (hs : w.step env label = some (w', reply)) : OnItsWay n T claim listed w' := by
  rcases label with _ | _ | _ | _ | _ | _ | _ | _ | _ | ⟨m, event⟩
  case claimJob => exact hC.elim
  case arrive | touch =>
    obtain ⟨g, -, hpair⟩ := Option.map_eq_some_iff.mp hs
    obtain ⟨rfl, -⟩ := Prod.mk.inj hpair
    exact h.of_leaves (.refl _) rfl rfl rfl
  case remove =>
    obtain ⟨rfl, -⟩ := Prod.mk.inj (Option.some.inj hs)
    exact h.of_leaves (.refl _) rfl rfl rfl
  case claimWatch =>
    obtain ⟨rfl, -⟩ := Prod.mk.inj (Option.some.inj hs)
    exact h.of_leaves (leaves_claimWatchRenewal _ _) rfl rfl rfl
  case completeWatch =>
    obtain ⟨rfl, -⟩ := Prod.mk.inj (Option.some.inj hs)
    exact h.of_leaves (leaves_completeWatchRenewal _ _ _) rfl rfl rfl
  case failWatch =>
    obtain ⟨rfl, -⟩ := Prod.mk.inj (Option.some.inj hs)
    exact h.of_leaves (leaves_failWatchRenewal _ _ _ _) rfl rfl rfl
  case heartbeat =>
    obtain ⟨rfl, -⟩ := Prod.mk.inj (Option.some.inj hs)
    exact h.of_leaves (leaves_recordWorkerHeartbeat _) rfl rfl rfl
  case enqueue =>
    simp only [MailWorld.step] at hs
    split at hs
    · cases hs
    · rename_i hfresh
      obtain ⟨rfl, -⟩ := Prod.mk.inj (Option.some.inj hs)
      exact h.of_leaves (leaves_enqueueNotification _ _ _ hfresh) rfl rfl rfl
  case work =>
    obtain ⟨rfl, hsmooth⟩ := hC
    obtain ⟨worker, result, hworker, hresult, rfl, -⟩ := step_work hs
    rcases h with ⟨hbusy, hhand, hmore, hway⟩ | ⟨hnone, -⟩
    case through =>
      rw [hworker] at hnone
      cases hnone
    rename_i phase new
    obtain rfl := Option.some.inj (hworker.symm.trans hbusy)
    -- a step that goes on, with nothing new listed
    have hgo : ∀ next triage, result = { w.goto next with triage := triage } →
        PhaseOnItsWay T claim triage new next →
          OnItsWay m T claim listed (w.apply m ⟨claim, phase⟩ result) := by
      rintro next triage rfl hnext
      exact .busy (MailWorld.apply_self _ _ _ _) hhand ((List.append_nil _).trans hmore) hnext
    rcases event with _ | clock | ⟨committed, clock⟩ | size | failure | _ | call | _ | _ | _ |
      responses | _
    case readMailbox =>
      obtain ⟨next, heq, hnext⟩ := hway.readMailbox hhand hresult
      exact hgo next w.triage heq hnext
    case transact =>
      obtain ⟨hhandled, historyCursor, hreached, rfl⟩ := hway.transact hresult
      obtain ⟨hjob, cursor, hcursor, hle⟩ := hhand.completes env.settings clock historyCursor
      refine .through (MailWorld.apply_self _ _ _ _) ⟨hjob, ⟨cursor, hcursor, hreached.trans hle⟩,
        new, (List.append_nil _).trans hmore, hhandled⟩
    case takeMessage =>
      obtain ⟨next, heq, hnext⟩ := hway.takeMessage hresult
      exact hgo next w.triage heq hnext
    case triage =>
      obtain ⟨next, triage, heq, hnext⟩ := hway.triage hsmooth hresult
      exact hgo next triage heq hnext
    case triaged =>
      obtain ⟨next, heq, hnext⟩ := hway.triaged hresult
      exact hgo next w.triage heq hnext
    case listHistory =>
      obtain ⟨rfl, next, more, rfl, hnext⟩ := hway.listHistory hsmooth hresult
      refine .busy (MailWorld.apply_self _ _ _ _) hhand ?_ hnext
      exact congrArg (· ++ more) (hmore.trans (List.append_nil _))
    all_goals exact hsmooth.elim

/-! ### The beginning -/

/-- A mailbox that is up and running, with no message taken beyond `T`. -/
structure UpAndRunning (T : Time) (w : MailWorld) : Prop where
  idle : w.jobs.recovery.state = .idle
  cursor : w.jobs.historyCursor.isSome = true
  free : w.triage.FreeBut T none

/-- A claim that is granted there. -/
theorem onItsWay_of_claim {t : MailTables} {id : JobId} {clock : ℕ → Time} {worker : Worker}
    (ht : Grounded env w t) (hrunning : UpAndRunning T w)
    (hs : w.step env (.claimJob n id clock) = some (w', reply))
    (hworker : w'.workers n = some worker) :
    w.workers n = none ∧ OnItsWay n T worker.claim w.listed w' ∧
      ∃ job, w.jobs.jobs id = some job ∧ worker.claim.id = id ∧
        worker.claim.historyId = job.historyId := by
  simp only [MailWorld.step] at hs
  split at hs
  · rename_i jobs claim hfree hclaim
    obtain ⟨rfl, -⟩ := Prod.mk.inj (Option.some.inj hs)
    rw [MailWorld.setWorker_self] at hworker
    obtain ⟨job, state, hjob, hmailbox, -, houtcome⟩ := claimOutcome_of_claim hclaim
    cases houtcome with
    | granted =>
      obtain rfl := Option.some.inj hworker
      have hrecovery := JobStore.recovery_of_mailbox hmailbox
      have hidle : state.resyncState = .idle := by
        have := hrunning.idle
        rwa [hrecovery] at this
      have hrequired : state.resyncRequired = false := by
        have hrow := ht.row.row.required
        rw [ht.tracks.store, hrecovery] at hrow
        exact Bool.eq_false_iff.mpr fun hrequired ↦ hrow.mp hrequired hidle
      obtain ⟨cursor, hcursor⟩ := Option.isSome_iff_exists.mp hrunning.cursor
      rw [JobStore.historyCursor, hmailbox] at hcursor
      refine ⟨hfree, .busy (MailWorld.setWorker_self _ _ _) ⟨?_, ?_⟩ (List.append_nil _).symm
        ⟨rfl, hrunning.free⟩, job, hjob, rfl, rfl⟩
      · exact ⟨_, heldJob_eq_some (Function.update_self _ _ _) ⟨rfl, rfl⟩⟩
      · exact ⟨state, cursor, hmailbox, hidle, hrequired, rfl, hcursor⟩
    | _ => cases hworker
  · cases hs

/-- The claim of a job that is due is answered. -/
theorem exists_claim_of_due (settings : Settings) {s : JobStore} {id : JobId} {clock : ℕ → Time}
    {job : GmailNotificationJob} {state : GmailMailboxState} (hjob : s.jobs id = some job)
    (hmailbox : s.mailbox = some state) (hdue : job.due (clock 0) = true) :
    ∃ s' claim, claimNotificationJob settings s id clock = some (s', claim) := by
  rw [claimNotificationJob]
  dsimp only
  rw [hjob, hmailbox]
  dsimp only
  rw [if_pos hdue]
  split
  · split
    · exact ⟨_, _, rfl⟩
    · exact ⟨_, _, rfl⟩
  split
  · exact ⟨_, _, rfl⟩
  split
  · exact ⟨_, _, rfl⟩
  · exact ⟨_, _, rfl⟩

/-- A pending job that is due, with attempts left, is granted. -/
theorem granted_of_pending {id : JobId} {clock : ℕ → Time} {job : GmailNotificationJob}
    (hidle : w.jobs.recovery.state = .idle) (hmailbox : w.jobs.mailbox.isSome = true)
    (hfree : w.workers n = none) (hjob : w.jobs.jobs id = some job)
    (hpending : job.state = .pending) (hdue : job.due (clock 0) = true)
    (hunspent : job.attemptCount < env.settings.notificationMaxAttempts) :
    ∃ w' worker, w.step env (.claimJob n id clock) = some (w', .none) ∧
      w'.workers n = some worker := by
  obtain ⟨state, hmailbox⟩ := Option.isSome_iff_exists.mp hmailbox
  have hstate : state.resyncState = .idle := by
    rwa [JobStore.recovery_of_mailbox hmailbox] at hidle
  obtain ⟨jobs, claim, hclaim⟩ := exists_claim_of_due env.settings hjob hmailbox hdue
  have hstep : w.step env (.claimJob n id clock) =
      some ((w.setJobs jobs).setWorker n (claim.map fun claim ↦ ⟨claim, .claimed⟩), .none) := by
    simp only [MailWorld.step, hfree, hclaim]
  obtain ⟨job', state', hjob', hmailbox', -, houtcome⟩ := claimOutcome_of_claim hclaim
  obtain rfl := Option.some.inj (hjob.symm.trans hjob')
  obtain rfl := Option.some.inj (hmailbox.symm.trans hmailbox')
  cases houtcome with
  | expired processing =>
    rw [hpending] at processing
    cases processing
  | manual pending manual =>
    rw [hstate] at manual
    cases manual
  | limit pending spent => exact absurd hunspent (not_lt.mpr spent)
  | granted => exact ⟨_, _, hstep, MailWorld.setWorker_self _ _ _⟩

/-! ### Going on -/

/-- A call on its way has returned, or has a step ahead that does not fail. -/
theorem CallOnItsWay.goesOn (h : CallOnItsWay s T messageId call) (env : MailEnv)
    (sourceHistoryId : ℕ) :
    call = .returned true ∨ ∃ event next, (WorkerEvent.triage event).Smooth env T ∧
      call.step env.settings s messageId sourceHistoryId event = some next := by
  rcases call with _ | started | started | _ | claim | ⟨claim, args, guarded⟩ |
    ⟨claim, errorCode⟩ | ⟨_ | _⟩ | _
  case claiming =>
    refine Or.inr ⟨.transact T, ?_⟩
    simp only [TriageCall.step, TriageCall.transaction]
    split
    · exact ⟨_, le_refl T, rfl⟩
    · exact ⟨_, le_refl T, rfl⟩
  case inserting =>
    have hnone : s.rows messageId = none := h
    refine Or.inr ⟨.transact T, ?_⟩
    simp only [TriageCall.step, TriageCall.transaction, hnone]
    exact ⟨_, le_refl T, rfl⟩
  case refused | finalizing => exact Or.inr ⟨.transact T, _, le_refl T, rfl⟩
  case analysing => exact Or.inr ⟨.analysed .filtered, _, rfl, rfl⟩
  case returned.true => exact Or.inl rfl
  case conflicted | releasing | returned.false | raised => exact h.elim

/-- The worker has a step ahead that does not fail, unless it waits for the history. -/
theorem PhaseOnItsWay.goesOn (hway : PhaseOnItsWay T claim w.triage new phase) (env : MailEnv) :
    (∃ start, phase = .listingHistory start) ∨ ∃ event result, event.Smooth env T ∧
      w.workerStep env ⟨claim, phase⟩ event = some result := by
  rcases phase with _ | sourceHistoryId | ⟨resync, sourceHistoryId⟩ | ⟨resync, _, _, _, _⟩ |
    ⟨resync, newest⟩ | ⟨resync, historyCursor⟩ | ⟨resync, token, processedCount⟩ | resync |
    ⟨resync, errorCode⟩ | start | ⟨start, final, pending, _ | ⟨messageId, call⟩⟩ |
    ⟨start, final⟩ | historyCursor | args | ⟨errorCode, immediately⟩ | errorCode
  case claimed => exact Or.inr ⟨.readMailbox, _, trivial, rfl⟩
  case listingHistory => exact Or.inl ⟨start, rfl⟩
  case triagingHistory.none =>
    refine Or.inr ⟨.takeMessage, ?_⟩
    rcases pending with _ | ⟨messageId, pending⟩
    · exact ⟨_, trivial, rfl⟩
    · exact ⟨_, trivial, rfl⟩
  case triagingHistory.some =>
    right
    rcases (hway.2.1 messageId call rfl).goesOn env final with
      rfl | ⟨event, next, hsmooth, hnext⟩
    · exact ⟨.triaged, _, trivial, rfl⟩
    · refine ⟨.triage event, ?_⟩
      simp only [MailWorld.workerStep, hnext]
      exact ⟨_, hsmooth, rfl⟩
  case advancing | completing => exact Or.inr ⟨.transact fun _ ↦ 0, _, trivial, rfl⟩
  all_goals exact hway.elim

/-- An undisturbed worker lives on what it has. -/
theorem rank_run_le {tr : List (MailLabel × Reply)}
    (hrun : System.Run (mailWorkers env) (Undisturbed env n T) w tr w') :
    w'.rank env.settings n + tr.countP (isStepOf n) ≤ w.rank env.settings n := by
  have hspent : w'.rank env.settings n + tr.countP (isStepOf n) ≤
      w.rank env.settings n + tr.countP fun _ ↦ false := by
    refine hrun.budget (I := fun _ ↦ True) (m := fun w ↦ w.rank env.settings n) trivial ?_
    intro w label w' reply _ hC hs
    refine ⟨trivial, ?_⟩
    have hstep := rank_step (n := n) hs
    rcases label with _ | _ | _ | _ | _ | _ | _ | _ | _ | _
    case claimJob => exact hC.elim
    all_goals exact hstep
  rw [List.countP_false] at hspent
  exact hspent

/-- The worker is still there, with steps left in its bound, and goes on. -/
structure StillOnItsWay (env : MailEnv) (n : ℕ) (T : Time) (claim : ClaimedNotificationJob)
    (w : MailWorld) (taken : ℕ) : Prop where
  worker : ∃ worker, w.workers n = some worker ∧ worker.claim = claim ∧
    ((∃ start, worker.phase = .listingHistory start) ∨ ∃ event w' reply, event.Smooth env T ∧
      w.step env (.work n event) = some (w', reply))
  bounded : taken < stepsPerClaim env.settings

theorem OnItsWay.served_or_goesOn (h : OnItsWay n T claim listed w) {taken : ℕ}
    (hbounded : w.rank env.settings n + taken ≤ stepsPerClaim env.settings) :
    w.workers n = none ∧ Served claim listed w ∨ StillOnItsWay env n T claim w taken := by
  rcases h with ⟨worker, hand, more, way⟩ | ⟨worker, served⟩
  · rename_i phase new
    refine Or.inr ⟨⟨_, worker, rfl, ?_⟩, ?_⟩
    · refine (way.goesOn env).imp_right ?_
      rintro ⟨event, result, hsmooth, hresult⟩
      refine ⟨event, w.apply n ⟨claim, phase⟩ result, result.reply, hsmooth, ?_⟩
      rw [MailWorld.step, worker]
      dsimp only
      rw [hresult]
    · have hpos := phase.rank_pos env.settings
      rw [MailWorld.rank, worker] at hbounded
      change phase.rank env.settings + taken ≤ _ at hbounded
      omega
  · exact Or.inl ⟨worker, served⟩

end

/-! ## Jobs are served -/

/-- What becomes of a job that is claimed on a mailbox that is up and running, by a worker that is
not disturbed from then on. -/
structure UndisturbedServes (env : MailEnv) : Prop where
  /-- A pending job that is due, with attempts left, is granted to a worker that is free. -/
  granted {s t : MailWorld} {tr : List (MailLabel × Reply)} {n : ℕ} {T : Time} {id : JobId}
      {clock : ℕ → Time} {job : GmailNotificationJob} :
    (mailWorkers env).init s → System.Run (mailWorkers env) System.anyStep s tr t →
    UpAndRunning T t → t.workers n = none → t.jobs.jobs id = some job → job.state = .pending →
    job.due (clock 0) = true → job.attemptCount < env.settings.notificationMaxAttempts →
    ∃ u worker, t.step env (.claimJob n id clock) = some (u, .none) ∧ u.workers n = some worker
  /-- At every point after the claim, the job is completed, the cursor has reached its notification
  and every message that was listed for it has an outcome; or the worker is still at it, has taken
  fewer steps than the bound, and can go on, unless it waits for the history. -/
  served {s t u v : MailWorld} {tr tr' : List (MailLabel × Reply)} {n : ℕ} {T : Time} {id : JobId}
      {clock : ℕ → Time} {reply : Reply} {worker : Worker} :
    (mailWorkers env).init s → System.Run (mailWorkers env) System.anyStep s tr t →
    UpAndRunning T t → t.step env (.claimJob n id clock) = some (u, reply) →
    u.workers n = some worker → System.Run (mailWorkers env) (Undisturbed env n T) u tr' v →
    (∃ job, t.jobs.jobs id = some job ∧ worker.claim.id = id ∧
      worker.claim.historyId = job.historyId) ∧
    (v.workers n = none ∧ Served worker.claim t.listed v ∨
      StillOnItsWay env n T worker.claim v (tr'.countP (isStepOf n)))

/-- **A worker that is not disturbed serves its job.** -/
theorem undisturbedServes (env : MailEnv) : UndisturbedServes env where
  granted _ _ hrunning hfree hjob hpending hdue hunspent := by
    obtain ⟨cursor, hcursor⟩ := Option.isSome_iff_exists.mp hrunning.cursor
    obtain ⟨state, hmailbox, -⟩ := Option.bind_eq_some_iff.mp hcursor
    exact granted_of_pending hrunning.idle (Option.isSome_iff_exists.mpr ⟨state, hmailbox⟩) hfree
      hjob hpending hdue hunspent
  served {s t u v tr tr' n T id clock reply worker} hinit hrun hrunning hs hworker hrun' := by
    obtain ⟨x, hx⟩ := grounded_of_run hinit hrun
    obtain ⟨hfree, hclaimed, hjob⟩ := onItsWay_of_claim hx hrunning hs hworker
    refine ⟨hjob, OnItsWay.served_or_goesOn ?_ ?_⟩
    · exact hrun'.invariant (I := OnItsWay n T worker.claim t.listed) hclaimed
        fun _ _ _ _ h hC hs ↦ h.step hC hs
    · -- The claim pays for all the steps.
      have hclaim := rank_step (n := n) hs
      rw [MailWorld.rank_eq_zero_iff.mpr hfree, Nat.zero_add] at hclaim
      refine (rank_run_le hrun').trans ((Nat.le_add_right _ _).trans (hclaim.trans ?_))
      split
      · exact Nat.le_refl _
      · exact Nat.zero_le _

end Onebox.Notifications
