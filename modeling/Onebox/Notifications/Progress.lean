import Onebox.Notifications.HistoryItems
import Onebox.Notifications.ResyncBudget
import Onebox.Notifications.Steps

/-!
# Processing a job ends

A worker that has claimed a job takes a bounded number of steps on it, whatever the other workers
do in between, whatever the provider answers and whichever of its transactions fail; and at no
point is it stuck. The bound comes from a rank of the phases: every step of a worker lowers it, the
listings within what the settings allow them to return.
-/

namespace Onebox.Notifications

open Python Transition

/-! ## Ranks -/

/-- How many steps a call of `_triage_message` may still take. -/
def TriageCall.rank : TriageCall → ℕ
  | .claiming => 6
  | .inserting _ => 5
  | .conflicted _ => 4
  | .analysing _ => 3
  | .finalizing _ _ true => 2
  | .finalizing _ _ false | .releasing _ _ | .refused => 1
  | .returned _ | .raised => 0

/-- How many steps the loop over the messages may still take, before its last. -/
def triageRank (pending : List MessageId) (current : CurrentTriage) : ℕ :=
  8 * pending.length + (current.elim 0 fun message ↦ message.2.rank + 1)

/-- How many steps a listing of the inbox leads to. -/
def inboxBound (settings : Settings) : ℕ := 8 * min 100 settings.resyncMaxMessages

/-- How many steps a listing of the history leads to. -/
def historyBound (settings : Settings) : ℕ := 8 * settings.historyMaxMessages

/-- How many steps a worker may still take. -/
def WorkerPhase.rank (settings : Settings) : WorkerPhase → ℕ
  | .claimed => 8 + max (inboxBound settings) (historyBound settings)
  | .claimingResync _ => 7 + inboxBound settings
  | .listingInbox _ _ => 6 + inboxBound settings
  | .triagingInbox _ _ _ pending current => 5 + triageRank pending current
  | .readingProfile _ _ => 4
  | .completingResync _ _ | .checkpointing _ _ _ | .requiringManual _ => 3
  | .releasing _ _ => 2
  | .listingHistory _ => 3 + historyBound settings
  | .triagingHistory _ _ pending current => 2 + triageRank pending current
  | .advancing _ _ | .completing _ | .failing _ | .requeueing _ _ | .deadLettering _ => 1

/-- A worker that has stopped takes no step. -/
def rankOf (settings : Settings) (phase : Option WorkerPhase) : ℕ :=
  phase.elim 0 (WorkerPhase.rank settings)

/-- How many steps the `n`-th worker may still take. -/
def MailWorld.rank (settings : Settings) (w : MailWorld) (n : ℕ) : ℕ :=
  rankOf settings ((w.workers n).map Worker.phase)

/-- How many steps a claim of a job leads to at most. -/
def stepsPerClaim (settings : Settings) : ℕ :=
  8 + max (inboxBound settings) (historyBound settings)

theorem stepsPerClaim_le (settings : Settings) : stepsPerClaim settings ≤ 8008 := by
  have hhistory := settings.history_bounds.2.1
  rw [stepsPerClaim, inboxBound, historyBound]
  omega

/-! ## The bounds of the listings -/

section

variable {unicode : UnicodeData} {maxMessages maxPages : ℕ} {work work' : HistoryWork}

theorem length_takeItems_le {items : List HistoryItem}
    (h : takeItems maxMessages items work = .ok work')
    (hwork : work.messageIds.length ≤ maxMessages) : work'.messageIds.length ≤ maxMessages := by
  induction items generalizing work with
  | nil =>
    obtain rfl := Except.ok.inj h
    exact hwork
  | cons item items ih =>
    rw [takeItems_cons] at h
    rcases hitem : takeItem maxMessages work item with e | next
    · rw [hitem] at h
      cases h
    rw [hitem] at h
    refine ih h ?_
    rcases item with _ | historyId | messageId
    · cases hitem
    · obtain rfl := Except.ok.inj hitem
      exact hwork
    · rw [takeItem] at hitem
      split at hitem
      · obtain rfl := Except.ok.inj hitem
        exact hwork
      split at hitem
      · cases hitem
      rename_i hroom
      obtain rfl := Except.ok.inj hitem
      rw [List.length_append, List.length_singleton]
      exact Nat.not_le.mp hroom

theorem length_readPages_le {responses : List (Except HistoryFailure Json)} {pageCount : ℕ}
    (h : readPages unicode maxMessages maxPages responses pageCount work = some (.ok work'))
    (hwork : work.messageIds.length ≤ maxMessages) : work'.messageIds.length ≤ maxMessages := by
  induction responses generalizing work pageCount with
  | nil => cases h
  | cons response rest ih =>
    rcases response with e | response
    · cases h
    rw [readPages] at h
    split at h
    · cases h
    rename_i next hpage
    rw [readPage_eq_takeItems] at hpage
    have hnext := length_takeItems_le hpage hwork
    split at h
    · split at h
      · cases h
      · exact ih h hnext
    · obtain rfl := Except.ok.inj (Option.some.inj h)
      exact hnext

theorem length_inboxItems_le (g : Gmail) (pageToken : Option PageToken) (size : ℕ) :
    (inboxItems (g.listInbox pageToken size)).length ≤ size := by
  rw [inboxItems, List.length_map]
  exact List.length_take_le _ _

end

/-! ## Every step lowers the rank -/

section

variable {settings : Settings} {s s' : TriageStore} {id : MessageId} {sourceHistoryId : ℕ}
  {call call' : TriageCall} {event : TriageEvent}

theorem rank_afterClaim_le (answer : ClaimAnswer) : (afterClaim answer).rank ≤ 3 := by
  rcases answer with claim | _
  · exact Nat.le_refl _
  · decide

theorem rank_afterAnalysis_lt (claim : ClaimedTriageWork) (result : AnalysisResult) :
    (afterAnalysis claim result).rank < 3 := by
  rcases result with _ | _ | response | statusCode | _ | _ | _
  case rejected =>
    rw [afterAnalysis]
    split
    · exact Nat.lt_of_sub_eq_succ rfl
    · exact Nat.lt_of_sub_eq_succ rfl
  all_goals exact Nat.lt_of_sub_eq_succ rfl

theorem TriageCall.rank_transaction_lt {now : Time}
    (h : call.transaction settings s id sourceHistoryId now = some (s', call')) :
    call'.rank < call.rank := by
  rcases call with _ | started | started | _ | claim | ⟨claim, args, _ | _⟩ |
    ⟨claim, errorCode⟩ | result | _
  · rw [transaction] at h
    split at h
    · obtain ⟨-, rfl⟩ := Prod.mk.inj (Option.some.inj h)
      exact Nat.lt_succ_self 5
    · obtain ⟨-, rfl⟩ := Prod.mk.inj (Option.some.inj h)
      exact (rank_afterClaim_le _).trans_lt (Nat.lt_of_sub_eq_succ rfl)
  · rw [transaction] at h
    split at h
    · obtain ⟨-, rfl⟩ := Prod.mk.inj (Option.some.inj h)
      exact (rank_afterClaim_le _).trans_lt (Nat.lt_of_sub_eq_succ rfl)
    · obtain ⟨-, rfl⟩ := Prod.mk.inj (Option.some.inj h)
      exact Nat.lt_succ_self 4
  · rw [transaction] at h
    split at h
    · obtain ⟨-, rfl⟩ := Prod.mk.inj (Option.some.inj h)
      exact Nat.succ_pos 3
    · obtain ⟨-, rfl⟩ := Prod.mk.inj (Option.some.inj h)
      exact (rank_afterClaim_le _).trans_lt (Nat.lt_of_sub_eq_succ rfl)
  · obtain ⟨-, rfl⟩ := Prod.mk.inj (Option.some.inj h)
    exact Nat.succ_pos 0
  · cases h
  · obtain ⟨-, rfl⟩ := Prod.mk.inj (Option.some.inj h)
    exact Nat.succ_pos 0
  · obtain ⟨-, rfl⟩ := Prod.mk.inj (Option.some.inj h)
    exact Nat.succ_pos 1
  · obtain ⟨-, rfl⟩ := Prod.mk.inj (Option.some.inj h)
    exact Nat.succ_pos 0
  · cases h
  · cases h

/-- A call whose transaction may fail has a step left, and one more if the failure is handled. -/
theorem TriageCall.rank_afterDatabaseError_lt (h : 0 < call.rank) :
    call.afterDatabaseError.rank < call.rank := by
  rcases call with _ | started | started | _ | claim | ⟨claim, args, _ | _⟩ |
    ⟨claim, errorCode⟩ | result | _
  case finalizing.true => exact Nat.lt_succ_self 1
  all_goals exact h

theorem TriageCall.rank_step_lt
    (h : call.step settings s id sourceHistoryId event = some (s', call')) :
    call'.rank < call.rank := by
  rcases event with now | ⟨committed, now⟩ | result | _
  · exact rank_transaction_lt h
  · simp only [step] at h
    split at h
    · cases h
    · rename_i store next htransaction
      obtain ⟨-, rfl⟩ := Prod.mk.inj (Option.some.inj h)
      exact rank_afterDatabaseError_lt (Nat.zero_lt_of_lt (rank_transaction_lt htransaction))
  · simp only [step] at h
    split at h
    · obtain ⟨-, rfl⟩ := Prod.mk.inj (Option.some.inj h)
      exact rank_afterAnalysis_lt _ result
    · cases h
  · simp only [step] at h
    split at h
    · cases h
    · cases h
    · rename_i hreturned hraised
      obtain ⟨-, rfl⟩ := Prod.mk.inj (Option.some.inj h)
      rcases call with _ | started | started | _ | claim | ⟨claim, args, _ | _⟩ |
        ⟨claim, errorCode⟩ | result | _
      case returned => exact absurd rfl (hreturned result)
      case raised => exact absurd rfl hraised
      all_goals exact Nat.succ_pos _

theorem triageRank_nil : triageRank [] none = 0 := rfl

theorem triageRank_take (messageId : MessageId) (pending : List MessageId) :
    triageRank pending (some (messageId, .claiming)) + 1 =
      triageRank (messageId :: pending) none := by
  rw [triageRank, triageRank, List.length_cons]
  change 8 * pending.length + 7 + 1 = 8 * (pending.length + 1) + 0
  omega

theorem triageRank_call_lt {messageId : MessageId} {pending : List MessageId}
    (h : call'.rank < call.rank) :
    triageRank pending (some (messageId, call')) < triageRank pending (some (messageId, call)) :=
  Nat.add_lt_add_left (Nat.succ_lt_succ h) _

theorem triageRank_triaged_lt (messageId : MessageId) (pending : List MessageId) :
    triageRank pending none < triageRank pending (some (messageId, call)) :=
  Nat.add_lt_add_left (Nat.succ_pos _) _

theorem triageRank_none (pending : List MessageId) :
    triageRank pending none = 8 * pending.length := Nat.add_zero _

end

section

variable {env : MailEnv} {w w' : MailWorld} {worker : Worker} {event : WorkerEvent}
  {result : StepResult}

theorem rankOf_some (settings : Settings) (phase : WorkerPhase) :
    rankOf settings (some phase) = phase.rank settings := rfl

theorem rank_afterMailboxRead_lt (settings : Settings) (claim : ClaimedNotificationJob)
    (state : Option GmailMailboxState) :
    (MailWorld.afterMailboxRead claim state).rank settings < stepsPerClaim settings := by
  have hinbox : inboxBound settings ≤ max (inboxBound settings) (historyBound settings) :=
    le_max_left _ _
  have hhistory : historyBound settings ≤ max (inboxBound settings) (historyBound settings) :=
    le_max_right _ _
  rw [stepsPerClaim]
  rcases state with _ | state
  · change 1 < _
    omega
  rw [MailWorld.afterMailboxRead]
  split
  · split
    · change 1 < _
      omega
    · change 7 + inboxBound settings < _
      omega
  split
  · change 1 < _
    omega
  split
  · change 1 < _
    omega
  · change 3 + historyBound settings < _
    omega

theorem rank_afterInboxPage_lt (settings : Settings) (resync : ClaimedMailboxResync)
    (page : ListedPage) : (MailWorld.afterInboxPage settings resync page).rank settings < 5 := by
  rw [MailWorld.afterInboxPage]
  split
  · split
    · exact Nat.lt_of_sub_eq_succ rfl
    · exact Nat.lt_of_sub_eq_succ rfl
  · exact Nat.lt_of_sub_eq_succ rfl

theorem rankOf_transact_lt {clock : ℕ → Time}
    (h : w.transact env.settings worker.claim clock worker.phase = some result) :
    rankOf env.settings result.phase < worker.phase.rank env.settings := by
  rcases worker with ⟨claim, phase⟩
  rcases phase with _ | sourceHistoryId | ⟨resync, sourceHistoryId⟩ | ⟨resync, _, _, _, _⟩ |
    ⟨resync, newest⟩ | ⟨resync, historyCursor⟩ | ⟨resync, token, processedCount⟩ | resync |
    ⟨resync, errorCode⟩ | start | ⟨_, _, _, _⟩ | ⟨start, final⟩ | historyCursor | args |
    ⟨errorCode, immediately⟩ | errorCode
  case claimingResync =>
    simp only [MailWorld.transact] at h
    split at h
    · obtain rfl := Option.some.inj h
      exact Nat.lt_of_lt_of_le (Nat.lt_of_sub_eq_succ rfl) (Nat.le_add_right 7 _)
    · obtain rfl := Option.some.inj h
      exact Nat.add_lt_add_right (Nat.lt_succ_self 6) _
  case completingResync =>
    simp only [MailWorld.transact] at h
    split at h
    · obtain rfl := Option.some.inj h
      exact Nat.lt_of_sub_eq_succ rfl
    · obtain rfl := Option.some.inj h
      exact Nat.lt_of_sub_eq_succ rfl
  case checkpointing =>
    obtain rfl := Option.some.inj h
    change rankOf _ (some (if _ then _ else _)) < 3
    split
    · exact Nat.lt_of_sub_eq_succ rfl
    · exact Nat.lt_of_sub_eq_succ rfl
  case requiringManual =>
    obtain rfl := Option.some.inj h
    change rankOf _ (some (if _ then _ else _)) < 3
    split
    · exact Nat.lt_of_sub_eq_succ rfl
    · exact Nat.lt_of_sub_eq_succ rfl
  case releasing | advancing | completing | failing | requeueing | deadLettering =>
    obtain rfl := Option.some.inj h
    exact Nat.lt_of_sub_eq_succ rfl
  all_goals cases h

theorem rankOf_afterDatabaseError_lt (settings : Settings) (phase : WorkerPhase)
    (h : 0 < phase.rank settings) :
    rankOf settings (MailWorld.afterDatabaseError phase) < phase.rank settings := by
  rcases phase with _ | sourceHistoryId | ⟨resync, sourceHistoryId⟩ | ⟨resync, _, _, _, _⟩ |
    ⟨resync, newest⟩ | ⟨resync, historyCursor⟩ | ⟨resync, token, processedCount⟩ | resync |
    ⟨resync, errorCode⟩ | start | ⟨_, _, _, _⟩ | ⟨start, final⟩ | historyCursor | args |
    ⟨errorCode, immediately⟩ | errorCode
  case completingResync | checkpointing | requiringManual => exact Nat.lt_succ_self 2
  all_goals exact h

theorem WorkerPhase.rank_pos (settings : Settings) (phase : WorkerPhase) :
    0 < phase.rank settings := by
  rcases phase with _ | sourceHistoryId | ⟨resync, sourceHistoryId⟩ | ⟨resync, _, _, _, _⟩ |
    ⟨resync, newest⟩ | ⟨resync, historyCursor⟩ | ⟨resync, token, processedCount⟩ | resync |
    ⟨resync, errorCode⟩ | start | ⟨_, _, _, _⟩ | ⟨start, final⟩ | historyCursor | args |
    ⟨errorCode, immediately⟩ | errorCode
  all_goals
    rw [rank]
    omega

/-- The loop over the messages takes the next one, or ends. -/
theorem rankOf_takeMessage_lt (h : w.workerStep env worker .takeMessage = some result) :
    rankOf env.settings result.phase < worker.phase.rank env.settings := by
  simp only [MailWorld.workerStep] at h
  split at h
  · rename_i resync sourceHistoryId page messageId pending hphase
    obtain rfl := Option.some.inj h
    rw [hphase, WorkerPhase.rank, ← triageRank_take]
    exact Nat.lt_succ_self _
  · rename_i resync sourceHistoryId page hphase
    obtain rfl := Option.some.inj h
    rw [hphase]
    exact rank_afterInboxPage_lt env.settings resync page
  · rename_i start final messageId pending hphase
    obtain rfl := Option.some.inj h
    rw [hphase, WorkerPhase.rank, ← triageRank_take]
    exact Nat.lt_succ_self _
  · rename_i start final hphase
    obtain rfl := Option.some.inj h
    rw [hphase]
    exact Nat.lt_succ_self 1
  · cases h

theorem rankOf_triage_lt {call : TriageEvent}
    (h : w.workerStep env worker (.triage call) = some result) :
    rankOf env.settings result.phase < worker.phase.rank env.settings := by
  simp only [MailWorld.workerStep] at h
  split at h
  · rename_i hphase
    split at h
    · cases h
    · rename_i hcall
      obtain rfl := Option.some.inj h
      rw [hphase]
      exact Nat.add_lt_add_left (triageRank_call_lt (TriageCall.rank_step_lt hcall)) 5
  · rename_i hphase
    split at h
    · cases h
    · rename_i hcall
      obtain rfl := Option.some.inj h
      rw [hphase]
      exact Nat.add_lt_add_left (triageRank_call_lt (TriageCall.rank_step_lt hcall)) 2
  · cases h

theorem rankOf_triaged_lt (h : w.workerStep env worker .triaged = some result) :
    rankOf env.settings result.phase < worker.phase.rank env.settings := by
  simp only [MailWorld.workerStep] at h
  split at h
  · rename_i resync sourceHistoryId page pending messageId hphase
    obtain rfl := Option.some.inj h
    rw [hphase]
    exact Nat.add_lt_add_left (triageRank_triaged_lt messageId pending) 5
  · rename_i hphase
    obtain rfl := Option.some.inj h
    rw [hphase]
    exact Nat.lt_of_lt_of_le (Nat.lt_of_sub_eq_succ rfl) (Nat.le_add_right 5 _)
  · rename_i hphase
    obtain rfl := Option.some.inj h
    rw [hphase]
    exact Nat.lt_of_lt_of_le (Nat.lt_of_sub_eq_succ rfl) (Nat.le_add_right 5 _)
  · rename_i start final pending messageId hphase
    obtain rfl := Option.some.inj h
    rw [hphase]
    exact Nat.add_lt_add_left (triageRank_triaged_lt messageId pending) 2
  · rename_i hphase
    obtain rfl := Option.some.inj h
    rw [hphase]
    exact Nat.lt_of_lt_of_le (Nat.lt_succ_self 1) (Nat.le_add_right 2 _)
  · obtain rfl := Option.some.inj h
    exact WorkerPhase.rank_pos _ _
  · cases h

theorem rankOf_listInbox_lt {size : ℕ}
    (h : w.workerStep env worker (.listInbox size) = some result) :
    rankOf env.settings result.phase < worker.phase.rank env.settings := by
  simp only [MailWorld.workerStep] at h
  split at h
  · rename_i resync sourceHistoryId hphase
    rw [hphase]
    split at h
    · obtain rfl := Option.some.inj h
      exact Nat.lt_of_lt_of_le (Nat.lt_of_sub_eq_succ rfl) (Nat.le_add_right 6 _)
    split at h
    · rename_i hsize
      obtain rfl := Option.some.inj h
      have hlength := (length_usableMessageIds_le _).trans
        (length_inboxItems_le w.gmail resync.pageToken size)
      change 5 + triageRank _ none < 6 + inboxBound env.settings
      rw [triageRank_none, inboxBound]
      omega
    · cases h
  · cases h

theorem rankOf_listHistory_lt {responses : List (Except HistoryFailure Json)}
    (h : w.workerStep env worker (.listHistory responses) = some result) :
    rankOf env.settings result.phase < worker.phase.rank env.settings := by
  simp only [MailWorld.workerStep] at h
  split at h
  · rename_i start hphase
    rw [hphase]
    split at h
    · cases h
    · obtain rfl := Option.some.inj h
      exact Nat.lt_of_lt_of_le (Nat.lt_of_sub_eq_succ rfl) (Nat.le_add_right 3 _)
    · rename_i work hcollected
      split at h
      · cases h
      split at h
      · obtain rfl := Option.some.inj h
        have hlength := length_readPages_le hcollected (Nat.zero_le _)
        change 2 + triageRank work.messageIds none < 3 + historyBound env.settings
        rw [triageRank_none, historyBound]
        omega
      · cases h
  · cases h

/-- **The step lemma**: whatever a worker does, it has fewer steps left. -/
theorem rankOf_workerStep_lt (h : w.workerStep env worker event = some result) :
    rankOf env.settings result.phase < worker.phase.rank env.settings := by
  rcases event with _ | clock | ⟨committed, clock⟩ | size | failure | _ | call | _ | _ | _ |
    responses | _
  case transact => exact rankOf_transact_lt h
  case listInbox => exact rankOf_listInbox_lt h
  case takeMessage => exact rankOf_takeMessage_lt h
  case triage => exact rankOf_triage_lt h
  case triaged => exact rankOf_triaged_lt h
  case listHistory => exact rankOf_listHistory_lt h
  case readMailbox =>
    simp only [MailWorld.workerStep] at h
    split at h
    · rename_i hphase
      obtain rfl := Option.some.inj h
      rw [hphase]
      exact rank_afterMailboxRead_lt env.settings worker.claim w.jobs.mailbox
    · cases h
  case databaseFails =>
    simp only [MailWorld.workerStep] at h
    split at h
    · cases h
    · obtain rfl := Option.some.inj h
      exact rankOf_afterDatabaseError_lt _ _ (WorkerPhase.rank_pos _ _)
  case resyncFails =>
    simp only [MailWorld.workerStep] at h
    split at h
    · rename_i hphase
      obtain rfl := Option.some.inj h
      rw [hphase]
      exact Nat.lt_of_lt_of_le (Nat.lt_of_sub_eq_succ rfl) (Nat.le_add_right 6 _)
    · rename_i hphase
      obtain rfl := Option.some.inj h
      rw [hphase]
      exact Nat.lt_of_sub_eq_succ rfl
    · cases h
  case readProfile =>
    simp only [MailWorld.workerStep] at h
    split at h
    · rename_i hphase
      split at h
      · obtain rfl := Option.some.inj h
        rw [hphase]
        exact Nat.lt_succ_self 3
      · cases h
    · cases h
  case profileInvalid =>
    simp only [MailWorld.workerStep] at h
    split at h
    · rename_i hphase
      obtain rfl := Option.some.inj h
      rw [hphase]
      exact Nat.lt_of_sub_eq_succ rfl
    · cases h
  case abandon =>
    obtain rfl := Option.some.inj h
    exact WorkerPhase.rank_pos _ _

end

/-! ## Nothing is stuck -/

/-- The steps that are no failure of the database or of the process. -/
def WorkerEvent.regular : WorkerEvent → Bool
  | .databaseFails _ _ | .abandon => false
  | .readMailbox | .transact _ | .listInbox _ | .resyncFails _ | .takeMessage | .triage _
  | .triaged | .readProfile | .profileInvalid | .listHistory _ => true

section

variable {env : MailEnv} {w w' : MailWorld} {worker : Worker} {n : ℕ}

/-- A call is over, or goes on. -/
theorem TriageCall.over_or_exists_step (settings : Settings) (s : TriageStore) (id : MessageId)
    (sourceHistoryId : ℕ) (call : TriageCall) :
    (∃ result, call = .returned result) ∨ call = .raised ∨
      ∃ event next, call.step settings s id sourceHistoryId event = some next := by
  rcases call with _ | started | started | _ | claim | ⟨claim, args, guarded⟩ |
    ⟨claim, errorCode⟩ | result | _
  case claiming =>
    refine Or.inr (Or.inr ⟨.transact 0, ?_⟩)
    simp only [step, transaction]
    split
    · exact ⟨_, rfl⟩
    · exact ⟨_, rfl⟩
  case inserting =>
    refine Or.inr (Or.inr ⟨.transact 0, ?_⟩)
    simp only [step, transaction]
    split
    · exact ⟨_, rfl⟩
    · exact ⟨_, rfl⟩
  case conflicted =>
    refine Or.inr (Or.inr ⟨.transact 0, ?_⟩)
    simp only [step, transaction]
    split
    · exact ⟨_, rfl⟩
    · exact ⟨_, rfl⟩
  case analysing => exact Or.inr (Or.inr ⟨.analysed .filtered, _, rfl⟩)
  case refused | finalizing | releasing => exact Or.inr (Or.inr ⟨.transact 0, _, rfl⟩)
  case returned => exact Or.inl ⟨result, rfl⟩
  case raised => exact Or.inr (Or.inl rfl)

/-- The loop over the messages of the inbox goes on. -/
theorem exists_inboxStep {resync : ClaimedMailboxResync} {sourceHistoryId : ℕ} {page : ListedPage}
    {pending : List MessageId} {current : CurrentTriage}
    (hphase : worker.phase = .triagingInbox resync sourceHistoryId page pending current) :
    ∃ event result, event.regular = true ∧ w.workerStep env worker event = some result := by
  rcases current with _ | ⟨messageId, call⟩
  · refine ⟨.takeMessage, ?_⟩
    simp only [MailWorld.workerStep, hphase]
    rcases pending with _ | ⟨messageId, pending⟩
    · exact ⟨_, rfl, rfl⟩
    · exact ⟨_, rfl, rfl⟩
  rcases call.over_or_exists_step env.settings w.triage messageId sourceHistoryId with
    ⟨_ | _, rfl⟩ | rfl | ⟨event, next, hnext⟩
  case inr.inr =>
    refine ⟨.triage event, ?_⟩
    simp only [MailWorld.workerStep, hphase, hnext]
    exact ⟨_, rfl, rfl⟩
  all_goals
    refine ⟨.triaged, ?_⟩
    simp only [MailWorld.workerStep, hphase]
    exact ⟨_, rfl, rfl⟩

/-- The loop over the messages of the history goes on. -/
theorem exists_historyStep {start final : ℕ} {pending : List MessageId} {current : CurrentTriage}
    (hphase : worker.phase = .triagingHistory start final pending current) :
    ∃ event result, event.regular = true ∧ w.workerStep env worker event = some result := by
  rcases current with _ | ⟨messageId, call⟩
  · refine ⟨.takeMessage, ?_⟩
    simp only [MailWorld.workerStep, hphase]
    rcases pending with _ | ⟨messageId, pending⟩
    · exact ⟨_, rfl, rfl⟩
    · exact ⟨_, rfl, rfl⟩
  rcases call.over_or_exists_step env.settings w.triage messageId final with
    ⟨_ | _, rfl⟩ | rfl | ⟨event, next, hnext⟩
  case inr.inr =>
    refine ⟨.triage event, ?_⟩
    simp only [MailWorld.workerStep, hphase, hnext]
    exact ⟨_, rfl, rfl⟩
  all_goals
    refine ⟨.triaged, ?_⟩
    simp only [MailWorld.workerStep, hphase]
    exact ⟨_, rfl, rfl⟩

/-- **A worker is never stuck.** -/
theorem exists_workerStep (env : MailEnv) (w : MailWorld) (worker : Worker) :
    ∃ event result, event.regular = true ∧ w.workerStep env worker event = some result := by
  rcases hphase : worker.phase with _ | sourceHistoryId | ⟨resync, sourceHistoryId⟩ |
    ⟨resync, sourceHistoryId, page, pending, current⟩ | ⟨resync, newest⟩ |
    ⟨resync, historyCursor⟩ | ⟨resync, token, processedCount⟩ | resync | ⟨resync, errorCode⟩ |
    start | ⟨start, final, pending, current⟩ | ⟨start, final⟩ | historyCursor | args |
    ⟨errorCode, immediately⟩ | errorCode
  case triagingInbox => exact exists_inboxStep hphase
  case triagingHistory => exact exists_historyStep hphase
  case claimed =>
    refine ⟨.readMailbox, ?_⟩
    simp only [MailWorld.workerStep, hphase]
    exact ⟨_, rfl, rfl⟩
  case listingInbox =>
    refine ⟨.resyncFails .providerUnavailable, ?_⟩
    simp only [MailWorld.workerStep, hphase]
    exact ⟨_, rfl, rfl⟩
  case readingProfile =>
    refine ⟨.profileInvalid, ?_⟩
    simp only [MailWorld.workerStep, hphase]
    exact ⟨_, rfl, rfl⟩
  case listingHistory =>
    refine ⟨.listHistory [.error .internal], ?_⟩
    simp only [MailWorld.workerStep, hphase]
    exact ⟨_, rfl, rfl⟩
  all_goals
    refine ⟨.transact fun _ ↦ 0, ?_⟩
    simp only [MailWorld.workerStep, hphase, MailWorld.transact]
  case claimingResync | completingResync =>
    split
    · exact ⟨_, rfl, rfl⟩
    · exact ⟨_, rfl, rfl⟩
  all_goals exact ⟨_, rfl, rfl⟩

end

/-! ## Runs -/

/-- A step of the `n`-th worker. -/
def isStepOf (n : ℕ) (event : MailLabel × Reply) : Bool :=
  match event.1 with
  | .work m _ => m = n
  | _ => false

/-- A claim by the `n`-th worker. -/
def isClaimOf (n : ℕ) (event : MailLabel × Reply) : Bool :=
  match event.1 with
  | .claimJob m _ _ => m = n
  | _ => false

section

variable {env : MailEnv} {w w' : MailWorld} {label : MailLabel} {reply : Reply} {n : ℕ}

theorem rank_eq_of_workers {settings : Settings} (h : w'.workers n = w.workers n) :
    w'.rank settings n = w.rank settings n := by
  rw [MailWorld.rank, MailWorld.rank, h]

theorem MailWorld.rank_eq_zero_iff {settings : Settings} :
    w.rank settings n = 0 ↔ w.workers n = none := by
  rw [rank]
  rcases w.workers n with _ | worker
  · exact ⟨fun _ ↦ rfl, fun _ ↦ rfl⟩
  · have hpos := worker.phase.rank_pos settings
    refine ⟨fun h ↦ ?_, by rintro ⟨⟩⟩
    change worker.phase.rank settings = 0 at h
    omega

/-- A step costs the worker that takes it some of its rank, and only its claims raise that. -/
theorem rank_step (hs : w.step env label = some (w', reply)) :
    w'.rank env.settings n + (if isStepOf n (label, reply) then 1 else 0) ≤
      w.rank env.settings n +
        (if isClaimOf n (label, reply) then stepsPerClaim env.settings else 0) := by
  -- Only the claims and steps of the worker itself bear on its rank.
  rcases label with _ | _ | _ | _ | _ | _ | _ | _ | ⟨m, id, clock⟩ | ⟨m, event⟩
  case claimJob =>
    rw [isStepOf, if_neg Bool.false_ne_true, isClaimOf]
    simp only [MailWorld.step] at hs
    split at hs
    · rename_i jobs claim hfree hclaim
      obtain ⟨rfl, -⟩ := Prod.mk.inj (Option.some.inj hs)
      by_cases hmn : m = n
      · subst hmn
        rw [if_pos (decide_eq_true rfl), MailWorld.rank, MailWorld.setWorker_self, MailWorld.rank,
          hfree]
        rcases claim with _ | claim
        · exact Nat.zero_le _
        · exact Nat.le_add_left _ _
      · rw [if_neg (by simpa using hmn)]
        exact (rank_eq_of_workers (MailWorld.setWorker_of_ne _ (Ne.symm hmn) _)).le
    · cases hs
  case work =>
    rw [isStepOf, isClaimOf, if_neg Bool.false_ne_true]
    simp only [MailWorld.step] at hs
    split at hs
    · cases hs
    rename_i worker hworker
    split at hs
    · cases hs
    rename_i result hresult
    obtain ⟨rfl, -⟩ := Prod.mk.inj (Option.some.inj hs)
    by_cases hmn : m = n
    · subst hmn
      have hlt := rankOf_workerStep_lt hresult
      have hphase : ((w.apply m worker result).workers m).map Worker.phase = result.phase := by
        rw [MailWorld.apply_self, Option.map_map]
        exact congrFun Option.map_id _
      rw [if_pos (decide_eq_true rfl), MailWorld.rank, MailWorld.rank, hphase, hworker]
      exact hlt
    · rw [if_neg (by simpa using hmn)]
      exact (rank_eq_of_workers (MailWorld.apply_of_ne _ (Ne.symm hmn) _ _)).le
  case arrive | touch =>
    obtain ⟨g, -, hpair⟩ := Option.map_eq_some_iff.mp hs
    obtain ⟨rfl, -⟩ := Prod.mk.inj hpair
    exact Nat.le_refl _
  case enqueue =>
    simp only [MailWorld.step] at hs
    split at hs
    · cases hs
    · obtain ⟨rfl, -⟩ := Prod.mk.inj (Option.some.inj hs)
      exact Nat.le_refl _
  all_goals
    obtain ⟨rfl, -⟩ := Prod.mk.inj (Option.some.inj hs)
    exact Nat.le_refl _

theorem sum_map_ite {α : Type*} (p : α → Bool) (k : ℕ) (l : List α) :
    (l.map fun a ↦ if p a then k else 0).sum = l.countP p * k := by
  induction l with
  | nil => exact (Nat.zero_mul k).symm
  | cons a l ih =>
    rw [List.map_cons, List.sum_cons, ih, List.countP_cons]
    split
    · rw [Nat.add_mul, Nat.one_mul, Nat.add_comm]
    · rw [Nat.zero_add, Nat.add_zero]

/-- What the workers do on their jobs is bounded. -/
structure ProcessingEnds (env : MailEnv) : Prop where
  /-- A worker with a job can go on, without a failure of the database or its own death. -/
  progress (w : MailWorld) (n : ℕ) (worker : Worker) : w.workers n = some worker →
    ∃ event w' reply, event.regular = true ∧ w.step env (.work n event) = some (w', reply)
  /-- Over any run, whatever the other workers, the provider and the database do: the steps that a
  worker takes, and those it has left, are at most those it had left and a fixed number for each of
  its claims. -/
  bounded (C : MailWorld → MailLabel → Prop) (s t : MailWorld) (tr : List (MailLabel × Reply))
    (n : ℕ) : System.Run (mailWorkers env) C s tr t →
    t.rank env.settings n + tr.countP (isStepOf n) ≤
      s.rank env.settings n + tr.countP (isClaimOf n) * stepsPerClaim env.settings
  /-- A worker with a job has steps left. -/
  busy (w : MailWorld) (n : ℕ) : w.rank env.settings n = 0 ↔ w.workers n = none
  /-- The number, for all settings. -/
  perClaim : stepsPerClaim env.settings ≤ 8008

end

end Onebox.Notifications
