import Onebox.Notifications.Steps
import Onebox.Transition.Watermark

/-!
# The history cursor

In runs without a recovery, the cursor follows the listings: a worker that has listed the history
from the cursor it read, and has triaged what it found, may raise the cursor to the end of its
listing, however many others do the same meanwhile. What it may not do is raise the cursor to the
history id of its notification when the listing has not got there.
-/

namespace Onebox.Notifications

open Python Transition

/-- A listing has returned the message, and its triage is over. -/
def MailWorld.Handled (w : MailWorld) (messageId : MessageId) : Prop :=
  messageId ∈ w.listed ∧ w.triage.Terminal messageId

/-- No recovery is under way. -/
def Idle (w : MailWorld) : Prop :=
  ∀ state ∈ w.jobs.mailbox, state.resyncState = .idle

instance (w : MailWorld) : Decidable (Idle w) :=
  inferInstanceAs (Decidable (∀ state ∈ w.jobs.mailbox, state.resyncState = .idle))

/-! ## The invariant of a worker -/

/-- What a worker on the normal path has covered. The phases of a recovery do not occur. -/
def HistoryInvariant (w : MailWorld) : WorkerPhase → Prop
  | .listingHistory start => start ≤ w.jobs.cursor
  | .triagingHistory start final pending current =>
    start ≤ w.jobs.cursor ∧ final ≤ max start w.gmail.historyId ∧
      CurrentInvariant w.triage current ∧
      Covered w.gmail.arrivals
        (fun messageId ↦ messageId ∈ w.listed ∧
          (w.triage.Terminal messageId ∨ Outstanding pending current messageId)) start final
  | .advancing start final =>
    start ≤ w.jobs.cursor ∧ final ≤ max start w.gmail.historyId ∧
      Covered w.gmail.arrivals w.Handled start final
  | .completing historyCursor => historyCursor ≤ w.jobs.cursor
  | .listingInbox _ _ | .triagingInbox _ _ _ _ _ | .readingProfile _ _ | .completingResync _ _
  | .checkpointing _ _ _ => False
  | .claimed | .claimingResync _ | .requiringManual _ | .releasing _ _ | .failing _
  | .requeueing _ _ | .deadLettering _ => True

theorem historyInvariant_of_plain {w : MailWorld} {phase : WorkerPhase}
    (h : phase.plain = true) : HistoryInvariant w phase := by
  cases phase with
  | claimed | claimingResync | requiringManual | releasing | failing | requeueing
  | deadLettering => trivial
  | _ => cases h

section

variable {env : MailEnv} {w w' : MailWorld} {e : MailLabel} {worker : Worker}
  {label : WorkerEvent} {result : StepResult} {phase : WorkerPhase}

/-- What is covered stays covered: new messages come past the end of every listing. -/
theorem covered_of_grows {done done' : MessageId → Prop} {start final : ℕ}
    (hgrows : w.gmail.Grows w'.gmail) (hfinal : final ≤ max start w.gmail.historyId)
    (hdone : ∀ messageId, done messageId → done' messageId)
    (h : Covered w.gmail.arrivals done start final) :
    Covered w'.gmail.arrivals done' start final := by
  refine (h.mono hdone).extend fun entry hmem ↦ (hgrows.mem_arrivals hmem).imp_right ?_
  exact fun hnew hstart ↦ lt_of_le_of_lt hfinal (max_lt hstart hnew)

theorem final_le_of_grows {start final : ℕ} (hgrows : w.gmail.Grows w'.gmail)
    (hfinal : final ≤ max start w.gmail.historyId) : final ≤ max start w'.gmail.historyId :=
  le_trans hfinal (max_le_max le_rfl hgrows.historyId)

theorem handled_of_grows (hgrows : w.Grows w') {messageId : MessageId}
    (h : w.Handled messageId) : w'.Handled messageId :=
  ⟨hgrows.listed h.1, hgrows.triage.terminal h.2⟩

/-- The invariant of one worker is stable under the steps of the others. -/
theorem historyInvariant_of_grows (hgrows : w.Grows w') (hcursor : w.jobs.cursor ≤ w'.jobs.cursor)
    (h : HistoryInvariant w phase) : HistoryInvariant w' phase := by
  cases phase with
  | listingHistory start => exact le_trans h hcursor
  | triagingHistory start final pending current =>
    obtain ⟨hstart, hfinal, hcurrent, hcovered⟩ := h
    refine ⟨le_trans hstart hcursor, final_le_of_grows hgrows.gmail hfinal,
      currentInvariant_of_keeps hgrows.triage hcurrent,
      covered_of_grows hgrows.gmail hfinal ?_ hcovered⟩
    rintro messageId ⟨hlisted, hdone⟩
    exact ⟨hgrows.listed hlisted, hdone.imp_left hgrows.triage.terminal⟩
  | advancing start final =>
    obtain ⟨hstart, hfinal, hcovered⟩ := h
    exact ⟨le_trans hstart hcursor, final_le_of_grows hgrows.gmail hfinal,
      covered_of_grows hgrows.gmail hfinal (fun _ ↦ handled_of_grows hgrows) hcovered⟩
  | completing historyCursor => exact le_trans h hcursor
  | _ => exact h

/-- What the pages of an answer mention. -/
theorem Gmail.showsHistory_spec {g : Gmail} {unicode : UnicodeData} {start : ℕ}
    {pages : List Json} (h : g.showsHistory unicode start pages = true) :
    ∃ last, last ≤ g.historyId ∧
      (∀ entry ∈ g.arrivals, start < entry.1 → entry.1 ≤ last →
        ∃ response ∈ pages, entry.2 ∈ mentionedMessages response) ∧
      ∀ response ∈ pages, ∀ shown ∈ shownIds unicode response, shown ≤ last := by
  rw [showsHistory] at h
  split at h
  · cases h
  · rename_i last hlast
    simp only [Bool.and_eq_true, decide_eq_true_eq, List.all_eq_true] at h
    obtain ⟨⟨⟨hle, hmentioned⟩, -⟩, hshown⟩ := h
    refine ⟨last, hle, fun entry hmem hstart hend ↦ ?_, fun response hresponse shown hmem ↦ ?_⟩
    · have hentry := hmentioned entry hmem
      simpa [hstart, hend] using hentry
    · exact hshown shown (List.mem_flatMap.mpr ⟨response, hresponse, hmem⟩)

/-- A listing covers the history up to its final cursor with the messages it returns. -/
theorem covered_of_listing {start : ℕ} {pages : List Json} {work : HistoryWork}
    (hpaged : Paged pages)
    (hcollected : historyMessageIds env.unicode env.settings (pages.map .ok) start
      = some (.ok work))
    (hshows : w.gmail.showsHistory env.unicode start pages = true) :
    work.latestCursor ≤ max start w.gmail.historyId ∧
      Covered w.gmail.arrivals (· ∈ work.messageIds) start work.latestCursor := by
  -- Nothing that the pages show lies past the history id of the last one.
  obtain ⟨last, hlast, hmentioned, hshown⟩ := Gmail.showsHistory_spec hshows
  have hbound : ∀ response ∈ pages, ∀ shown ∈ shownIds env.unicode response,
      shown ≤ max start last := fun response hresponse shown hmem ↦
    le_trans (hshown response hresponse shown hmem) (le_max_right _ _)
  obtain ⟨hlatest, hall⟩ := historyMessageIds_spec hpaged hcollected hbound (le_max_left _ _)
  refine ⟨le_trans hlatest (max_le_max le_rfl hlast), fun entry hmem hstart hend ↦ ?_⟩
  have hle : entry.1 ≤ last := by
    rcases le_max_iff.mp (le_trans hend hlatest) with h | h
    · exact absurd hstart (not_lt.mpr h)
    · exact h
  obtain ⟨response, hresponse, hmention⟩ := hmentioned entry hmem hstart hle
  exact hall response hresponse entry.2 hmention

/-- A recovery claim needs a mailbox that is not idle. -/
theorem not_required_of_idle (hidle : Idle w)
    (h : ∃ state, w.jobs.mailbox = some state ∧ state.resyncState = .required) : False := by
  obtain ⟨state, hmailbox, hstate⟩ := h
  rw [hidle state hmailbox] at hstate
  cases hstate

/-- The cursor does not fall. -/
theorem WorkerEffect.cursor_le (hI : HistoryInvariant w worker.phase)
    (h : WorkerEffect env w worker label result) : w.jobs.cursor ≤ result.jobs.cursor := by
  cases h with
  | plain steady => exact steady.cursor
  | resyncClaimed steady => exact steady.cursor
  | checkpointed phase =>
    rw [phase] at hI
    exact hI.elim
  | recovered phase =>
    rw [phase] at hI
    exact hI.elim
  | _ => exact le_rfl

/-- **The step lemma of a worker.** -/
theorem HistoryInvariant.step {n : ℕ} (hidle : Idle w) (hI : HistoryInvariant w worker.phase)
    (hC : TriageUnsuperseded w (.work n label)) (hn : w.workers n = some worker)
    (h : WorkerEffect env w worker label result) (hphase : result.phase = some phase) :
    HistoryInvariant (w.apply n worker result) phase := by
  have hgrows : w.Grows (w.apply n worker result) := (MailEffect.work n label hn h).grows
  have hcursor : w.jobs.cursor ≤ (w.apply n worker result).jobs.cursor := h.cursor_le hI
  cases h with
  | plain steady triage listed next => exact historyInvariant_of_plain (next phase hphase)
  | upToDate at_cursor =>
    obtain rfl := Option.some.inj hphase
    exact at_cursor.ge
  | historyNext at_cursor =>
    obtain rfl := Option.some.inj hphase
    exact at_cursor.ge
  | historyListed old paged collected shows =>
    obtain rfl := Option.some.inj hphase
    rw [old] at hI
    -- Everything that arrived up to the final cursor is listed, and outstanding from now on.
    obtain ⟨hfinal, hcovered⟩ := covered_of_listing paged collected shows
    refine ⟨hI, hfinal, nofun, hcovered.mono fun messageId hmem ↦ ?_⟩
    exact ⟨List.mem_append_right _ hmem, Or.inr (Or.inl hmem)⟩
  | historyTaken old =>
    obtain rfl := Option.some.inj hphase
    rw [old] at hI
    obtain ⟨hstart, hfinal, -, hcovered⟩ := hI
    refine ⟨hstart, hfinal, currentInvariant_claiming, hcovered.mono ?_⟩
    rintro messageId ⟨hlisted, hdone⟩
    exact ⟨hgrows.listed hlisted, hdone.imp_right Outstanding.taken⟩
  | @historyTriage start final pending message call call' event triage labelled old called =>
    obtain rfl := Option.some.inj hphase
    have hunsuperseded : ∀ now, event = .transact now → call.Unsuperseded w.triage := by
      rintro now rfl
      exact hC n now worker message call (by rw [labelled]) hn (by rw [old]; rfl)
    rw [old] at hI
    obtain ⟨hstart, hfinal, hcurrent, hcovered⟩ := hI
    refine ⟨hstart, hfinal, hcurrent.called hunsuperseded called, hcovered.mono ?_⟩
    rintro messageId ⟨hlisted, hdone⟩
    exact ⟨hgrows.listed hlisted, hdone.imp hgrows.triage.terminal Outstanding.called⟩
  | historyTriaged old =>
    obtain rfl := Option.some.inj hphase
    rw [old] at hI
    obtain ⟨hstart, hfinal, hcurrent, hcovered⟩ := hI
    refine ⟨hstart, hfinal, nofun, hcovered.mono ?_⟩
    rintro messageId ⟨hlisted, hdone⟩
    exact ⟨hgrows.listed hlisted, hdone.elim Or.inl (·.triaged hcurrent)⟩
  | historyEnded old =>
    obtain rfl := Option.some.inj hphase
    rw [old] at hI
    obtain ⟨hstart, hfinal, -, hcovered⟩ := hI
    refine ⟨hstart, hfinal, hcovered.mono ?_⟩
    rintro messageId ⟨hlisted, hdone⟩
    -- Nothing is outstanding any more, so what was listed is terminal.
    exact ⟨hgrows.listed hlisted, hdone.resolve_right not_outstanding_nil⟩
  | resyncClaimed steady token required => exact (not_required_of_idle hidle required).elim
  -- The other phases belong to a recovery, which this invariant excludes.
  | inboxListed old => rw [old] at hI; exact hI.elim
  | inboxTaken old => rw [old] at hI; exact hI.elim
  | inboxTriage labelled old => rw [old] at hI; exact hI.elim
  | inboxTriaged old => rw [old] at hI; exact hI.elim
  | inboxCheckpoints old => rw [old] at hI; exact hI.elim
  | inboxEnded old => rw [old] at hI; exact hI.elim
  | profileRead old => rw [old] at hI; exact hI.elim
  | checkpointed old => rw [old] at hI; exact hI.elim
  | recovered old => rw [old] at hI; exact hI.elim

/-! ## The invariant of a run -/

def WorkersInvariant (w : MailWorld) : Prop :=
  ∀ n worker, w.workers n = some worker → HistoryInvariant w worker.phase

theorem WorkersInvariant.cursor_le (hI : WorkersInvariant w) (h : MailEffect env w e w') :
    w.jobs.cursor ≤ w'.jobs.cursor := by
  cases h with
  | gmail => exact le_rfl
  | jobs e steady => exact steady.cursor
  | claimed n id clock steady => exact steady.cursor
  | work n label current effect => exact effect.cursor_le (hI n _ current)

/-- The step lemma. -/
theorem WorkersInvariant.step (hidle : Idle w) (hI : WorkersInvariant w)
    (hC : TriageUnsuperseded w e) (h : MailEffect env w e w') : WorkersInvariant w' := by
  intro m other hm
  rcases h.worker_cases hm with
    hold | hclaimed | ⟨label, old, result, rfl, hold, heffect, rfl, hphase⟩
  · exact historyInvariant_of_grows h.grows (hI.cursor_le h) (hI m other hold)
  · rw [hclaimed]
    trivial
  · exact (hI m old hold).step hidle hC hold heffect hphase

end

/-! ## The cursor never outruns the listings -/

/-- Where the worker is about to raise the cursor to the history id of its notification, no message
was added past both its listing and the cursor, up to that history id. -/
def ListedUpToNotification (w : MailWorld) (e : MailLabel) : Prop :=
  ∀ n clock worker start final, e = .work n (.transact clock) → w.workers n = some worker →
    worker.phase = .advancing start final → ∀ entry ∈ w.gmail.arrivals,
      max final w.jobs.cursor < entry.1 → worker.claim.historyId < entry.1

/-- In every run without a recovery whose steps meet `C`: whenever a job is completed and the
cursor moves, every message added in between has been listed and triaged. -/
def CursorFollowsListings (env : MailEnv) (C : MailWorld → MailLabel → Prop) : Prop :=
  ∀ s t u tr e before after, (mailWorkers env).init s →
    System.Run (mailWorkers env) (fun w e ↦ Idle w ∧ C w e) s tr t → Idle t → C t e →
    (mailWorkers env).step t e = some (u, .advanced before after) →
    before = t.jobs.cursor ∧ after = u.jobs.cursor ∧
      Covered t.gmail.arrivals t.Handled before after

section

variable {env : MailEnv} {w w' : MailWorld} {e : MailLabel}

theorem completeJobAndAdvanceCursor_cursor {settings : Settings} {s : JobStore}
    {clock : ℕ → Time} {claim : ClaimedNotificationJob} {historyCursor : ℕ}
    (h : (completeJobAndAdvanceCursor settings s clock claim historyCursor).2 = true) :
    (completeJobAndAdvanceCursor settings s clock claim historyCursor).1.cursor
      = max s.cursor historyCursor := by
  rw [completeJobAndAdvanceCursor] at h ⊢
  split at h
  · cases h
  · split at h
    · cases h
    · rename_i state hmailbox
      split at h
      · cases h
      · rename_i hcurrent
        rw [if_neg hcurrent, JobStore.cursor_of_mailbox hmailbox]
        rfl

/-- A worker reports an advance from `complete_job_and_advance_cursor` only. -/
theorem transact_advanced {worker : Worker} {clock : ℕ → Time} {result : StepResult}
    {before after : ℕ}
    (h : w.transact env.settings worker.claim clock worker.phase = some result)
    (hreply : result.reply = .advanced before after) :
    ∃ historyCursor, ((∃ start final, worker.phase = .advancing start final ∧
          historyCursor = max final worker.claim.historyId) ∨
        worker.phase = .completing historyCursor) ∧
      result = w.advance env.settings clock worker.claim historyCursor := by
  cases hphase : worker.phase with
  | advancing start final =>
    rw [hphase] at h
    exact ⟨_, Or.inl ⟨start, final, rfl, rfl⟩, (Option.some.inj h).symm⟩
  | completing historyCursor =>
    rw [hphase] at h
    exact ⟨_, Or.inr rfl, (Option.some.inj h).symm⟩
  | claimingResync | completingResync =>
    rw [hphase] at h
    simp only [MailWorld.transact] at h
    split at h
    all_goals
      obtain rfl := Option.some.inj h
      cases hreply
  | checkpointing | requiringManual | releasing | failing | requeueing | deadLettering =>
    rw [hphase] at h
    obtain rfl := Option.some.inj h
    cases hreply
  | claimed | listingInbox | triagingInbox | readingProfile | listingHistory | triagingHistory =>
    rw [hphase] at h
    cases h

/-- The steps on which a job is completed. -/
theorem advanced_of_step {before after : ℕ}
    (hs : w.step env e = some (w', .advanced before after)) :
    ∃ n clock worker historyCursor, e = .work n (.transact clock) ∧ w.workers n = some worker ∧
      ((∃ start final, worker.phase = .advancing start final ∧
          historyCursor = max final worker.claim.historyId) ∨
        worker.phase = .completing historyCursor) ∧
      before = w.jobs.cursor ∧ after = w'.jobs.cursor ∧
      after = max w.jobs.cursor historyCursor := by
  rcases reply_of_step hs with hnone | ⟨n, clock, worker, result, rfl, hn, htransact, rfl, hreply⟩
  · cases hnone
  · obtain ⟨historyCursor, hphase, rfl⟩ := transact_advanced htransact hreply.symm
    refine ⟨n, clock, worker, historyCursor, rfl, hn, hphase, ?_⟩
    rw [MailWorld.advance] at hreply
    split at hreply
    · rename_i hcompleted
      obtain ⟨rfl, rfl⟩ := Reply.advanced.inj hreply
      exact ⟨rfl, rfl, completeJobAndAdvanceCursor_cursor hcompleted⟩
    · cases hreply

/-- **A cursor that waits for its listing never outruns it.** -/
theorem cursorFollowsListings_of_listed (env : MailEnv) :
    CursorFollowsListings env fun w e ↦ ListedUpToNotification w e ∧ TriageUnsuperseded w e := by
  intro s t u tr e before after hinit hrun hidle hC hs
  have hI : WorkersInvariant t := by
    refine hrun.invariant (I := WorkersInvariant) (fun n worker hn ↦ ?_) ?_
    · rw [hinit.2.2.2.2.1 n] at hn
      cases hn
    · rintro w e w' o hI ⟨hidle, -, hC⟩ hs
      exact hI.step hidle hC (mailEffect_of_step hs)
  obtain ⟨n, clock, worker, historyCursor, rfl, hn, hphase, rfl, rfl, hafter⟩ := advanced_of_step hs
  refine ⟨rfl, rfl, ?_⟩
  rw [hafter]
  have hworker := hI n worker hn
  rcases hphase with ⟨start, final, hphase, rfl⟩ | hphase
  · rw [hphase] at hworker
    obtain ⟨hstart, -, hcovered⟩ := hworker
    intro entry hmem hcursor hend
    rcases Nat.lt_or_ge final entry.1 with hfinal | hfinal
    · -- Beyond the listing nothing was added.
      have hlt := hC.1 n clock worker start final rfl hn hphase entry hmem (max_lt hfinal hcursor)
      rcases le_max_iff.mp hend with h | h
      · exact absurd hcursor (not_lt.mpr h)
      · rcases le_max_iff.mp h with h | h
        · exact absurd hfinal (not_lt.mpr h)
        · exact absurd hlt (not_lt.mpr h)
    · exact hcovered entry hmem (lt_of_le_of_lt hstart hcursor) hfinal
  · rw [hphase] at hworker
    exact Covered.of_le (by rw [max_eq_left hworker])

end

/-! ### A notification ahead of the listing -/

/-- A page of history that ends with the first of two messages. -/
def shortPage : Json :=
  .obj [("history", .arr [.obj [("id", .str "11"),
      ("messagesAdded", .arr [.obj [("message", .obj [("id", .str "a")])]])]]),
    ("historyId", .str "11")]

/-- The notification is about the second message; the listing that it causes answers as of the
first one. -/
def aheadSchedule : List MailLabel :=
  [.claimWatch 0, .completeWatch 0 10 (seconds 604800), .arrive 11 "a", .arrive 12 "b",
    .enqueue 0 "p" 12 0, .claimJob 0 0 fun _ ↦ 0, .work 0 .readMailbox,
    .work 0 (.listHistory [.ok shortPage]), .work 0 .takeMessage,
    .work 0 (.triage (.transact 0)), .work 0 (.triage (.transact 0)),
    .work 0 (.triage (.analysed .filtered)), .work 0 (.triage (.transact 0)), .work 0 .triaged,
    .work 0 .takeMessage]

/-- **The jump to the notification**: the cursor passes a message that no listing returned. -/
theorem not_cursorFollowsListings : ¬CursorFollowsListings defaultEnv System.anyStep := by
  intro h
  have hreplay : (mailWorkers defaultEnv).replay freshMail aheadSchedule = some (_, _) := rfl
  have hidle : (mailWorkers defaultEnv).meets (fun w _ ↦ decide (Idle w)) freshMail aheadSchedule
      = true := rfl
  have hrun := System.run_of_replay_of_meets (C := fun w e ↦ Idle w ∧ System.anyStep w e)
    (fun w e hw ↦ ⟨of_decide_eq_true hw, trivial⟩) hreplay hidle
  -- The job is completed now: the cursor goes from 10 to 12.
  have hcovered := h _ _ _ _ (.work 0 (.transact fun _ ↦ 0)) 10 12 init_freshMail hrun
    (of_decide_eq_true rfl) trivial rfl
  obtain ⟨hlisted, -⟩ := hcovered.2.2 (12, "b") (by decide) (by decide) le_rfl
  exact absurd hlisted (by decide)

end Onebox.Notifications
