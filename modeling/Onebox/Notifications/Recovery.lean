import Onebox.Notifications.Steps
import Onebox.Transition.Watermark

/-!
# Mailbox recovery

A recovery lists the inbox newest first, page by page, each page fenced by a lease of its own. What
is covered grows downward from the history id at which the listing began; when the last page is
done, everything up to that history id is. The cursor is then taken from the profile, which may
have moved on since.
-/

namespace Onebox.Notifications

open Python Transition

/-- The place down to which a listing has got. -/
def resumeFrom (next : Option PageToken) : ℕ := (next.map PageToken.resumeAt).getD 0

section

variable {env : MailEnv} {w w' : MailWorld} {e : MailLabel} {worker : Worker}
  {label : WorkerEvent} {result : StepResult} {phase : WorkerPhase}

/-! ## Pages of the inbox -/

/-- A prefix of a descending list is cut off at its next element. -/
theorem mem_take_or_le_head_drop {β : Type*} {l : List (ℕ × β)}
    (hsorted : l.Pairwise (·.1 > ·.1)) (n : ℕ) {entry : ℕ × β} (hmem : entry ∈ l) :
    entry ∈ l.take n ∨ ∃ first, (l.drop n).head? = some first ∧ entry.1 ≤ first.1 := by
  rw [← List.take_append_drop n l] at hsorted hmem
  have hdrop := (List.pairwise_append.mp hsorted).2.1
  rcases List.mem_append.mp hmem with hmem | hmem
  · exact Or.inl hmem
  · right
    cases hrest : l.drop n with
    | nil =>
      rw [hrest] at hmem
      cases hmem
    | cons first rest =>
      rw [hrest] at hmem hdrop
      refine ⟨first, rfl, ?_⟩
      rcases List.mem_cons.mp hmem with rfl | hmem
      · exact le_rfl
      · exact le_of_lt ((List.pairwise_cons.mp hdrop).1 entry hmem)

namespace Gmail

variable {g : Gmail}

theorem mem_arrivals_of_mem_inbox {entry : ℕ × MessageId} (h : entry ∈ g.inbox) :
    entry ∈ g.arrivals :=
  List.mem_of_mem_filter h

theorem inbox_reverse_sorted (h : g.WellFormed) : g.inbox.reverse.Pairwise (·.1 > ·.1) :=
  List.pairwise_reverse.mpr (h.sorted.filter _)

/-- The messages of a page all have usable ids. -/
theorem mem_usableMessageIds {page : InboxPage} {entry : ℕ × MessageId}
    (hmem : entry ∈ page.messages) (hid : entry.2 ≠ "") :
    entry.2 ∈ usableMessageIds (inboxItems page) := by
  rw [usableMessageIds, List.mem_eraseDups, List.mem_filterMap]
  refine ⟨.obj [("id", .str entry.2)], List.mem_map.mpr ⟨entry, hmem, rfl⟩, ?_⟩
  simp [Json.get?, hid]

theorem listInbox_newest (g : Gmail) (pageToken : Option PageToken) (size : ℕ) :
    (g.listInbox pageToken size).newest = (pageToken.map PageToken.newest).getD g.historyId := rfl

/-- A page goes on in the listing that it belongs to. -/
theorem listInbox_next {pageToken : Option PageToken} {size : ℕ} {token : PageToken}
    (h : (g.listInbox pageToken size).nextPageToken = some token) :
    token.newest = (g.listInbox pageToken size).newest := by
  obtain ⟨entry, -, rfl⟩ := Option.map_eq_some_iff.mp h
  rfl

/-- What lies above the place where a page stops is on the page. -/
theorem mem_take_of_resumeFrom_lt {rest : List (ℕ × MessageId)}
    (hsorted : rest.Pairwise (·.1 > ·.1)) {size newest : ℕ} {entry : ℕ × MessageId}
    (hmem : entry ∈ rest)
    (hlt : resumeFrom ((rest.drop size).head?.map fun first ↦ ⟨newest, first.1⟩) < entry.1) :
    entry ∈ rest.take size := by
  rcases mem_take_or_le_head_drop hsorted size hmem with htake | ⟨first, hfirst, hle⟩
  · exact htake
  · rw [hfirst] at hlt
    exact absurd hle (not_le.mpr hlt)

/-- A page takes the inbox from where its token resumes down to where the next one does. -/
theorem covered_listInbox {done : MessageId → Prop} (hwf : g.WellFormed)
    (pageToken : Option PageToken) (size : ℕ)
    (htoken : ∀ token, pageToken = some token →
      Covered g.inbox done token.resumeAt token.newest) :
    Covered g.inbox
      (fun messageId ↦ done messageId ∨
        messageId ∈ usableMessageIds (inboxItems (g.listInbox pageToken size)))
      (resumeFrom (g.listInbox pageToken size).nextPageToken)
      (g.listInbox pageToken size).newest := by
  intro entry hmem hlo hhi
  have hid := hwf.ids entry (mem_arrivals_of_mem_inbox hmem)
  have hsorted := inbox_reverse_sorted hwf
  have hrest := List.mem_reverse.mpr hmem
  cases pageToken with
  | none => exact Or.inr (mem_usableMessageIds (mem_take_of_resumeFrom_lt hsorted hrest hlo) hid)
  | some token =>
    rcases Nat.lt_or_ge token.resumeAt entry.1 with hlt | hle
    · exact Or.inl (htoken token rfl entry hmem hlt hhi)
    · have hlisted : entry ∈ g.inbox.reverse.filter fun entry ↦ entry.1 ≤ token.resumeAt :=
        List.mem_filter.mpr ⟨hrest, decide_eq_true hle⟩
      exact Or.inr
        (mem_usableMessageIds (mem_take_of_resumeFrom_lt (hsorted.filter _) hlisted hlo) hid)

end Gmail

/-! ## The invariant -/

/-- What a place in a listing stands for: everything between it and the beginning of the listing
has been triaged. -/
def TokenInvariant (w : MailWorld) (next : Option PageToken) : Prop :=
  ∀ token, next = some token → token.newest ≤ w.gmail.historyId ∧
    Covered w.gmail.inbox w.triage.Terminal token.resumeAt token.newest

/-- The inbox has been triaged up to `newest`. -/
def SweptTo (w : MailWorld) (newest : ℕ) : Prop :=
  newest ≤ w.gmail.historyId ∧ Covered w.gmail.inbox w.triage.Terminal 0 newest

/-- What a worker in a recovery has covered. -/
def RecoveryInvariant (w : MailWorld) : WorkerPhase → Prop
  | .listingInbox resync _ => TokenInvariant w resync.pageToken
  | .triagingInbox _ _ page pending current =>
    page.newest ≤ w.gmail.historyId ∧
      (∀ token, page.nextPageToken = some token → token.newest = page.newest) ∧
      CurrentInvariant w.triage current ∧
      Covered w.gmail.inbox
        (fun messageId ↦ w.triage.Terminal messageId ∨ Outstanding pending current messageId)
        (resumeFrom page.nextPageToken) page.newest
  | .checkpointing _ nextPageToken _ => TokenInvariant w (some nextPageToken)
  | .readingProfile _ newest => SweptTo w newest
  | .completingResync _ historyCursor => SweptTo w historyCursor
  | .claimed | .claimingResync _ | .requiringManual _ | .releasing _ _ | .listingHistory _
  | .triagingHistory _ _ _ _ | .advancing _ _ | .completing _ | .failing _ | .requeueing _ _
  | .deadLettering _ => True

theorem recoveryInvariant_of_plain (h : phase.plain = true) : RecoveryInvariant w phase := by
  cases phase with
  | claimed | claimingResync | requiringManual | releasing | failing | requeueing
  | deadLettering => trivial
  | _ => cases h

/-- What is covered of the inbox stays covered: it only loses messages, and gains others past the
end of every listing. -/
theorem covered_inbox_of_grows {done done' : MessageId → Prop} {lo newest : ℕ}
    (hgrows : w.gmail.Grows w'.gmail) (hnewest : newest ≤ w.gmail.historyId)
    (hdone : ∀ messageId, done messageId → done' messageId)
    (h : Covered w.gmail.inbox done lo newest) : Covered w'.gmail.inbox done' lo newest := by
  refine (h.mono hdone).extend fun entry hmem ↦ (hgrows.inbox entry hmem).imp_right ?_
  exact fun hnew _ ↦ lt_of_le_of_lt hnewest hnew

theorem TokenInvariant.grows {next : Option PageToken} (hgrows : w.Grows w')
    (h : TokenInvariant w next) : TokenInvariant w' next := by
  intro token hnext
  obtain ⟨hnewest, hcovered⟩ := h token hnext
  exact ⟨le_trans hnewest hgrows.gmail.historyId,
    covered_inbox_of_grows hgrows.gmail hnewest (fun _ ↦ hgrows.triage.terminal) hcovered⟩

theorem SweptTo.grows {newest : ℕ} (hgrows : w.Grows w') (h : SweptTo w newest) :
    SweptTo w' newest :=
  ⟨le_trans h.1 hgrows.gmail.historyId,
    covered_inbox_of_grows hgrows.gmail h.1 (fun _ ↦ hgrows.triage.terminal) h.2⟩

/-- The invariant of one worker is stable under the steps of the others. -/
theorem recoveryInvariant_of_grows (hgrows : w.Grows w') (h : RecoveryInvariant w phase) :
    RecoveryInvariant w' phase := by
  cases phase with
  | listingInbox resync sourceHistoryId => exact TokenInvariant.grows hgrows h
  | checkpointing resync token processedCount => exact TokenInvariant.grows hgrows h
  | readingProfile resync newest => exact SweptTo.grows hgrows h
  | completingResync resync historyCursor => exact SweptTo.grows hgrows h
  | triagingInbox resync sourceHistoryId page pending current =>
    obtain ⟨hnewest, hnext, hcurrent, hcovered⟩ := h
    refine ⟨le_trans hnewest hgrows.gmail.historyId, hnext,
      currentInvariant_of_keeps hgrows.triage hcurrent, ?_⟩
    exact covered_inbox_of_grows hgrows.gmail hnewest
      (fun _ hdone ↦ hdone.imp_left hgrows.triage.terminal) hcovered
  | _ => trivial

/-- A recovery that has triaged the messages of its last page and is about to read the profile finds
that nothing has been added since it began, unless it is triaged already. -/
def ProfileAtListing (w : MailWorld) (e : MailLabel) : Prop :=
  ∀ n worker resync newest, e = .work n .readProfile → w.workers n = some worker →
    worker.phase = .readingProfile resync newest → ∀ entry ∈ w.gmail.inbox,
      newest < entry.1 → w.triage.Terminal entry.2

/-- **The step lemma of a worker.** -/
theorem RecoveryInvariant.step {n : ℕ} (hwf : w.gmail.WellFormed)
    (htoken : TokenInvariant w w.jobs.pageToken) (hI : RecoveryInvariant w worker.phase)
    (hC : ProfileAtListing w (.work n label)) (hT : TriageUnsuperseded w (.work n label))
    (hn : w.workers n = some worker) (h : WorkerEffect env w worker label result)
    (hphase : result.phase = some phase) : RecoveryInvariant (w.apply n worker result) phase := by
  have hgrows : w.Grows (w.apply n worker result) := (MailEffect.work n label hn h).grows
  cases h with
  | plain steady triage listed next => exact recoveryInvariant_of_plain (next phase hphase)
  | upToDate | historyNext | historyListed | historyTaken | historyTriage | historyTriaged
  | historyEnded =>
    obtain rfl := Option.some.inj hphase
    trivial
  | resyncClaimed steady token =>
    obtain rfl := Option.some.inj hphase
    refine TokenInvariant.grows hgrows ?_
    rw [token]
    exact htoken
  | @inboxListed resync sourceHistoryId size old =>
    obtain rfl := Option.some.inj hphase
    rw [old] at hI
    -- A first page begins at the current history id, a later one where its listing began.
    refine ⟨?_, fun token ↦ Gmail.listInbox_next, nofun, ?_⟩
    · rw [Gmail.listInbox_newest]
      cases hnext : resync.pageToken with
      | none => exact le_rfl
      | some token => exact (hI token hnext).1
    · refine (Gmail.covered_listInbox hwf resync.pageToken size fun token hnext ↦
        (hI token hnext).2).mono fun messageId hdone ↦ ?_
      exact hdone.imp_right Or.inl
  | inboxTaken old =>
    obtain rfl := Option.some.inj hphase
    rw [old] at hI
    obtain ⟨hnewest, hnext, -, hcovered⟩ := hI
    refine ⟨hnewest, hnext, currentInvariant_claiming, hcovered.mono fun messageId hdone ↦ ?_⟩
    exact hdone.imp_right Outstanding.taken
  | @inboxTriage resync sourceHistoryId page pending message call call' event triage labelled old
      called =>
    obtain rfl := Option.some.inj hphase
    have hunsuperseded : ∀ now, event = .transact now → call.Unsuperseded w.triage := by
      rintro now rfl
      exact hT n now worker message call (by rw [labelled]) hn (by rw [old]; rfl)
    rw [old] at hI
    obtain ⟨hnewest, hnext, hcurrent, hcovered⟩ := hI
    refine ⟨hnewest, hnext, hcurrent.called hunsuperseded called,
      hcovered.mono fun messageId hdone ↦ ?_⟩
    exact hdone.imp hgrows.triage.terminal Outstanding.called
  | inboxTriaged old =>
    obtain rfl := Option.some.inj hphase
    rw [old] at hI
    obtain ⟨hnewest, hnext, hcurrent, hcovered⟩ := hI
    refine ⟨hnewest, hnext, nofun, hcovered.mono fun messageId hdone ↦ ?_⟩
    exact hdone.elim Or.inl (·.triaged hcurrent)
  | inboxCheckpoints old next =>
    obtain rfl := Option.some.inj hphase
    rw [old] at hI
    obtain ⟨hnewest, hnext, -, hcovered⟩ := hI
    rintro token ⟨⟩
    rw [next] at hcovered
    rw [hnext _ next]
    refine ⟨hnewest, hcovered.mono fun messageId hdone ↦ ?_⟩
    exact hdone.resolve_right not_outstanding_nil
  | inboxEnded old next =>
    obtain rfl := Option.some.inj hphase
    rw [old] at hI
    obtain ⟨hnewest, -, -, hcovered⟩ := hI
    rw [next] at hcovered
    refine ⟨hnewest, hcovered.mono fun messageId hdone ↦ ?_⟩
    exact hdone.resolve_right not_outstanding_nil
  | @profileRead resync newest old labelled =>
    obtain rfl := Option.some.inj hphase
    rw [old] at hI
    -- Above the listing, the condition says that everything is triaged.
    refine ⟨le_rfl, hI.2.join fun entry hmem hnewest _ ↦ ?_⟩
    exact hC n worker resync newest (by rw [labelled]) hn old entry hmem hnewest
  | checkpointed old plain => exact recoveryInvariant_of_plain (plain phase hphase)
  | recovered old succeeds =>
    rcases succeeds with ⟨rfl, -⟩ | plain
    · obtain rfl := Option.some.inj hphase
      trivial
    · exact recoveryInvariant_of_plain (plain phase hphase)

/-- The mailbox of Gmail, the place stored in the mailbox row, and the workers. -/
structure RecoveriesInvariant (w : MailWorld) : Prop where
  gmail : w.gmail.WellFormed
  pageToken : TokenInvariant w w.jobs.pageToken
  workers : ∀ n worker, w.workers n = some worker → RecoveryInvariant w worker.phase

theorem TokenInvariant.of_steady {jobs : JobStore} (h : TokenInvariant w w.jobs.pageToken)
    (hsteady : w.jobs.Steady jobs) : TokenInvariant w jobs.pageToken :=
  fun token ht ↦ h token (hsteady.pageToken token ht)

/-- The stored place after a worker's step. -/
theorem WorkerEffect.pageToken (htoken : TokenInvariant w w.jobs.pageToken)
    (hI : RecoveryInvariant w worker.phase) (h : WorkerEffect env w worker label result) :
    TokenInvariant w result.jobs.pageToken := by
  cases h with
  | plain steady => exact htoken.of_steady steady
  | resyncClaimed steady => exact htoken.of_steady steady
  | @checkpointed resync token processedCount clock next reply old =>
    rw [old] at hI
    have hspec := @checkpointBoundedResync_spec w.jobs clock resync token processedCount
    rcases hspec with hsame | hnew
    · rwa [hsame]
    · rwa [hnew]
  | @recovered resync historyCursor next reply old =>
    have hspec := @completeBoundedResync_spec w.jobs resync historyCursor
    rcases hspec with hsame | hnew
    · rwa [hsame]
    · rw [hnew]
      exact nofun
  | _ => exact htoken

/-- The step lemma. -/
theorem RecoveriesInvariant.step (hI : RecoveriesInvariant w) (hC : ProfileAtListing w e)
    (hT : TriageUnsuperseded w e) (h : MailEffect env w e w') : RecoveriesInvariant w' := by
  have hgrows := h.grows
  refine ⟨hgrows.gmail.wellFormed hI.gmail, ?_, fun m other hm ↦ ?_⟩
  · cases h with
    | gmail => exact hI.pageToken.grows hgrows
    | jobs e steady => exact (hI.pageToken.of_steady steady).grows hgrows
    | claimed n id clock steady => exact (hI.pageToken.of_steady steady).grows hgrows
    | work n label current effect =>
      exact (effect.pageToken hI.pageToken (hI.workers n _ current)).grows hgrows
  · rcases h.worker_cases hm with hold | hclaimed | ⟨label, old, result, rfl, hold, heffect, rfl,
      hphase⟩
    · exact recoveryInvariant_of_grows hgrows (hI.workers m other hold)
    · rw [hclaimed]
      trivial
    · exact (hI.workers m old hold).step hI.gmail hI.pageToken hC hT hold heffect hphase

end

/-! ## A recovery loses no message -/

/-- In every run whose steps meet `C`: when a recovery is completed with a cursor, every message of
the inbox up to it has been triaged. -/
def RecoveryLosesNothing (env : MailEnv) (C : MailWorld → MailLabel → Prop) : Prop :=
  ∀ s t u tr e historyCursor, (mailWorkers env).init s → System.Run (mailWorkers env) C s tr t →
    C t e → (mailWorkers env).step t e = some (u, .recovered historyCursor) →
    ∀ entry ∈ u.gmail.inbox, entry.1 ≤ historyCursor → u.triage.Terminal entry.2

section

variable {env : MailEnv} {w w' : MailWorld} {e : MailLabel}

/-- A worker reports a recovery from `complete_bounded_resync` only. -/
theorem transact_recovered {worker : Worker} {clock : ℕ → Time} {result : StepResult}
    {historyCursor : ℕ}
    (h : w.transact env.settings worker.claim clock worker.phase = some result)
    (hreply : result.reply = .recovered historyCursor) :
    ∃ resync, worker.phase = .completingResync resync historyCursor ∧
      result.triage = w.triage := by
  cases hphase : worker.phase with
  | completingResync resync cursor =>
    rw [hphase] at h
    simp only [MailWorld.transact] at h
    split at h
    · obtain rfl := Option.some.inj h
      obtain rfl := Reply.recovered.inj hreply
      exact ⟨resync, rfl, rfl⟩
    · obtain rfl := Option.some.inj h
      cases hreply
  | claimingResync =>
    rw [hphase] at h
    simp only [MailWorld.transact] at h
    split at h
    all_goals
      obtain rfl := Option.some.inj h
      cases hreply
  | advancing | completing =>
    rw [hphase] at h
    obtain rfl := Option.some.inj h
    rw [MailWorld.advance] at hreply
    dsimp only at hreply
    split at hreply
    all_goals cases hreply
  | checkpointing | requiringManual | releasing | failing | requeueing | deadLettering =>
    rw [hphase] at h
    obtain rfl := Option.some.inj h
    cases hreply
  | claimed | listingInbox | triagingInbox | readingProfile | listingHistory | triagingHistory =>
    rw [hphase] at h
    cases h

/-- **A recovery that reads the profile as of its listing loses nothing.** -/
theorem recoveryLosesNothing_of_profileAtListing (env : MailEnv) :
    RecoveryLosesNothing env fun w e ↦ ProfileAtListing w e ∧ TriageUnsuperseded w e := by
  intro s t u tr e historyCursor hinit hrun hC hs
  have hI : RecoveriesInvariant t := by
    refine hrun.invariant (I := RecoveriesInvariant) ?_ fun w e w' o hI hC hs ↦
      hI.step hC.1 hC.2 (mailEffect_of_step hs)
    refine ⟨hinit.1, ?_, fun n worker hn ↦ ?_⟩
    · rw [JobStore.pageToken, hinit.2.1]
      rintro _ ⟨⟩
    · rw [hinit.2.2.2.2.1 n] at hn
      cases hn
  rcases reply_of_step hs with hnone | ⟨n, clock, worker, result, rfl, hn, htransact, rfl, hreply⟩
  · cases hnone
  · obtain ⟨resync, hphase, htriage⟩ := transact_recovered htransact hreply.symm
    have hworker := hI.workers n worker hn
    rw [hphase] at hworker
    intro entry hmem hle
    have hpos := hI.gmail.pos entry (Gmail.mem_arrivals_of_mem_inbox hmem)
    have hterminal := hworker.2 entry hmem hpos hle
    rw [← htriage] at hterminal
    exact hterminal

end

/-! ### A message between the last page and the profile -/

/-- The history has expired, so the mailbox is recovered. The inbox is empty when it is listed; a
message comes before the profile is read. -/
def lateArrivalSchedule : List MailLabel :=
  [.claimWatch 0, .completeWatch 0 10 (seconds 604800), .touch 12, .enqueue 0 "p" 12 0,
    .claimJob 0 0 fun _ ↦ 0, .work 0 .readMailbox,
    .work 0 (.listHistory [.error (.rejected (some 404))]), .work 0 (.transact fun _ ↦ 0),
    .claimJob 0 0 fun _ ↦ 0, .work 0 .readMailbox, .work 0 (.transact fun _ ↦ 0),
    .work 0 (.listInbox 100), .work 0 .takeMessage, .arrive 13 "x", .work 0 .readProfile]

/-- **The message that arrives during a recovery**: the recovered cursor passes it, and nobody has
triaged it. -/
theorem not_recoveryLosesNothing : ¬RecoveryLosesNothing defaultEnv System.anyStep := by
  intro h
  have hreplay : (mailWorkers defaultEnv).replay freshMail lateArrivalSchedule = some (_, _) := rfl
  -- The recovery is completed now, with cursor 13.
  have hterminal := h _ _ _ _ (.work 0 (.transact fun _ ↦ 0)) 13 init_freshMail
    (System.run_of_replay hreplay) trivial rfl (13, "x") (by decide) le_rfl
  obtain ⟨row, hrow, -⟩ := hterminal
  cases hrow

end Onebox.Notifications
