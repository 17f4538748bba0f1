import Mathlib.Algebra.Order.BigOperators.Group.List
import Onebox.Notifications.BoundedResync
import Onebox.Python.Lists

/-!
# The budget of a recovery

The message count in the mailbox row is the only measure of how far a recovery has got. It bounds
the messages that a generation submits, in every run. It bounds the pages as well when every page
that another follows has a message of its own: a page without one is checkpointed at the same count,
and may be followed by another such page for ever.
-/

namespace Onebox.Notifications

open Python Transition

/-! ## What a page does -/

/-- What a page does to the tables, and its answer. -/
inductive PageMove (settings : Settings) (s : JobStore) (resync : ClaimedMailboxResync)
    (answers : ResyncAnswers) : JobStore → ResyncOutcome → Prop
  | nothing {outcome : ResyncOutcome} (h : outcome.persists = false) :
      PageMove settings s resync answers s outcome
  | manual {state : GmailMailboxState} (locked : s.lockedResyncState resync = some state) :
      PageMove settings s resync answers
        (requireManualResync s resync "resync_total_limit_reached").1 .manualRequired
  | checkpoint {state : GmailMailboxState} {clock : ℕ → Time} {page : Json}
      {messageIds : List MessageId} {token : String}
      (locked : s.lockedResyncState resync = some state) (read : answers.page = some page)
      (ids : pageMessageIds page = some messageIds) (next : nextPageToken page = some token)
      (below : resync.messageCount + messageIds.length < settings.resyncMaxMessages) :
      PageMove settings s resync answers
        (checkpointBoundedResync s clock resync (answers.pageToken token) messageIds.length).1
        .checkpointed
  | complete {state : GmailMailboxState} {historyCursor : ℕ}
      (locked : s.lockedResyncState resync = some state) :
      PageMove settings s resync answers (completeBoundedResync s resync historyCursor).1 .completed

section

variable {env : MailEnv} {settings : Settings} {s : JobStore} {clock : ℕ → Time}
  {resync : ClaimedMailboxResync} {answers : ResyncAnswers} {state : GmailMailboxState}

/-- A transaction that the lease guards either is committed under it or changes nothing. -/
theorem PageMove.of_persist {result : JobStore × Bool} {outcome : ResyncOutcome}
    (hlost : s.lockedResyncState resync = none → result = (s, false))
    (hheld : ∀ state, s.lockedResyncState resync = some state →
      result.2 = true ∧ PageMove settings s resync answers result.1 outcome) :
    PageMove settings s resync answers (afterPersist result outcome).1
      (afterPersist result outcome).2 := by
  rw [afterPersist]
  cases hlocked : s.lockedResyncState resync with
  | none =>
    rw [hlost hlocked]
    exact .nothing rfl
  | some state =>
    obtain ⟨hcommitted, hmove⟩ := hheld state hlocked
    dsimp only
    rw [hcommitted, if_pos rfl]
    exact hmove

theorem pageMove_requireManual :
    PageMove settings s resync answers
      (afterPersist (requireManualResync s resync "resync_total_limit_reached")
        .manualRequired).1
      (afterPersist (requireManualResync s resync "resync_total_limit_reached")
        .manualRequired).2 := by
  refine .of_persist (fun hnone ↦ ?_) fun state hlocked ↦ ⟨?_, .manual hlocked⟩
  · rw [requireManualResync, hnone]
  · rw [requireManualResync, hlocked]

/-- **What `_bounded_resync` does.** -/
theorem pageMove_boundedResync (env : MailEnv) (s : JobStore) (clock : ℕ → Time)
    (resync : ClaimedMailboxResync) (answers : ResyncAnswers) :
    PageMove env.settings s resync answers (boundedResync env s clock resync answers).1
      (boundedResync env s clock resync answers).2 := by
  rw [boundedResync]
  split
  · exact pageMove_requireManual
  split
  · exact .nothing rfl
  rename_i page hpage
  split
  · exact .nothing rfl
  rename_i messageIds hids
  split
  · exact .nothing rfl
  · exact .nothing rfl
  split
  -- Another page follows.
  · rename_i token hnext
    split
    · exact pageMove_requireManual
    · rename_i hbelow
      refine .of_persist (fun hnone ↦ ?_) fun state hlocked ↦
        ⟨?_, .checkpoint hlocked hpage hids hnext (not_le.mp hbelow)⟩
      · rw [checkpointBoundedResync, hnone]
      · rw [checkpointBoundedResync, hlocked]
  -- The last page: the profile is read.
  · split
    · exact .nothing rfl
    split
    · split
      · exact .nothing rfl
      · exact .nothing rfl
      · refine .of_persist (fun hnone ↦ ?_) fun state hlocked ↦ ⟨?_, .complete hlocked⟩
        · rw [completeBoundedResync, hnone]
        · rw [completeBoundedResync, hlocked]
    · exact .nothing rfl

/-- A recovery that is over. -/
theorem RecoveryColumns.not_active {r : RecoveryColumns}
    (h : r.state = .idle ∨ r.state = .manualRequired) : ¬r.Active := by
  rintro (hactive | hactive)
  · rcases h with h | h <;> exact absurd (h.symm.trans hactive) nofun
  · rcases h with h | h <;> exact absurd (h.symm.trans hactive) nofun

theorem recovery_requireManualResync (locked : s.lockedResyncState resync = some state)
    (errorCode : String) :
    (requireManualResync s resync errorCode).1.recovery.generation = state.resyncGeneration ∧
      ¬(requireManualResync s resync errorCode).1.recovery.Active := by
  rw [requireManualResync, locked]
  exact ⟨rfl, RecoveryColumns.not_active (Or.inr rfl)⟩

theorem recovery_checkpointBoundedResync (clock : ℕ → Time)
    (locked : s.lockedResyncState resync = some state) (token : PageToken) (processedCount : ℕ) :
    (checkpointBoundedResync s clock resync token processedCount).1.recovery.generation
        = state.resyncGeneration ∧
      (checkpointBoundedResync s clock resync token processedCount).1.recovery.messageCount
        = state.resyncMessageCount + processedCount := by
  rw [checkpointBoundedResync, locked]
  exact ⟨rfl, rfl⟩

theorem recovery_completeBoundedResync (locked : s.lockedResyncState resync = some state)
    (historyCursor : ℕ) :
    (completeBoundedResync s resync historyCursor).1.recovery.generation
        = state.resyncGeneration ∧
      ¬(completeBoundedResync s resync historyCursor).1.recovery.Active := by
  rw [completeBoundedResync, locked]
  exact ⟨rfl, RecoveryColumns.not_active (Or.inl rfl)⟩

/-- A page is one of the transactions that a claim may make. -/
theorem PageMove.storeMove {s' : JobStore} {outcome : ResyncOutcome}
    {claims : List ClaimedMailboxResync} (h : PageMove settings s resync answers s' outcome)
    (hgranted : resync ∈ claims) : StoreMove settings s s' claims claims := by
  cases h with
  | nothing => exact .refl s
  | manual => exact storeMove_requireManualResync _ _
  | @checkpoint state clock page messageIds token locked read ids next below =>
    have hpersist : StoreMove settings s (persistPage settings s clock resync
        (answers.pageToken token) messageIds.length).1 claims claims :=
      storeMove_persistPage _ _ hgranted
    rw [persistPage, if_neg (not_le.mpr below)] at hpersist
    exact hpersist
  | complete => exact storeMove_completeBoundedResync _ _

end

/-! ## The items of a page -/

/-- An item gives at most one message id. -/
theorem length_usableMessageIds_le (items : List Json) :
    (usableMessageIds items).length ≤ items.length := by
  rw [usableMessageIds]
  exact (length_eraseDups_le _).trans (List.length_filterMap_le _ _)

/-- Items that are no dictionaries give none. -/
theorem usableMessageIds_eq_nil {items : List Json} (h : ∀ item ∈ items, ∃ s, item = .str s) :
    usableMessageIds items = [] := by
  rw [usableMessageIds, List.filterMap_eq_nil_iff.mpr, List.eraseDups_nil]
  intro item hmem
  obtain ⟨s, rfl⟩ := h item hmem
  rfl

theorem length_messageIds_le {page : Json} {limit : ℕ} {messageIds : List MessageId}
    (hrespects : respects limit page = true) (hids : pageMessageIds page = some messageIds) :
    messageIds.length ≤ limit := by
  rw [pageMessageIds] at hids
  split at hids
  swap
  · cases hids
  obtain ⟨items, hitems, rfl⟩ := Option.map_eq_some_iff.mp hids
  rw [entries] at hitems
  rw [respects] at hrespects
  split at hitems
  · obtain rfl := Option.some.inj hitems
    exact Nat.zero_le _
  rename_i value hvalue
  rw [hvalue] at hrespects
  cases value with
  | arr list =>
    obtain rfl := Option.some.inj hitems
    exact (length_usableMessageIds_le list).trans (of_decide_eq_true hrespects)
  -- A dictionary and a string are gone through by keys and characters.
  | obj fields =>
    obtain rfl := Option.some.inj hitems
    rw [usableMessageIds_eq_nil]
    · exact Nat.zero_le _
    · intro item hmem
      obtain ⟨field, -, rfl⟩ := List.mem_map.mp hmem
      exact ⟨_, rfl⟩
  | str text =>
    obtain rfl := Option.some.inj hitems
    rw [usableMessageIds_eq_nil]
    · exact Nat.zero_le _
    · intro item hmem
      obtain ⟨c, -, rfl⟩ := List.mem_map.mp hmem
      exact ⟨_, rfl⟩
  | null | bool | num => cases hitems

/-! ## Accounting

The pages of a generation are weighed, once by their messages and once by their number. What an
active generation has persisted weighs no more than the count in the row. -/

/-- What the pages of a generation weigh together. -/
def ResyncWorld.total (wt : PageEnd → ℕ) (w : ResyncWorld) (generation : ℕ) : ℕ :=
  ((w.pages.filter (·.generation = generation)).map wt).sum

structure ResyncWorld.Accounted (settings : Settings) (wt : PageEnd → ℕ) (w : ResyncWorld) :
    Prop where
  row : w.tables.RowInvariant settings
  past : ∀ p ∈ w.pages, p.generation ≤ w.tables.store.recovery.generation
  active : w.tables.store.recovery.Active →
    w.total wt w.tables.store.recovery.generation ≤ w.tables.store.recovery.messageCount
  bounded : ∀ generation, w.total wt generation ≤ settings.resyncMaxMessages

/-- A checkpoint weighs no more than the messages that it counts, and any other page no more than
what the claim has left. -/
structure Weighed (settings : Settings) (wt : PageEnd → ℕ) (resync : ClaimedMailboxResync)
    (answers : ResyncAnswers) : Prop where
  checkpoint : ∀ {page messageIds token}, answers.page = some page →
    pageMessageIds page = some messageIds → nextPageToken page = some token →
    wt ⟨resync.generation, .checkpointed, answers.messageIds⟩ ≤ messageIds.length
  final : ∀ outcome, wt ⟨resync.generation, outcome, answers.messageIds⟩ ≤
    settings.resyncMaxMessages - resync.messageCount

namespace ResyncWorld

section

variable {env : MailEnv} {settings : Settings} {wt : PageEnd → ℕ} {w u : ResyncWorld}
  {resync : ClaimedMailboxResync} {answers : ResyncAnswers} {p : PageEnd}

theorem total_append (hpages : u.pages = w.pages ++ [p]) (generation : ℕ) :
    u.total wt generation =
      w.total wt generation + if p.generation = generation then wt p else 0 := by
  rw [total, total, hpages, List.filter_append, List.map_append, List.sum_append]
  by_cases hp : p.generation = generation
  · rw [if_pos hp, List.filter_cons_of_pos (by simpa using hp), List.filter_nil, List.map_singleton,
      List.sum_singleton]
  · rw [if_neg hp, List.filter_cons_of_neg (by simpa using hp), List.filter_nil, List.map_nil,
      List.sum_nil]

/-- A generation without pages. -/
theorem total_eq_zero {generation : ℕ} (h : ∀ p ∈ w.pages, p.generation ≠ generation) :
    w.total wt generation = 0 := by
  rw [total, List.filter_eq_nil_iff.mpr, List.map_nil, List.sum_nil]
  intro p hmem
  simpa using h p hmem

namespace Accounted

/-- Between the pages. -/
theorem waits (h : w.Accounted settings wt) (hrow : u.tables.RowInvariant settings)
    (hpages : u.pages = w.pages) (hwaits : w.tables.store.recovery.Waits u.tables.store.recovery) :
    u.Accounted settings wt := by
  have htotal : ∀ generation, u.total wt generation = w.total wt generation := fun generation ↦ by
    rw [total, total, hpages]
  have hbounded : ∀ generation, u.total wt generation ≤ settings.resyncMaxMessages :=
    fun generation ↦ by
      rw [htotal]
      exact h.bounded generation
  cases hwaits with
  | same generation messageCount active =>
    refine ⟨hrow, ?_, fun hactive ↦ ?_, hbounded⟩
    · rw [hpages, generation]
      exact h.past
    · rw [htotal, generation, messageCount]
      exact h.active (active hactive)
  | begins generation messageCount =>
    refine ⟨hrow, ?_, fun _ ↦ ?_, hbounded⟩
    · rw [hpages, generation]
      exact fun p hmem ↦ (h.past p hmem).trans (Nat.le_succ _)
    -- No page of the next generation has been persisted.
    · rw [htotal, generation, messageCount, total_eq_zero]
      exact fun p hmem ↦ Nat.ne_of_lt (Nat.lt_succ_of_le (h.past p hmem))

/-- A page is persisted in an active generation. -/
theorem pageEnd (h : w.Accounted settings wt) (hrow : u.tables.RowInvariant settings)
    (hpages : u.pages = w.pages ++ [p]) (hactive : w.tables.store.recovery.Active)
    (hp : p.generation = w.tables.store.recovery.generation)
    (hgeneration : u.tables.store.recovery.generation = w.tables.store.recovery.generation)
    (hbudget : w.tables.store.recovery.messageCount + wt p ≤ settings.resyncMaxMessages)
    (hcount : u.tables.store.recovery.Active →
      w.tables.store.recovery.messageCount + wt p ≤ u.tables.store.recovery.messageCount) :
    u.Accounted settings wt := by
  have hcurrent : u.total wt w.tables.store.recovery.generation
      ≤ w.tables.store.recovery.messageCount + wt p := by
    rw [total_append hpages, if_pos hp]
    exact Nat.add_le_add_right (h.active hactive) _
  refine ⟨hrow, ?_, fun hactive' ↦ ?_, fun generation ↦ ?_⟩
  · rw [hpages, hgeneration]
    intro p' hmem
    rcases List.mem_append.mp hmem with hold | hnew
    · exact h.past p' hold
    · rw [List.mem_singleton.mp hnew]
      exact le_of_eq hp
  · rw [hgeneration]
    exact hcurrent.trans (hcount hactive')
  · by_cases hsame : w.tables.store.recovery.generation = generation
    · rw [← hsame]
      exact hcurrent.trans hbudget
    · rw [total_append hpages, if_neg (by rwa [hp]), Nat.add_zero]
      exact h.bounded generation

/-- The step lemma for a page. -/
theorem page (h : w.Accounted settings wt) (hgranted : resync ∈ w.tables.resyncClaims)
    (hweighed : Weighed settings wt resync answers) {store : JobStore} {outcome : ResyncOutcome}
    (hmove : PageMove settings w.tables.store resync answers store outcome) :
    Accounted settings wt ⟨w.tables.setStore store, if outcome.persists then
      w.pages ++ [⟨resync.generation, outcome, answers.messageIds⟩] else w.pages⟩ := by
  have hstore := hmove.storeMove hgranted
  have hrow : (w.tables.setStore store).RowInvariant settings :=
    ⟨h.row.row.move h.row.owned hstore.move,
      h.row.owned.move h.row.row hstore.move hstore.tokens⟩
  -- The claim that holds the row has its generation and its count.
  have hheld : ∀ state, w.tables.store.lockedResyncState resync = some state →
      w.tables.store.recovery = state.recovery ∧ state.recovery.HeldBy resync ∧
        resync.messageCount = state.resyncMessageCount ∧
        state.resyncMessageCount < settings.resyncMaxMessages := by
    intro state hlocked
    obtain ⟨hmailbox, hheld⟩ := heldBy_of_lockedResyncState hlocked
    have hrecovery := JobStore.recovery_of_mailbox hmailbox
    have howned := h.row.owned
    have hbelow := h.row.row.below
    rw [hrecovery] at howned hbelow
    exact ⟨hrecovery, hheld, (howned.head_of_heldBy hgranted hheld).2, hbelow⟩
  -- A page that ends the recovery weighs no more than what was left.
  have hlast : ∀ state, w.tables.store.lockedResyncState resync = some state →
      outcome.persists = true → store.recovery.generation = state.resyncGeneration →
      ¬store.recovery.Active →
      Accounted settings wt ⟨w.tables.setStore store, if outcome.persists then
        w.pages ++ [⟨resync.generation, outcome, answers.messageIds⟩] else w.pages⟩ := by
    intro state hlocked hpersists hgeneration hover
    obtain ⟨hrecovery, hheld, hcount, hbelow⟩ := hheld state hlocked
    rw [if_pos hpersists]
    refine h.pageEnd hrow rfl ?_ ?_ ?_ ?_ fun hactive ↦ absurd hactive hover
    · rw [hrecovery]
      exact Or.inr hheld.1
    · rw [hrecovery]
      exact hheld.2.1.symm
    · rw [hrecovery]
      exact hgeneration
    · rw [hrecovery]
      have hfinal := hweighed.final outcome
      rw [hcount] at hfinal
      exact (Nat.add_le_add_left hfinal _).trans (Nat.add_sub_cancel' hbelow.le).le
  cases hmove with
  | nothing hnothing =>
    rw [if_neg (by rw [hnothing]; exact Bool.false_ne_true)]
    exact h.waits hrow rfl (.refl _)
  | manual locked =>
    obtain ⟨hgeneration, hover⟩ := recovery_requireManualResync locked "resync_total_limit_reached"
    exact hlast _ locked rfl hgeneration hover
  | @complete state historyCursor locked =>
    obtain ⟨hgeneration, hover⟩ := recovery_completeBoundedResync locked historyCursor
    exact hlast _ locked rfl hgeneration hover
  | @checkpoint state clock page messageIds token locked read ids next below =>
    obtain ⟨hrecovery, hheld, hcount, -⟩ := hheld _ locked
    obtain ⟨hgeneration, hnewCount⟩ :=
      recovery_checkpointBoundedResync clock locked (answers.pageToken token) messageIds.length
    have hweight := hweighed.checkpoint read ids next
    refine h.pageEnd hrow rfl ?_ ?_ ?_ ?_ fun _ ↦ ?_
    · rw [hrecovery]
      exact Or.inr hheld.1
    · rw [hrecovery]
      exact hheld.2.1.symm
    · rw [hrecovery]
      exact hgeneration
    · rw [hrecovery]
      rw [hcount] at below
      exact (Nat.add_le_add_left hweight _).trans below.le
    · rw [hrecovery]
      exact (Nat.add_le_add_left hweight _).trans hnewCount.ge

end Accounted

theorem accounted_of_init (hinit : (resyncPages env).init w) :
    w.Accounted env.settings wt := by
  have hpages : w.pages = [] := hinit.2
  refine ⟨MailTables.rowInvariant_of_init hinit.1, ?_, fun _ ↦ ?_, fun generation ↦ ?_⟩
  · rw [hpages]
    exact fun _ hmem ↦ absurd hmem List.not_mem_nil
  · rw [total, hpages]
    exact Nat.zero_le _
  · rw [total, hpages]
    exact Nat.zero_le _

/-- The step lemma. -/
theorem Accounted.step {call : ResyncCall} {o : Option ResyncOutcome}
    (h : w.Accounted env.settings wt)
    (hweighed : ∀ resync clock answers, call = .page resync clock answers →
      resync ∈ w.tables.resyncClaims →
      answers.page.all (respects (maxResults env.settings resync)) = true →
      Weighed env.settings wt resync answers)
    (hs : w.step env call = some (u, o)) : u.Accounted env.settings wt := by
  cases call with
  | page resync clock answers =>
    rw [ResyncWorld.step] at hs
    split at hs
    · rename_i hguard
      obtain ⟨rfl, -⟩ := Prod.mk.inj (Option.some.inj hs)
      exact h.page hguard.1 (hweighed _ _ _ rfl hguard.1 hguard.2)
        (pageMove_boundedResync env w.tables.store clock resync answers)
    · cases hs
  | other call =>
    rw [ResyncWorld.step] at hs
    split at hs
    · cases hs
    · rename_i hother
      obtain ⟨⟨tables, reply⟩, hstep, heq⟩ := Option.map_eq_some_iff.mp hs
      obtain ⟨rfl, -⟩ := Prod.mk.inj heq
      exact h.waits (h.row.step hstep) rfl
        (waits_of_step (Bool.eq_false_of_not_eq_true hother) hstep)

/-- The run lemma. -/
theorem accounted_of_run {C : ResyncWorld → ResyncCall → Prop} {s : ResyncWorld}
    {tr : List (ResyncCall × Option ResyncOutcome)}
    (hweighed : ∀ w : ResyncWorld, w.tables.RowInvariant env.settings →
      ∀ resync clock answers, C w (.page resync clock answers) →
        resync ∈ w.tables.resyncClaims →
        answers.page.all (respects (maxResults env.settings resync)) = true →
        Weighed env.settings wt resync answers)
    (hinit : (resyncPages env).init s) (hrun : System.Run (resyncPages env) C s tr w) :
    w.Accounted env.settings wt := by
  refine hrun.invariant (accounted_of_init hinit) fun w call u o h hC hs ↦ h.step ?_ hs
  rintro resync clock answers rfl
  exact hweighed w h.row resync clock answers hC

end

/-! ## Every run -/

/-- How many messages the pages of a generation have submitted. -/
def submitted (w : ResyncWorld) (generation : ℕ) : ℕ :=
  w.total (·.messageIds.length) generation

/-- How many pages of a generation have been persisted. -/
def persisted (w : ResyncWorld) (generation : ℕ) : ℕ :=
  (w.pages.filter (·.generation = generation)).length

/-- How many of them another page followed. -/
def checkpoints (w : ResyncWorld) (generation : ℕ) : ℕ :=
  (w.pages.filter fun p ↦ p.generation = generation ∧ p.outcome = .checkpointed).length

end ResyncWorld

/-- The page has a message, or no other follows it. -/
def advancingPage (page : Json) : Bool :=
  match pageMessageIds page with
  | none => true
  | some messageIds => !messageIds.isEmpty || (nextPageToken page).isNone

def ResyncCall.advances : ResyncCall → Bool
  | .page _ _ answers => answers.page.all advancingPage
  | .other _ => true

/-- The condition under which the pages of a generation are bounded. -/
def advancing (_ : ResyncWorld) (call : ResyncCall) : Prop := call.advances = true

section

variable {env : MailEnv} {s w : ResyncWorld} {tr : List (ResyncCall × Option ResyncOutcome)}
  {resync : ClaimedMailboxResync} {answers : ResyncAnswers}

theorem ResyncAnswers.messageIds_eq {page : Json} {messageIds : List MessageId}
    (hpage : answers.page = some page) (hids : pageMessageIds page = some messageIds) :
    answers.messageIds = messageIds := by
  rw [ResyncAnswers.messageIds, hpage, Option.bind_some, hids, Option.getD_some]

/-- The messages of a page. -/
theorem weighed_messages {settings : Settings}
    (hrespects : answers.page.all (respects (maxResults settings resync)) = true) :
    Weighed settings (·.messageIds.length) resync answers where
  checkpoint hpage hids _ := by rw [ResyncAnswers.messageIds_eq hpage hids]
  final _ := by
    dsimp only
    cases hpage : answers.page with
    | none =>
      rw [ResyncAnswers.messageIds, hpage]
      exact Nat.zero_le _
    | some page =>
      cases hids : pageMessageIds page with
      | none =>
        rw [ResyncAnswers.messageIds, hpage, Option.bind_some, hids]
        exact Nat.zero_le _
      | some messageIds =>
        rw [hpage] at hrespects
        rw [ResyncAnswers.messageIds_eq hpage hids]
        exact (length_messageIds_le hrespects hids).trans (min_le_right _ _)

/-- **A generation submits no more messages than the limit**, whatever its pages hold. -/
theorem submitted_le_of_run (hinit : (resyncPages env).init s)
    (hrun : System.Run (resyncPages env) System.anyStep s tr w) (generation : ℕ) :
    w.submitted generation ≤ env.settings.resyncMaxMessages :=
  (ResyncWorld.accounted_of_run (fun _ _ _ _ _ _ _ hrespects ↦ weighed_messages hrespects) hinit
    hrun).bounded generation

theorem persisted_eq_total (w : ResyncWorld) (generation : ℕ) :
    w.persisted generation = w.total (fun _ ↦ 1) generation := by
  rw [ResyncWorld.persisted, ResyncWorld.total, List.map_const', List.sum_replicate_nat,
    Nat.mul_one]

theorem checkpoints_le_persisted (w : ResyncWorld) (generation : ℕ) :
    w.checkpoints generation ≤ w.persisted generation := by
  rw [ResyncWorld.checkpoints, ResyncWorld.persisted, ← List.countP_eq_length_filter,
    ← List.countP_eq_length_filter]
  refine List.countP_mono_left fun p _ hp ↦ ?_
  simp only [decide_eq_true_eq] at hp ⊢
  exact hp.1

/-- The pages of a generation, when each that another follows has a message. -/
theorem accounted_persisted (hinit : (resyncPages env).init s)
    (hrun : System.Run (resyncPages env) advancing s tr w) :
    w.Accounted env.settings fun _ ↦ 1 := by
  refine ResyncWorld.accounted_of_run
    (fun w hrow resync clock answers hadvances hgranted _ ↦ ⟨?_, fun _ ↦ ?_⟩) hinit hrun
  · intro page messageIds token hpage hids hnext
    rw [advancing, ResyncCall.advances, hpage, Option.all_some, advancingPage, hids] at hadvances
    dsimp only at hadvances
    rw [hnext, Option.isNone_some, Bool.or_false] at hadvances
    exact List.length_pos_of_ne_nil (by simpa using hadvances)
  · exact Nat.sub_pos_of_lt (hrow.owned.below resync hgranted)

/-- Every call that a page makes succeeds. -/
structure ResyncAnswers.Succeeds (env : MailEnv) (answers : ResyncAnswers) (page : Json)
    (messageIds : List MessageId) : Prop where
  listed : answers.page = some page
  read : pageMessageIds page = some messageIds
  triaged : ∀ messageId ∈ messageIds, answers.triage messageId = some true
  profile : nextPageToken page = none → ∃ profile historyCursor, answers.profile = some profile ∧
    (orEmpty profile).isDict = true ∧
    historyId env.unicode ((orEmpty profile).get? "historyId") = .ok (some historyCursor)

theorem triageMessages_eq_true {triage : MessageId → Option Bool} {messageIds : List MessageId}
    (h : ∀ messageId ∈ messageIds, triage messageId = some true) :
    triageMessages triage messageIds = some true := by
  induction messageIds with
  | nil => rfl
  | cons messageId rest ih =>
    rw [List.forall_mem_cons] at h
    rw [triageMessages, h.1]
    exact ih h.2

/-- A transaction under the lease is committed. -/
theorem lockedResyncState_of_heldBy {store : JobStore} (h : store.recovery.HeldBy resync) :
    ∃ state, store.lockedResyncState resync = some state := by
  rw [JobStore.lockedResyncState]
  cases hmailbox : store.mailbox with
  | none =>
    have hstate := h.1
    rw [JobStore.recovery, hmailbox] at hstate
    cases hstate
  | some state =>
    rw [JobStore.recovery_of_mailbox hmailbox] at h
    exact ⟨state, if_pos h⟩

/-- A page that succeeds under the lease is persisted. -/
theorem persists_of_heldBy {store : JobStore} {clock : ℕ → Time} {page : Json}
    {messageIds : List MessageId} (hheld : store.recovery.HeldBy resync)
    (hsucceeds : answers.Succeeds env page messageIds) :
    (boundedResync env store clock resync answers).2.persists = true := by
  obtain ⟨state, hlocked⟩ := lockedResyncState_of_heldBy hheld
  have hmanual : (afterPersist
      (requireManualResync store resync "resync_total_limit_reached") .manualRequired).2.persists
        = true := by
    rw [requireManualResync, hlocked]
    rfl
  rw [boundedResync]
  split
  · exact hmanual
  rw [hsucceeds.listed]
  dsimp only
  rw [hsucceeds.read]
  dsimp only
  rw [triageMessages_eq_true hsucceeds.triaged]
  dsimp only
  split
  · split
    · exact hmanual
    · rw [checkpointBoundedResync, hlocked]
      rfl
  · rename_i hlast
    obtain ⟨profile, historyCursor, hprofile, hdict, hcursor⟩ := hsucceeds.profile hlast
    rw [hprofile]
    dsimp only
    rw [if_pos hdict, hcursor]
    dsimp only
    rw [completeBoundedResync, hlocked]
    rfl

/-- What holds of a generation after a run. -/
structure BoundedGeneration (env : MailEnv) (w : ResyncWorld) (generation : ℕ) : Prop where
  checkpoints : w.checkpoints generation ≤ env.settings.resyncMaxMessages
  submitted : w.submitted generation ≤ env.settings.resyncMaxMessages
  /-- It is over by its page at the limit. -/
  ended : env.settings.resyncMaxMessages ≤ w.persisted generation →
    w.tables.store.recovery.generation = generation →
    w.tables.store.recovery.state = .idle ∨ w.tables.store.recovery.state = .manualRequired
  /-- And each page that succeeds counts towards it. -/
  progress : ∀ resync clock answers page messageIds, w.tables.store.recovery.HeldBy resync →
    answers.Succeeds env page messageIds →
    (boundedResync env w.tables.store clock resync answers).2.persists = true

/-- **A recovery generation is bounded work, while every page that another follows has a
message.** -/
theorem boundedGeneration_of_run (hinit : (resyncPages env).init s)
    (hrun : System.Run (resyncPages env) advancing s tr w) (generation : ℕ) :
    BoundedGeneration env w generation := by
  have haccounted := accounted_persisted hinit hrun
  have hbounded := haccounted.bounded generation
  rw [← persisted_eq_total] at hbounded
  refine ⟨(checkpoints_le_persisted w generation).trans hbounded,
    submitted_le_of_run hinit (hrun.weaken fun _ _ _ ↦ trivial) generation, ?_,
    fun _ _ _ _ _ ↦ persists_of_heldBy⟩
  rintro hlimit rfl
  by_contra hover
  -- An active generation has persisted fewer pages than the limit.
  have hactive : w.tables.store.recovery.Active := by
    rw [RecoveryColumns.Active]
    cases hstate : w.tables.store.recovery.state with
    | idle => exact absurd (Or.inl hstate) hover
    | manualRequired => exact absurd (Or.inr hstate) hover
    | required => exact Or.inl rfl
    | processing => exact Or.inr rfl
  have hpersisted := haccounted.active hactive
  rw [← persisted_eq_total] at hpersisted
  exact absurd (hlimit.trans hpersisted) (not_le.mpr haccounted.row.row.below)

end

/-! ### Two recoveries -/

/-- A page that another follows. -/
def resyncPage (messageIds : List MessageId) : ResyncAnswers where
  page := some (.obj [("messages", .arr (messageIds.map fun messageId ↦
    .obj [("id", .str messageId)])), ("nextPageToken", .str "next")])
  triage := fun _ ↦ some true
  profile := none
  pageToken := fun _ ↦ ⟨0, 0⟩

def emptyResyncWorld : ResyncWorld where
  tables :=
    { store :=
        { jobs := fun _ ↦ none, pubsubIndex := fun _ ↦ none, mailbox := none, nextToken := 0 }
      jobClaims := []
      resyncClaims := [] }
  pages := []

theorem init_emptyResyncWorld (env : MailEnv) : (resyncPages env).init emptyResyncWorld :=
  ⟨⟨rfl, fun _ ↦ rfl, rfl, rfl⟩, rfl⟩

/-- The first generation waits for its next claim, with nothing counted so far. -/
structure ResyncWorld.AwaitsClaim (w : ResyncWorld) (state : GmailMailboxState) : Prop where
  mailbox : w.tables.store.mailbox = some state
  required : state.resyncState = .required
  generation : state.resyncGeneration = 1
  messageCount : state.resyncMessageCount = 0
  due : state.resyncNextAttemptAt = some 0

/-- The watch is established, and history is lost before the first notification. -/
def startingCalls : List ResyncCall :=
  [.other (.claimWatch 0), .other (.completeWatch 0 7 100), .other (.insertJob 0 "pubsub" 8 0),
    .other (.claimJob 0 fun _ ↦ 0),
    .other (.failJob ⟨0, 8, 1, 0⟩ (fun _ ↦ 0)
      { errorCode := "history_cursor_expired", requireResync := true })]

/-- The settings with a limit of two messages. -/
def twoMessagesEnv : MailEnv where
  settings := { Settings.default with resyncMaxMessages := 2, resync_bounds := by decide }
  unicode := .ascii

/-- Two pages of one message each take the generation to its limit. -/
theorem boundedGeneration_of_run_twoPages : ∃ tr w,
    System.Run (resyncPages twoMessagesEnv) advancing emptyResyncWorld tr w ∧
      w.checkpoints 1 = 1 ∧ w.submitted 1 = 2 ∧
      w.tables.store.recovery.state = .manualRequired ∧ BoundedGeneration twoMessagesEnv w 1 := by
  have hreplay : ∃ w, (resyncPages twoMessagesEnv).replay emptyResyncWorld (startingCalls ++
      [.other (.claimResync fun _ ↦ 0),
        .page ⟨2, 1, none, 0⟩ (fun _ ↦ 0) (resyncPage ["a"]), .other (.claimResync fun _ ↦ 0),
        .page ⟨3, 1, some ⟨0, 0⟩, 1⟩ (fun _ ↦ 0) (resyncPage ["b"])]) =
      some (w, [none, none, none, none, none, none, some .checkpointed, none,
        some .manualRequired]) ∧ w.checkpoints 1 = 1 ∧ w.submitted 1 = 2 ∧
        w.tables.store.recovery.state = .manualRequired := ⟨_, rfl, rfl, rfl, rfl⟩
  obtain ⟨w, hreplay, hcheckpoints, hsubmitted, hstate⟩ := hreplay
  have hrun : System.Run (resyncPages twoMessagesEnv) advancing emptyResyncWorld _ w :=
    System.run_of_replay_of_meets (fun _ _ hadvances ↦ hadvances) hreplay rfl
  exact ⟨_, w, hrun, hcheckpoints, hsubmitted, hstate,
    boundedGeneration_of_run (init_emptyResyncWorld _) hrun 1⟩

theorem awaitsClaim_startingCalls : ∃ tr w state,
    System.Run (resyncPages defaultEnv) System.anyStep emptyResyncWorld tr w ∧
      w.AwaitsClaim state ∧ w.checkpoints 1 = 0 := by
  have hreplay : ∃ w state, (resyncPages defaultEnv).replay emptyResyncWorld startingCalls =
      some (w, [none, none, none, none, none]) ∧ w.AwaitsClaim state ∧ w.checkpoints 1 = 0 :=
    ⟨_, _, rfl, ⟨rfl, rfl, rfl, rfl, rfl⟩, rfl⟩
  obtain ⟨w, state, hreplay, hawaits, hnone⟩ := hreplay
  exact ⟨_, w, state, System.run_of_replay hreplay, hawaits, hnone⟩

/-- An empty page is checkpointed, and the generation is where it was. -/
theorem awaitsClaim_emptyPage {w : ResyncWorld} {state : GmailMailboxState}
    (h : w.AwaitsClaim state) : ∃ tr u state',
    System.Run (resyncPages defaultEnv) System.anyStep w tr u ∧ u.AwaitsClaim state' ∧
      u.checkpoints 1 = w.checkpoints 1 + 1 := by
  let resync : ClaimedMailboxResync := ⟨w.tables.store.nextToken, 1, state.resyncPageToken, 0⟩
  -- The recovery is claimed.
  obtain ⟨claimed, hclaim, hmailbox⟩ : ∃ store,
      claimMailboxResync defaultEnv.settings w.tables.store (fun _ ↦ 0) = (store, some resync) ∧
        store.mailbox = some { state with
          resyncState := .processing
          resyncRequired := true
          resyncLeaseToken := some w.tables.store.nextToken
          resyncLeaseExpiresAt := some (0 + defaultEnv.settings.leaseDuration)
          resyncNextAttemptAt := none } := by
    rw [claimMailboxResync, h.mailbox]
    dsimp only
    rw [h.required]
    dsimp only
    rw [h.due, if_neg (by decide), h.generation, h.messageCount]
    exact ⟨_, rfl, rfl⟩
  have hlocked : claimed.lockedResyncState resync = claimed.mailbox := by
    rw [JobStore.lockedResyncState, hmailbox]
    exact if_pos ⟨rfl, h.generation, rfl⟩
  -- Its page is empty.
  obtain ⟨checkpointed, hpage, hwaiting⟩ : ∃ store,
      boundedResync defaultEnv claimed (fun _ ↦ 0) resync (resyncPage []) =
        (store, .checkpointed) ∧ ∃ state', (⟨⟨store, w.tables.jobClaims,
          resync :: w.tables.resyncClaims⟩, w.pages ++ [⟨1, .checkpointed, []⟩]⟩ :
            ResyncWorld).AwaitsClaim state' := by
    have hcheckpoint : boundedResync defaultEnv claimed (fun _ ↦ 0) resync (resyncPage []) =
        afterPersist (checkpointBoundedResync claimed (fun _ ↦ 0) resync ⟨0, 0⟩ 0)
          .checkpointed := rfl
    rw [hcheckpoint, checkpointBoundedResync, hlocked, hmailbox]
    exact ⟨_, rfl, _, rfl, rfl, h.generation, h.messageCount, rfl⟩
  obtain ⟨state', hwaiting⟩ := hwaiting
  let claims : ResyncWorld :=
    ⟨⟨claimed, w.tables.jobClaims, resync :: w.tables.resyncClaims⟩, w.pages⟩
  have hfirst : (resyncPages defaultEnv).step w (.other (.claimResync fun _ ↦ 0)) =
      some (claims, none) := by
    have htables : w.tables.step defaultEnv.settings (.claimResync fun _ ↦ 0) =
        some (claims.tables, .resync (some resync)) := by
      rw [MailTables.step]
      dsimp only
      rw [hclaim]
      rfl
    change w.step defaultEnv (.other (.claimResync fun _ ↦ 0)) = _
    rw [ResyncWorld.step, if_neg (by decide), htables]
    rfl
  have hsecond : (resyncPages defaultEnv).step claims
      (.page resync (fun _ ↦ 0) (resyncPage [])) = some (⟨⟨checkpointed, w.tables.jobClaims,
        resync :: w.tables.resyncClaims⟩, w.pages ++ [⟨1, .checkpointed, []⟩]⟩,
          some .checkpointed) := by
    change claims.step defaultEnv (.page resync (fun _ ↦ 0) (resyncPage [])) = _
    rw [ResyncWorld.step, if_pos ⟨List.mem_cons_self, rfl⟩, hpage]
    rfl
  refine ⟨_, _, state', (System.Run.single trivial hfirst).snoc trivial hsecond, hwaiting, ?_⟩
  rw [ResyncWorld.checkpoints, List.filter_append, List.length_append]
  rfl

/-- Any number of them are. -/
theorem exists_run_of_emptyPages (n : ℕ) : ∃ tr w state,
    System.Run (resyncPages defaultEnv) System.anyStep emptyResyncWorld tr w ∧
      w.AwaitsClaim state ∧ w.checkpoints 1 = n := by
  induction n with
  | zero => exact awaitsClaim_startingCalls
  | succ n ih =>
    obtain ⟨tr, w, state, hrun, hawaits, hcount⟩ := ih
    obtain ⟨tr', u, state', hrun', hawaits', hcount'⟩ := awaitsClaim_emptyPage hawaits
    exact ⟨_, u, state', hrun.append hrun', hawaits', by rw [hcount', hcount]⟩

/-- A generation may checkpoint more pages than the limit on its messages. -/
theorem not_boundedGeneration : ∃ tr w, (resyncPages defaultEnv).init emptyResyncWorld ∧
    System.Run (resyncPages defaultEnv) System.anyStep emptyResyncWorld tr w ∧
      w.checkpoints 1 = 101 ∧ ¬BoundedGeneration defaultEnv w 1 := by
  obtain ⟨tr, w, state, hrun, -, hcount⟩ := exists_run_of_emptyPages 101
  refine ⟨tr, w, init_emptyResyncWorld _, hrun, hcount, fun h ↦ ?_⟩
  have hcheckpoints := h.checkpoints
  rw [hcount] at hcheckpoints
  exact absurd hcheckpoints (by decide)

end Onebox.Notifications
