import Onebox.Notifications.Tables

/-!
# The mailbox row

The recovery columns of the mailbox row agree with each other, and at most one claim can move them:
the latest that was granted, for as long as the row carries its lease. The page token and the
message count that this claim has taken from the row stay those of the row meanwhile, which is what
keeps the count of a recovery below the limit.
-/

namespace Onebox.Notifications

open Python Transition

/-! ## The invariants -/

/-- The columns agree with each other. -/
structure RecoveryColumns.Consistent (settings : Settings) (r : RecoveryColumns) : Prop where
  leaseToken : r.leaseToken.isSome = true ↔ r.state = .processing
  leaseExpiresAt : r.leaseExpiresAt.isSome = true ↔ r.state = .processing
  required : r.required = true ↔ r.state ≠ .idle
  idle : r.state = .idle →
    r.pageToken = none ∧ r.messageCount = 0 ∧ r.attemptCount = 0 ∧ r.nextAttemptAt = none
  below : r.messageCount < settings.resyncMaxMessages

/-- The granted claims: their tokens have been drawn in order, and the lease in the row is that of
the latest, which has the row's page token and message count. -/
structure OwnedBy (settings : Settings) (token : LeaseToken) (r : RecoveryColumns)
    (claims : List ClaimedMailboxResync) : Prop where
  drawn : ∀ claim ∈ claims, claim.leaseToken < token
  ordered : claims.Pairwise (·.leaseToken > ·.leaseToken)
  below : ∀ claim ∈ claims, claim.messageCount < settings.resyncMaxMessages
  owner : ∀ lease, r.leaseToken = some lease → ∃ claim, claims.head? = some claim ∧
    claim.leaseToken = lease ∧ claim.pageToken = r.pageToken ∧
    claim.messageCount = r.messageCount

section

variable {settings : Settings} {token token' : LeaseToken} {r r' : RecoveryColumns}
  {claims claims' : List ClaimedMailboxResync}

theorem RecoveryColumns.Consistent.leases_eq_none (h : r.Consistent settings)
    (hstate : r.state ≠ .processing) : r.leaseToken = none ∧ r.leaseExpiresAt = none := by
  constructor
  · rw [← Option.not_isSome_iff_eq_none, h.leaseToken]
    exact hstate
  · rw [← Option.not_isSome_iff_eq_none, h.leaseExpiresAt]
    exact hstate

/-- A row without leases. -/
theorem consistent_of_unleased (hstate : r.state ≠ .processing)
    (hleases : r.leaseToken = none ∧ r.leaseExpiresAt = none)
    (hrequired : r.required = true ↔ r.state ≠ .idle)
    (hidle : r.state = .idle →
      r.pageToken = none ∧ r.messageCount = 0 ∧ r.attemptCount = 0 ∧ r.nextAttemptAt = none)
    (hbelow : r.messageCount < settings.resyncMaxMessages) : r.Consistent settings := by
  refine ⟨?_, ?_, hrequired, hidle, hbelow⟩
  · rw [hleases.1]
    exact iff_of_false nofun hstate
  · rw [hleases.2]
    exact iff_of_false nofun hstate

/-- A claim that holds the row is the latest one. -/
theorem OwnedBy.head_of_heldBy (h : OwnedBy settings token r claims)
    {resync : ClaimedMailboxResync} (hgranted : resync ∈ claims) (hheld : r.HeldBy resync) :
    claims.head? = some resync ∧ resync.messageCount = r.messageCount := by
  obtain ⟨owner, hhead, hlease, -, hcount⟩ := h.owner _ hheld.2.2
  obtain ⟨rest, rfl⟩ := List.head?_eq_some_iff.mp hhead
  have hsame : resync = owner := by
    rcases List.mem_cons.mp hgranted with hsame | hrest
    · exact hsame
    -- An earlier claim has a smaller token.
    · have hlt := (List.pairwise_cons.mp h.ordered).1 resync hrest
      exact absurd hlease (Nat.ne_of_gt hlt)
  rw [hsame]
  exact ⟨hhead, hcount⟩

/-- The step lemma for the columns. -/
theorem RecoveryColumns.Consistent.move (h : r.Consistent settings)
    (howned : OwnedBy settings token r claims)
    (hmove : RecoveryMove settings token r claims r' claims') : r'.Consistent settings := by
  have hpositive : 0 < settings.resyncMaxMessages := settings.resync_bounds.1
  cases hmove with
  | stay => exact h
  | @start r' now idle leases columns =>
    have hnone : r'.leaseToken = none ∧ r'.leaseExpiresAt = none := by
      rcases leases with ⟨htoken, hexpiry⟩ | hcleared
      · rw [htoken, hexpiry]
        exact h.leases_eq_none (by rw [idle]; exact nofun)
      · exact hcleared
    rw [columns]
    exact consistent_of_unleased nofun hnone (iff_of_true rfl nofun) nofun hpositive
  | grant required =>
    exact ⟨iff_of_true rfl rfl, iff_of_true rfl rfl, iff_of_true rfl nofun, nofun, h.below⟩
  | retry processing =>
    exact consistent_of_unleased nofun ⟨rfl, rfl⟩ (iff_of_true rfl nofun) nofun h.below
  | @checkpoint resync nextPageToken processedCount now granted held below =>
    have hcount : resync.messageCount = r.messageCount := (howned.head_of_heldBy granted held).2
    refine consistent_of_unleased nofun ⟨rfl, rfl⟩ (iff_of_true rfl nofun) nofun ?_
    rw [← hcount]
    exact below
  | complete processing =>
    exact consistent_of_unleased nofun ⟨rfl, rfl⟩ (iff_of_false nofun fun h ↦ h rfl)
      (fun _ ↦ ⟨rfl, rfl, rfl, rfl⟩) hpositive
  | manual processing =>
    exact consistent_of_unleased nofun ⟨rfl, rfl⟩ (iff_of_true rfl nofun) nofun h.below

/-- The step lemma for the claims. A lease appears in the row only with its claim. -/
theorem OwnedBy.move (h : OwnedBy settings token r claims) (hrow : r.Consistent settings)
    (hmove : RecoveryMove settings token r claims r' claims')
    (htokens : claims' = claims ∧ token ≤ token' ∨ token' = token + 1) :
    OwnedBy settings token' r' claims' := by
  have hle : token ≤ token' := by
    rcases htokens with ⟨-, hle⟩ | rfl
    · exact hle
    · exact Nat.le_succ _
  have hdrawn : ∀ claim ∈ claims, claim.leaseToken < token' := fun claim hmem ↦
    lt_of_lt_of_le (h.drawn claim hmem) hle
  cases hmove with
  | stay => exact ⟨hdrawn, h.ordered, h.below, h.owner⟩
  | @start r' now idle leases columns =>
    refine ⟨hdrawn, h.ordered, h.below, fun lease hlease ↦ ?_⟩
    rcases leases with ⟨htoken, -⟩ | ⟨htoken, -⟩
    · rw [htoken, (hrow.leases_eq_none (by rw [idle]; exact nofun)).1] at hlease
      cases hlease
    · rw [htoken] at hlease
      cases hlease
  | @grant resync expiresAt required snapshot =>
    have htoken' : token' = token + 1 := by
      rcases htokens with ⟨hsame, -⟩ | htoken'
      · exact absurd (congrArg List.length hsame) (Nat.succ_ne_self _)
      · exact htoken'
    have hlease : resync.leaseToken = token := by rw [snapshot]
    refine ⟨?_, ?_, ?_, ?_⟩
    · intro claim hmem
      rcases List.mem_cons.mp hmem with rfl | hold
      · rw [hlease, htoken']
        exact Nat.lt_succ_self _
      · exact hdrawn claim hold
    · refine List.pairwise_cons.mpr ⟨fun claim hmem ↦ ?_, h.ordered⟩
      rw [hlease]
      exact h.drawn claim hmem
    · intro claim hmem
      rcases List.mem_cons.mp hmem with rfl | hold
      · rw [snapshot]
        exact hrow.below
      · exact h.below claim hold
    · rintro lease ⟨⟩
      exact ⟨resync, rfl, hlease, by rw [snapshot], by rw [snapshot]⟩
  | _ => exact ⟨hdrawn, h.ordered, h.below, nofun⟩

/-- A granted claim that does not hold the row does not come to hold it. -/
theorem RecoveryMove.not_heldBy (hmove : RecoveryMove settings token r claims r' claims')
    {resync : ClaimedMailboxResync} (hdrawn : resync.leaseToken < token)
    (h : r.leaseToken ≠ some resync.leaseToken) : r'.leaseToken ≠ some resync.leaseToken := by
  cases hmove with
  | stay => exact h
  | start idle leases columns =>
    rcases leases with ⟨htoken, -⟩ | ⟨htoken, -⟩
    · rw [htoken]
      exact h
    · rw [htoken]
      exact nofun
  | grant required snapshot =>
    intro hlease
    exact absurd (Option.some.inj hlease) (Nat.ne_of_gt hdrawn)
  | _ => exact nofun

end

/-! ## The invariant of a run -/

namespace MailTables

structure RowInvariant (settings : Settings) (t : MailTables) : Prop where
  row : t.store.recovery.Consistent settings
  owned : OwnedBy settings t.store.nextToken t.store.recovery t.resyncClaims

section

variable {settings : Settings} {s t u : MailTables} {call : TableCall} {o : TableReply}
  {tr : List (TableCall × TableReply)} {resync : ClaimedMailboxResync}

theorem RowInvariant.step (hI : t.RowInvariant settings)
    (hs : t.step settings call = some (u, o)) : u.RowInvariant settings := by
  have hmove := storeMove_of_step hs
  exact ⟨hI.row.move hI.owned hmove.move, hI.owned.move hI.row hmove.move hmove.tokens⟩

theorem rowInvariant_of_init (hinit : (mailTables settings).init s) : s.RowInvariant settings := by
  have hrecovery : s.store.recovery = ({} : GmailMailboxState).recovery := by
    rw [JobStore.recovery, hinit.1, Option.getD_none]
  refine ⟨?_, ?_⟩
  · rw [hrecovery]
    exact consistent_of_unleased (by rintro ⟨⟩) ⟨rfl, rfl⟩
      (iff_of_false (by rintro ⟨⟩) fun h ↦ h rfl) (fun _ ↦ ⟨rfl, rfl, rfl, rfl⟩)
      settings.resync_bounds.1
  · rw [hrecovery, hinit.2.2.2]
    exact ⟨(by rintro _ ⟨⟩), .nil, (by rintro _ ⟨⟩), (by rintro _ ⟨⟩)⟩

/-- The run lemma. -/
theorem rowInvariant_of_run (hinit : (mailTables settings).init s)
    (hrun : System.Run (mailTables settings) System.anyStep s tr t) : t.RowInvariant settings :=
  hrun.invariant (I := RowInvariant settings) (rowInvariant_of_init hinit)
    fun _ _ _ _ hI _ hs ↦ hI.step hs

/-! ## Calls under a claim that does not hold the row -/

/-- The claims that have lost their lease, and stay without it. -/
def LostLease (t : MailTables) (resync : ClaimedMailboxResync) : Prop :=
  resync ∈ t.resyncClaims ∧ t.store.recovery.leaseToken ≠ some resync.leaseToken

theorem LostLease.step (h : t.LostLease resync) (hI : t.RowInvariant settings)
    (hs : t.step settings call = some (u, o)) : u.LostLease resync :=
  ⟨(storeMove_of_step hs).move.claims_subset h.1,
    (storeMove_of_step hs).move.not_heldBy (hI.owned.drawn resync h.1) h.2⟩

/-- The run lemma. -/
theorem LostLease.run (h : t.LostLease resync) (hI : t.RowInvariant settings)
    (hrun : System.Run (mailTables settings) System.anyStep t tr u) : u.LostLease resync :=
  (hrun.invariant (I := fun t ↦ t.RowInvariant settings ∧ t.LostLease resync) ⟨hI, h⟩
    fun _ _ _ _ hI _ hs ↦ ⟨hI.1.step hs, hI.2.step hI.1 hs⟩).2

/-- The calls by which a claim moves the recovery. -/
inductive PresentsResync (resync : ClaimedMailboxResync) : TableCall → Prop
  | persistPage (clock : ℕ → Time) (nextPageToken : PageToken) (processedCount : ℕ) :
      PresentsResync resync (.persistPage resync clock nextPageToken processedCount)
  | completeResync (historyCursor : ℕ) :
      PresentsResync resync (.completeResync resync historyCursor)
  | releaseResync (clock : ℕ → Time) (errorCode : String) :
      PresentsResync resync (.releaseResync resync clock errorCode)
  | requireManual (errorCode : String) :
      PresentsResync resync (.requireManual resync errorCode)

theorem lockedResyncState_eq_none {s : JobStore} (h : ¬s.recovery.HeldBy resync) :
    s.lockedResyncState resync = none := by
  rw [Option.eq_none_iff_forall_ne_some]
  intro state hlocked
  obtain ⟨hmailbox, hheld⟩ := heldBy_of_lockedResyncState hlocked
  rw [← JobStore.recovery_of_mailbox hmailbox] at hheld
  exact h hheld

/-- Such a call answers `False` and changes nothing. -/
theorem eq_of_not_heldBy (hcall : PresentsResync resync call)
    (h : ¬t.store.recovery.HeldBy resync) (hs : t.step settings call = some (u, o)) :
    u = t ∧ o = .answer false := by
  have hnone : t.store.lockedResyncState resync = none := lockedResyncState_eq_none h
  have hmanual : ∀ errorCode, requireManualResync t.store resync errorCode = (t.store, false) :=
    fun errorCode ↦ by rw [requireManualResync, hnone]
  cases hcall with
  | persistPage clock nextPageToken processedCount =>
    have hpage : Notifications.persistPage settings t.store clock resync nextPageToken
        processedCount = (t.store, false) := by
      rw [Notifications.persistPage]
      split
      · exact hmanual _
      · rw [checkpointBoundedResync, hnone]
    obtain ⟨-, rfl, rfl⟩ := eq_of_guarded hs
    rw [hpage]
    exact ⟨rfl, rfl⟩
  | completeResync historyCursor =>
    obtain ⟨-, rfl, rfl⟩ := eq_of_guarded hs
    rw [completeBoundedResync, hnone]
    exact ⟨rfl, rfl⟩
  | releaseResync clock errorCode =>
    obtain ⟨-, rfl, rfl⟩ := eq_of_guarded hs
    rw [releaseMailboxResync, hnone]
    exact ⟨rfl, rfl⟩
  | requireManual errorCode =>
    obtain ⟨-, rfl, rfl⟩ := eq_of_guarded hs
    rw [hmanual]
    exact ⟨rfl, rfl⟩

end

end MailTables

/-- What holds of the mailbox row in every interleaving of the transactions on jobs and mailbox. -/
structure MailboxRowConsistent (settings : Settings) : Prop where
  /-- The columns of the row agree with each other. -/
  columns : ∀ {s t tr}, (mailTables settings).init s →
    System.Run (mailTables settings) System.anyStep s tr t →
    ∀ state, t.store.mailbox = some state →
      (state.resyncState = .processing ↔ state.resyncLeaseToken.isSome = true) ∧
      (state.resyncState = .processing ↔ state.resyncLeaseExpiresAt.isSome = true) ∧
      (state.resyncRequired = true ↔ state.resyncState ≠ .idle) ∧
      (state.resyncState = .idle → state.resyncPageToken = none ∧ state.resyncMessageCount = 0 ∧
        state.resyncAttemptCount = 0 ∧ state.resyncNextAttemptAt = none) ∧
      state.resyncMessageCount < settings.resyncMaxMessages
  /-- A recovery has messages left to list: `remaining` is positive. -/
  remaining : ∀ {s t tr}, (mailTables settings).init s →
    System.Run (mailTables settings) System.anyStep s tr t →
    ∀ resync ∈ t.resyncClaims, 0 < settings.resyncMaxMessages - resync.messageCount
  /-- A claim that is not the latest one changes nothing. -/
  latest : ∀ {s t u tr call o}, (mailTables settings).init s →
    System.Run (mailTables settings) System.anyStep s tr t →
    ∀ resync, MailTables.PresentsResync resync call → t.resyncClaims.head? ≠ some resync →
      t.step settings call = some (u, o) → u = t ∧ o = .answer false
  /-- Nor does one that has once lost its lease, whoever promoted or released it. -/
  lost : ∀ {s t u v tr tr' call o}, (mailTables settings).init s →
    System.Run (mailTables settings) System.anyStep s tr t →
    ∀ resync ∈ t.resyncClaims, t.store.recovery.leaseToken ≠ some resync.leaseToken →
      System.Run (mailTables settings) System.anyStep t tr' u →
      MailTables.PresentsResync resync call → u.step settings call = some (v, o) →
      v = u ∧ o = .answer false

open MailTables in
/-- **The mailbox row is consistent, and only the latest claim moves its recovery.** -/
theorem mailboxRowConsistent (settings : Settings) : MailboxRowConsistent settings where
  columns hinit hrun state hmailbox := by
    have hrow := (rowInvariant_of_run hinit hrun).row
    rw [JobStore.recovery_of_mailbox hmailbox] at hrow
    exact ⟨hrow.leaseToken.symm, hrow.leaseExpiresAt.symm, hrow.required, hrow.idle, hrow.below⟩
  remaining hinit hrun resync hmem :=
    Nat.sub_pos_of_lt ((rowInvariant_of_run hinit hrun).owned.below resync hmem)
  latest {s t u tr call o} hinit hrun resync hcall hhead hs := by
    by_cases hgranted : resync ∈ t.resyncClaims
    · have howned := (rowInvariant_of_run hinit hrun).owned
      exact eq_of_not_heldBy hcall (fun hheld ↦ hhead (howned.head_of_heldBy hgranted hheld).1) hs
    -- A claim that was never granted is not presented.
    · cases hcall with
      | _ => exact absurd (eq_of_guarded hs).1 hgranted
  lost hinit hrun resync hmem hlost hrun' hcall hs := by
    have hlost' := LostLease.run ⟨hmem, hlost⟩ (rowInvariant_of_run hinit hrun) hrun'
    exact eq_of_not_heldBy hcall (fun hheld ↦ hlost'.2 hheld.2.2) hs

end Onebox.Notifications
