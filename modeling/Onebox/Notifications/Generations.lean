import Onebox.Notifications.Tables

/-!
# Recovery generations

The generation of the mailbox row counts its recoveries: it rises whenever the mailbox leaves idle,
and never falls. Two idle readings of one generation therefore have no recovery between them. A
worker carries the generation of its claim to the transaction that advances the cursor, and that
transaction insists on an idle mailbox of this generation, so it can rely on what it read in
between.
-/

namespace Onebox.Notifications

open Python Transition

/-! ## The order of the generations -/

/-- From `s` to `s'` the generation does not fall, and as long as it stays, an idle mailbox stays
idle and its cursor does not fall. -/
structure JobStore.Fences (s s' : JobStore) : Prop where
  generation : s.recovery.generation ≤ s'.recovery.generation
  idle : s.recovery.state = .idle → s'.recovery.generation = s.recovery.generation →
    s'.recovery.state = .idle ∧ s.cursor ≤ s'.cursor
  present : s.mailbox.isSome = true → s'.mailbox.isSome = true
  baseline : s.historyCursor.isSome = true → s'.historyCursor.isSome = true

section

variable {settings : Settings} {token : LeaseToken} {r r' : RecoveryColumns} {s s' s'' : JobStore}
  {claims claims' : List ClaimedMailboxResync}

namespace JobStore.Fences

theorem refl (s : JobStore) : s.Fences s := ⟨le_rfl, fun h _ ↦ ⟨h, le_rfl⟩, id, id⟩

theorem trans (h : s.Fences s') (h' : s'.Fences s'') : s.Fences s'' := by
  refine ⟨le_trans h.generation h'.generation, fun hidle hsame ↦ ?_, fun hs ↦
    h'.present (h.present hs), fun hs ↦ h'.baseline (h.baseline hs)⟩
  -- The generation in the middle lies between two equal ones.
  have hmiddle : s'.recovery.generation = s.recovery.generation :=
    le_antisymm (le_trans h'.generation (Nat.le_of_eq hsame)) h.generation
  obtain ⟨hidle', hcursor⟩ := h.idle hidle hmiddle
  obtain ⟨hidle'', hcursor'⟩ := h'.idle hidle' (by rw [hsame, hmiddle])
  exact ⟨hidle'', le_trans hcursor hcursor'⟩

/-- Between two idle stores of one generation, the store was idle and of this generation. -/
theorem between (h : s.Fences s') (h' : s'.Fences s'') (hidle : s.recovery.state = .idle)
    (hsame : s''.recovery.generation = s.recovery.generation) :
    s'.recovery.state = .idle ∧ s'.recovery.generation = s.recovery.generation := by
  have hmiddle : s'.recovery.generation = s.recovery.generation :=
    le_antisymm (le_trans h'.generation (Nat.le_of_eq hsame)) h.generation
  exact ⟨(h.idle hidle hmiddle).1, hmiddle⟩

end JobStore.Fences

theorem RecoveryMove.generation (h : RecoveryMove settings token r claims r' claims') :
    r.generation ≤ r'.generation := by
  cases h with
  | start idle leases columns =>
    rw [columns]
    exact Nat.le_succ _
  | _ => exact le_rfl

/-- The generation rises when the mailbox leaves idle. -/
theorem RecoveryMove.leaves_idle (h : RecoveryMove settings token r claims r' claims')
    (hidle : r.state = .idle) (hleft : r'.state ≠ .idle) : r.generation < r'.generation := by
  cases h with
  | stay => exact absurd hidle hleft
  | start idle leases columns =>
    rw [columns]
    exact Nat.lt_succ_self _
  | grant required =>
    rw [hidle] at required
    cases required
  | complete processing => exact absurd rfl hleft
  | retry processing | manual processing =>
    rw [hidle] at processing
    cases processing
  | checkpoint granted held =>
    have hprocessing := held.1
    rw [hidle] at hprocessing
    cases hprocessing

theorem StoreMove.fences (h : StoreMove settings s s' claims claims') : s.Fences s' := by
  refine ⟨h.move.generation, fun hidle hsame ↦ ⟨?_, ?_⟩, h.present, h.baseline⟩
  · by_contra hleft
    exact absurd hsame (Nat.ne_of_gt (h.move.leaves_idle hidle hleft))
  · rcases h.cursor with hprocessing | hcursor
    · rw [hidle] at hprocessing
      cases hprocessing
    · exact hcursor

end

/-! ## The generation of a claim -/

namespace MailTables

/-- No claim is ahead of the mailbox. -/
def ClaimsBehind (t : MailTables) : Prop :=
  ∀ claim ∈ t.jobClaims, claim.resyncGeneration ≤ t.store.recovery.generation

section

variable {settings : Settings} {t u v : MailTables} {call : TableCall} {o : TableReply}
  {tr : List (TableCall × TableReply)}

/-- The step lemma. -/
theorem ClaimsBehind.step (hI : t.ClaimsBehind) (hs : t.step settings call = some (u, o)) :
    u.ClaimsBehind := by
  have hle : t.store.recovery.generation ≤ u.store.recovery.generation :=
    (storeMove_of_step hs).fences.generation
  intro claim hmem
  rcases jobClaims_of_step hs with hsame | ⟨id, clock, granted, -, hclaim, hnew⟩
  · rw [hsame] at hmem
    exact le_trans (hI claim hmem) hle
  · rw [hnew] at hmem
    rcases List.mem_cons.mp hmem with rfl | hold
    · rw [claimNotificationJob_resyncGeneration hclaim]
      exact hle
    · exact le_trans (hI claim hold) hle

/-- The run lemma. -/
theorem fences_of_run (hrun : System.Run (mailTables settings) System.anyStep t tr u)
    (hI : t.ClaimsBehind) : u.ClaimsBehind ∧ t.store.Fences u.store :=
  hrun.relates (I := ClaimsBehind) (R := fun t u ↦ t.store.Fences u.store)
    (fun t ↦ .refl t.store) (fun _ _ _ h h' ↦ h.trans h') hI
    fun _ _ _ _ hI _ hs ↦ ⟨hI.step hs, (storeMove_of_step hs).fences⟩

theorem claimsBehind_of_run (hinit : (mailTables settings).init t)
    (hrun : System.Run (mailTables settings) System.anyStep t tr u) : u.ClaimsBehind := by
  refine (fences_of_run hrun fun claim hmem ↦ ?_).1
  rw [hinit.2.2.1] at hmem
  cases hmem

theorem resyncGeneration_le_of_step (hs : t.step settings call = some (u, o))
    {state state' : GmailMailboxState} (ht : t.store.mailbox = some state)
    (hu : u.store.mailbox = some state') : state.resyncGeneration ≤ state'.resyncGeneration := by
  have hle := (storeMove_of_step hs).move.generation
  rwa [JobStore.recovery_of_mailbox ht, JobStore.recovery_of_mailbox hu] at hle

theorem resyncGeneration_lt_of_step (hs : t.step settings call = some (u, o))
    {state state' : GmailMailboxState} (ht : t.store.mailbox = some state)
    (hu : u.store.mailbox = some state') (hidle : state.resyncState = .idle)
    (hleft : state'.resyncState ≠ .idle) : state.resyncGeneration < state'.resyncGeneration := by
  have hlt := (storeMove_of_step hs).move.leaves_idle
  rw [JobStore.recovery_of_mailbox ht, JobStore.recovery_of_mailbox hu] at hlt
  exact hlt hidle hleft

end

end MailTables

/-! ## What a completion can rely on -/

section

variable {settings : Settings} {s : JobStore} {clock : ℕ → Time} {claim : ClaimedNotificationJob}
  {historyCursor : ℕ}

/-- A job is completed on an idle mailbox of the claim's generation. -/
theorem completeJobAndAdvanceCursor_spec
    (h : (completeJobAndAdvanceCursor settings s clock claim historyCursor).2 = true) :
    ∃ job state state', s.heldJob claim = some job ∧ s.mailbox = some state ∧
      state.resyncState = .idle ∧ state.resyncGeneration = claim.resyncGeneration ∧
      state'.recovery = state.recovery ∧
      state'.historyCursor = some (max (state.historyCursor.getD 0) historyCursor) ∧
      (completeJobAndAdvanceCursor settings s clock claim historyCursor).1
        = (s.setMailbox state').setJob claim.id { job with
            state := .succeeded
            lastErrorCode := none
            processedAt := some (clock 0)
            nextAttemptAt := none } := by
  rw [completeJobAndAdvanceCursor] at h ⊢
  split at h
  · cases h
  · rename_i job hheld
    split at h
    · cases h
    · rename_i state hmailbox
      split at h
      · cases h
      · rename_i hcurrent
        obtain ⟨hidle, hgeneration⟩ := not_or.mp hcurrent
        rw [if_neg hcurrent]
        refine ⟨job, state, { state with
          historyCursor := some (max (state.historyCursor.getD 0) historyCursor)
          lastErrorCode := none }, hheld, hmailbox, not_not.mp hidle, not_not.mp hgeneration, rfl,
          rfl, rfl⟩

/-- A completion leaves the recovery columns alone, in whatever way it ends. -/
theorem completeJobAndAdvanceCursor_recovery :
    (completeJobAndAdvanceCursor settings s clock claim historyCursor).1.recovery = s.recovery := by
  rw [completeJobAndAdvanceCursor]
  split
  · rfl
  · split
    · rfl
    · rename_i state hmailbox
      split
      · rfl
      · rw [JobStore.recovery_of_mailbox hmailbox]
        rfl

/-- A stale `fail_job` leaves the mailbox alone. -/
theorem failJob_of_stale {args : FailArgs} {state : GmailMailboxState}
    (hmailbox : s.mailbox = some state)
    (hstale : state.resyncGeneration ≠ claim.resyncGeneration ∨ state.resyncState ≠ .idle) :
    (failJob settings s clock claim args).mailbox = s.mailbox := by
  rw [failJob]
  dsimp only
  split
  · rfl
  · rw [hmailbox]
    dsimp only
    rw [if_pos hstale]
    exact hmailbox

end

/-- What holds of every interleaving of the transactions on jobs and mailbox. -/
structure GenerationsFenceWorkers (settings : Settings) : Prop where
  /-- A mailbox row stays, and its generation does not fall. -/
  monotone : ∀ {s t u tr call o}, (mailTables settings).init s →
    System.Run (mailTables settings) System.anyStep s tr t → t.step settings call = some (u, o) →
    ∀ state, t.store.mailbox = some state →
      ∃ state', u.store.mailbox = some state' ∧ state.resyncGeneration ≤ state'.resyncGeneration
  /-- The generation rises whenever the mailbox leaves idle. -/
  leaving : ∀ {s t u tr call o}, (mailTables settings).init s →
    System.Run (mailTables settings) System.anyStep s tr t → t.step settings call = some (u, o) →
    ∀ state state', t.store.mailbox = some state → u.store.mailbox = some state' →
      state.resyncState = .idle → state'.resyncState ≠ .idle →
      state.resyncGeneration < state'.resyncGeneration
  /-- A worker that has read an idle mailbox after its claim, and completes its job later: in all
  states in between the mailbox was idle and of the generation that was read. -/
  unbroken : ∀ {s t u x v w tr tr₁ tr₂ claim clock historyCursor state},
    (mailTables settings).init s → System.Run (mailTables settings) System.anyStep s tr t →
    t.step settings (.readMailbox claim) = some (u, .mailbox (some state)) →
    state.resyncState = .idle → System.Run (mailTables settings) System.anyStep u tr₁ x →
    System.Run (mailTables settings) System.anyStep x tr₂ v →
    v.step settings (.completeJob claim clock historyCursor) = some (w, .answer true) →
    ∀ between ∈ [x, v, w], ∃ state', between.store.mailbox = some state' ∧
      state'.resyncState = .idle ∧ state'.resyncGeneration = state.resyncGeneration
  /-- And the cursor at the completion is at least the one that was read, and is not lowered. -/
  cursor : ∀ {s t u v w tr tr' claim clock historyCursor state cursor},
    (mailTables settings).init s → System.Run (mailTables settings) System.anyStep s tr t →
    t.step settings (.readMailbox claim) = some (u, .mailbox (some state)) →
    state.resyncState = .idle → state.historyCursor = some cursor →
    System.Run (mailTables settings) System.anyStep u tr' v →
    v.step settings (.completeJob claim clock historyCursor) = some (w, .answer true) →
    cursor ≤ v.store.cursor ∧ v.store.cursor ≤ w.store.cursor
  /-- A stale `fail_job` changes no column of the mailbox. -/
  stale : ∀ {s t u tr claim clock args o}, (mailTables settings).init s →
    System.Run (mailTables settings) System.anyStep s tr t →
    t.step settings (.failJob claim clock args) = some (u, o) →
    ∀ state, t.store.mailbox = some state →
      state.resyncGeneration ≠ claim.resyncGeneration ∨ state.resyncState ≠ .idle →
      u.store.mailbox = some state

section

variable {settings : Settings} {t u v w x : MailTables} {claim : ClaimedNotificationJob}
  {clock : ℕ → Time} {historyCursor : ℕ} {state : GmailMailboxState}
  {tr tr' : List (TableCall × TableReply)}

namespace MailTables

theorem step_readMailbox
    (hs : t.step settings (.readMailbox claim) = some (u, .mailbox (some state))) :
    claim ∈ t.jobClaims ∧ u = t ∧ t.store.mailbox = some state := by
  obtain ⟨hgranted, rfl, hreply⟩ := eq_of_guarded hs
  exact ⟨hgranted, rfl, (TableReply.mailbox.inj hreply).symm⟩

/-- A completion that answers `True` finds an idle mailbox of the claim's generation, and leaves its
recovery columns alone. -/
theorem step_completeJob
    (hs : v.step settings (.completeJob claim clock historyCursor) = some (w, .answer true)) :
    v.store.recovery.state = .idle ∧ v.store.recovery.generation = claim.resyncGeneration ∧
      w.store.recovery = v.store.recovery ∧ w.store.mailbox.isSome = true := by
  obtain ⟨-, rfl, hreply⟩ := eq_of_guarded hs
  obtain ⟨job, state, state', -, hmailbox, hidle, hgeneration, hrecovery, -, hstore⟩ :=
    completeJobAndAdvanceCursor_spec (TableReply.answer.inj hreply).symm
  have hmailbox' : (completeJobAndAdvanceCursor settings v.store clock claim
      historyCursor).1.mailbox = some state' := by
    rw [hstore]
    rfl
  rw [JobStore.recovery_of_mailbox hmailbox]
  refine ⟨hidle, hgeneration, ?_, ?_⟩
  · rw [setStore, JobStore.recovery_of_mailbox hmailbox', hrecovery]
  · rw [setStore, hmailbox']
    rfl

/-- An idle reading and a later completion under one claim are of one generation: the claim is not
ahead of the reading, and the completion insists on the generation of the claim. -/
theorem generation_of_completion (hI : t.ClaimsBehind) (hgranted : claim ∈ t.jobClaims)
    (hrun : System.Run (mailTables settings) System.anyStep t tr v)
    (hs : v.step settings (.completeJob claim clock historyCursor) = some (w, .answer true)) :
    v.store.recovery.generation = t.store.recovery.generation := by
  have hfences : t.store.Fences v.store := (fences_of_run hrun hI).2
  have hclaim : v.store.recovery.generation = claim.resyncGeneration := (step_completeJob hs).2.1
  exact le_antisymm (by rw [hclaim]; exact hI claim hgranted) hfences.generation

end MailTables

open MailTables in
/-- **Recovery generations fence stale history workers.** -/
theorem generationsFenceWorkers (settings : Settings) : GenerationsFenceWorkers settings where
  monotone _ _ hs state hmailbox := by
    have hpresent := (storeMove_of_step hs).present (by rw [hmailbox]; rfl)
    obtain ⟨state', hmailbox'⟩ := Option.isSome_iff_exists.mp hpresent
    exact ⟨state', hmailbox', resyncGeneration_le_of_step hs hmailbox hmailbox'⟩
  leaving _ _ hs _ _ hmailbox hmailbox' hidle hleft :=
    resyncGeneration_lt_of_step hs hmailbox hmailbox' hidle hleft
  unbroken {s t u x v w tr tr₁ tr₂ claim clock historyCursor state} hinit hrun hread hidle hrun₁
      hrun₂ hs := by
    obtain ⟨hgranted, rfl, hmailbox⟩ := step_readMailbox hread
    have hI := claimsBehind_of_run hinit hrun
    obtain ⟨hIx, hfences₁⟩ := fences_of_run hrun₁ hI
    obtain ⟨-, hfences₂⟩ := fences_of_run hrun₂ hIx
    have hsame := generation_of_completion hI hgranted (hrun₁.append hrun₂) hs
    obtain ⟨hidle', -, hrecovery, hpresent⟩ := step_completeJob hs
    have hx := hfences₁.between hfences₂ (by rwa [JobStore.recovery_of_mailbox hmailbox]) hsame
    have hu : u.store.mailbox.isSome = true := by rw [hmailbox]; rfl
    -- Each of the three stores has a row, whose recovery columns are known.
    suffices hrow : ∀ between ∈ [x, v, w], between.store.mailbox.isSome = true ∧
        between.store.recovery.state = .idle ∧
        between.store.recovery.generation = u.store.recovery.generation by
      intro between hmem
      obtain ⟨hsome, hstate, hgeneration⟩ := hrow between hmem
      obtain ⟨state', hstate'⟩ := Option.isSome_iff_exists.mp hsome
      rw [JobStore.recovery_of_mailbox hstate'] at hstate hgeneration
      rw [JobStore.recovery_of_mailbox hmailbox] at hgeneration
      exact ⟨state', hstate', hstate, hgeneration⟩
    intro between hmem
    simp only [List.mem_cons, List.not_mem_nil, or_false] at hmem
    rcases hmem with rfl | rfl | rfl
    · exact ⟨hfences₁.present hu, hx⟩
    · exact ⟨hfences₂.present (hfences₁.present hu), hidle', hsame⟩
    · rw [hrecovery]
      exact ⟨hpresent, hidle', hsame⟩
  cursor {s t u v w tr tr' claim clock historyCursor state cursor} hinit hrun hread hidle hcursor
      hrun' hs := by
    obtain ⟨hgranted, rfl, hmailbox⟩ := step_readMailbox hread
    have hI := claimsBehind_of_run hinit hrun
    have hsame := generation_of_completion hI hgranted hrun' hs
    obtain ⟨hidle', -, hrecovery, -⟩ := step_completeJob hs
    have hbefore := (fences_of_run hrun' hI).2.idle
      (by rwa [JobStore.recovery_of_mailbox hmailbox]) hsame
    have hafter := (storeMove_of_step hs).fences.idle hidle' (by rw [hrecovery])
    refine ⟨?_, hafter.2⟩
    rw [JobStore.cursor_of_mailbox hmailbox, hcursor, Option.getD_some] at hbefore
    exact hbefore.2
  stale _ _ hs state hmailbox hstale := by
    obtain ⟨-, rfl, -⟩ := eq_of_guarded hs
    rw [← hmailbox]
    exact failJob_of_stale hmailbox hstale

end

end Onebox.Notifications
