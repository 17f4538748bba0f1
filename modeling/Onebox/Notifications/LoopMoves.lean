import Onebox.Notifications.WorkerLoop

/-!
# What a step of the loop does

The moves of a process, one for each way that a step of it can go, and what the transactions of a
step leave alone: the workers of the others, and the tokens that have been drawn.
-/

namespace Onebox.Notifications

open Python Transition

/-! ## The moves of a process -/

/-- **The move of a process**: how it is at, what it commits, and where it goes. -/
inductive LoopMove (env : LoopEnv) (w : MailWorld) (n : ℕ) (p : Process) :
    LoopEvent → LoopResult → Prop
  | passes {reading : ℚ} (later : p.monotonic ≤ reading) :
      LoopMove env w n p (.passes reading) ⟨[], { p with monotonic := reading }⟩
  | returns (phase : p.phase = .checking) (stopped : p.stopped = true) :
      LoopMove env w n p .returns (p.goto .returned)
  | overdue (phase : p.phase = .checking) (running : p.stopped = false)
      (due : (env.retentionCleanupIntervalSeconds : ℚ) ≤ p.monotonic - p.lastRetentionCleanup) :
      LoopMove env w n p .begins (p.goto .cleaning)
  | starts (phase : p.phase = .checking) (running : p.stopped = false) :
      LoopMove env w n p .begins (p.goto .beating)
  | cleans (phase : p.phase = .cleaning) :
      LoopMove env w n p .cleans
        ⟨[], { p with phase := .beating, lastRetentionCleanup := p.monotonic }⟩
  | cleaningFails (phase : p.phase = .cleaning) :
      LoopMove env w n p .cleaningFails (p.goto (p.afterError env))
  | beats {now : Time} (phase : p.phase = .beating) :
      LoopMove env w n p (.beats now) (p.commit [.heartbeat now] (.renewing .claiming))
  | beatingFails {committed : Bool} {now : Time} (phase : p.phase = .beating) :
      LoopMove env w n p (.beatingFails committed now)
        (p.commit (unlessLost committed (.heartbeat now)) (p.afterError env))
  | renews {event : RenewalEvent} {renewal : RenewalPhase} {calls : List MailLabel}
      {next : Option RenewalPhase} (phase : p.phase = .renewing renewal)
      (step : renewal.step env w event = some (calls, next)) :
      LoopMove env w n p (.renews event) (p.commit calls (next.elim .claiming .renewing))
  | grants {id : JobId} {clock : ℕ → Time} {jobs : JobStore} {claim : ClaimedNotificationJob}
      (phase : p.phase = .claiming)
      (claimed : claimNotificationJob env.settings w.jobs id clock = some (jobs, some claim)) :
      LoopMove env w n p (.claims id clock) (p.commit [.claimJob n id clock] .processing)
  | settles {id : JobId} {clock : ℕ → Time} {jobs : JobStore} (phase : p.phase = .claiming)
      (claimed : claimNotificationJob env.settings w.jobs id clock = some (jobs, none)) :
      LoopMove env w n p (.claims id clock)
        (p.commit [.claimJob n id clock] (p.afterNothing env))
  | findsNothing (phase : p.phase = .claiming) :
      LoopMove env w n p .claimsNothing (p.goto (p.afterNothing env))
  | claimingFails (phase : p.phase = .claiming) :
      LoopMove env w n p (.claimingFails none) (p.goto (p.afterError env))
  | claimLost {id : JobId} {clock : ℕ → Time} (phase : p.phase = .claiming) :
      LoopMove env w n p (.claimingFails (some (id, clock)))
        (p.commit (Process.lostClaim env w n id clock) (p.afterError env))
  | works {event : WorkerEvent} {worker : Worker} {result : StepResult}
      (phase : p.phase = .processing) (current : w.workers n = some worker)
      (step : w.workerStep env.toMailEnv worker event = some result) :
      LoopMove env w n p (.works event)
        (p.commit [.work n event] (if result.phase.isSome then .processing else .checking))
  | timesOut {since timeout : ℚ} (phase : p.phase = .waiting since timeout)
      (late : since + timeout ≤ p.monotonic) :
      LoopMove env w n p .timesOut (p.goto .checking)
  | wakes {since timeout : ℚ} (phase : p.phase = .waiting since timeout)
      (stopped : p.stopped = true) : LoopMove env w n p .wakes (p.goto .checking)
  | isStopped : LoopMove env w n p .isStopped ⟨[], { p with stopped := true }⟩
  | abandons (phase : p.phase = .processing) :
      LoopMove env w n p .isCancelled (p.commit [.work n .abandon] .cancelled)
  | isCancelled (idle : p.phase ≠ .processing)
      (ongoing : p.phase ≠ .returned ∧ p.phase ≠ .cancelled) :
      LoopMove env w n p .isCancelled (p.goto .cancelled)

section

variable {env : LoopEnv} {w : MailWorld} {n : ℕ} {p : Process} {event : LoopEvent}
  {result : LoopResult}

/-- **Inversion of a step.** -/
theorem loopMove_of_step (h : p.step env w n event = some result) :
    LoopMove env w n p event result := by
  cases event with
  | passes reading =>
    simp only [Process.step] at h
    split at h
    · obtain rfl := Option.some.inj h
      exact .passes ‹_›
    · cases h
  | begins =>
    simp only [Process.step] at h
    split at h
    · rename_i hphase
      split at h
      · cases h
      · rename_i hrunning
        split at h
        · obtain rfl := Option.some.inj h
          exact .overdue hphase (Bool.eq_false_iff.mpr hrunning) ‹_›
        · obtain rfl := Option.some.inj h
          exact .starts hphase (Bool.eq_false_iff.mpr hrunning)
    · cases h
  | returns =>
    simp only [Process.step] at h
    split at h
    · rename_i hphase
      split at h
      · obtain rfl := Option.some.inj h
        exact .returns hphase ‹_›
      · cases h
    · cases h
  | cleans =>
    simp only [Process.step] at h
    split at h
    · obtain rfl := Option.some.inj h
      exact .cleans ‹_›
    · cases h
  | cleaningFails =>
    simp only [Process.step] at h
    split at h
    · obtain rfl := Option.some.inj h
      exact .cleaningFails ‹_›
    · cases h
  | beats now =>
    simp only [Process.step] at h
    split at h
    · obtain rfl := Option.some.inj h
      exact .beats ‹_›
    · cases h
  | beatingFails committed now =>
    simp only [Process.step] at h
    split at h
    · obtain rfl := Option.some.inj h
      exact .beatingFails ‹_›
    · cases h
  | renews event =>
    simp only [Process.step] at h
    split at h
    · rename_i renewal hphase
      split at h
      · cases h
      · rename_i calls hstep
        obtain rfl := Option.some.inj h
        exact .renews hphase hstep
      · rename_i calls next hstep
        obtain rfl := Option.some.inj h
        exact .renews hphase hstep
    · cases h
  | claims id clock =>
    simp only [Process.step] at h
    split at h
    · rename_i hphase
      split at h
      · cases h
      · obtain rfl := Option.some.inj h
        exact .settles hphase ‹_›
      · obtain rfl := Option.some.inj h
        exact .grants hphase ‹_›
    · cases h
  | claimsNothing =>
    simp only [Process.step] at h
    split at h
    · obtain rfl := Option.some.inj h
      exact .findsNothing ‹_›
    · cases h
  | claimingFails committed =>
    simp only [Process.step] at h
    split at h
    · rename_i hphase
      split at h
      · obtain rfl := Option.some.inj h
        exact .claimingFails hphase
      · obtain rfl := Option.some.inj h
        exact .claimLost hphase
    · cases h
  | works event =>
    simp only [Process.step] at h
    split at h
    · rename_i hphase
      split at h
      · cases h
      · split at h
        · cases h
        · rename_i result hresult
          obtain rfl := Option.some.inj h
          obtain ⟨worker, hworker, hstep⟩ := Option.bind_eq_some_iff.mp hresult
          exact .works hphase hworker hstep
    · cases h
  | timesOut =>
    simp only [Process.step] at h
    split at h
    · rename_i hphase
      split at h
      · obtain rfl := Option.some.inj h
        exact .timesOut hphase ‹_›
      · cases h
    · cases h
  | wakes =>
    simp only [Process.step] at h
    split at h
    · rename_i hphase
      split at h
      · obtain rfl := Option.some.inj h
        exact .wakes hphase ‹_›
      · cases h
    · cases h
  | isStopped =>
    obtain rfl := Option.some.inj h
    exact .isStopped
  | isCancelled =>
    simp only [Process.step] at h
    split at h
    · cases h
    · cases h
    · obtain rfl := Option.some.inj h
      exact .abandons ‹_›
    · rename_i hreturned hcancelled hidle
      obtain rfl := Option.some.inj h
      exact .isCancelled hidle ⟨hreturned, hcancelled⟩

end

/-! ## The moves of a renewal -/

/-- How many steps a renewal has left. -/
def RenewalPhase.rank : RenewalPhase → ℕ
  | claiming => 4
  | asking _ => 3
  | completing _ _ _ => 2
  | failing _ _ => 1

/-- The lease that a renewal holds. -/
def RenewalPhase.leaseToken? : RenewalPhase → Option LeaseToken
  | claiming => none
  | asking leaseToken | completing leaseToken _ _ | failing leaseToken _ => some leaseToken

/-- What a step of a renewal does. -/
structure RenewalMove (env : LoopEnv) (w : MailWorld) (renewal : RenewalPhase)
    (calls : List MailLabel) (next : Option RenewalPhase) : Prop where
  outside : ∀ label ∈ calls, label.isOutside = true
  rank : next.elim 0 RenewalPhase.rank < renewal.rank
  /-- It keeps its lease, or is granted one. -/
  lease : ∀ leaseToken, next.bind RenewalPhase.leaseToken? = some leaseToken →
    renewal.leaseToken? = some leaseToken ∨ ∃ now, calls = [.claimWatch now] ∧
      (claimWatchRenewal env.settings w.jobs now).2 = some leaseToken

section

variable {env : LoopEnv} {w : MailWorld} {renewal : RenewalPhase} {event : RenewalEvent}
  {calls : List MailLabel} {next : Option RenewalPhase}

theorem isOutside_unlessLost {committed : Bool} {label : MailLabel} (h : label.isOutside = true) :
    ∀ call ∈ unlessLost committed label, call.isOutside = true := by
  intro call hcall
  rw [unlessLost] at hcall
  split at hcall
  · rw [List.mem_singleton.mp hcall]
    exact h
  · cases hcall

theorem afterWatch_cases (env : LoopEnv) (leaseToken : LeaseToken) (response : Json) :
    (afterWatch env leaseToken response).rank ≤ 2 ∧
      (afterWatch env leaseToken response).leaseToken? = some leaseToken := by
  rw [afterWatch]
  split
  · split
    · exact ⟨Nat.le_succ 1, rfl⟩
    · split
      · exact ⟨Nat.le_refl 2, rfl⟩
      · exact ⟨Nat.le_succ 1, rfl⟩
  · exact ⟨Nat.le_succ 1, rfl⟩

theorem renewalMove_of_step (h : renewal.step env w event = some (calls, next)) :
    RenewalMove env w renewal calls next := by
  have hover : ∀ leaseToken, (none : Option RenewalPhase).bind RenewalPhase.leaseToken? =
      some leaseToken → renewal.leaseToken? = some leaseToken ∨ ∃ now, calls = [.claimWatch now] ∧
        (claimWatchRenewal env.settings w.jobs now).2 = some leaseToken := by
    rintro _ ⟨⟩
  cases event with
  | unconfigured =>
    simp only [RenewalPhase.step] at h
    split at h
    · obtain ⟨rfl, rfl⟩ := Prod.mk.inj (Option.some.inj h)
      exact ⟨List.forall_mem_nil _, Nat.succ_pos 3, hover⟩
    · cases h
  | claims now =>
    simp only [RenewalPhase.step] at h
    split at h
    · obtain ⟨rfl, rfl⟩ := Prod.mk.inj (Option.some.inj h)
      refine ⟨List.forall_mem_singleton.mpr rfl, ?_, fun leaseToken htoken ↦ Or.inr ⟨now, rfl, ?_⟩⟩
      · rcases (claimWatchRenewal env.settings w.jobs now).2 with _ | leaseToken
        · exact Nat.succ_pos 3
        · exact Nat.lt_succ_self 3
      · rcases hclaim : (claimWatchRenewal env.settings w.jobs now).2 with _ | granted
        · rw [hclaim] at htoken
          cases htoken
        · rw [hclaim] at htoken
          exact htoken
    · cases h
  | claimFails committed now =>
    simp only [RenewalPhase.step] at h
    split at h
    · obtain ⟨rfl, rfl⟩ := Prod.mk.inj (Option.some.inj h)
      exact ⟨isOutside_unlessLost rfl, Nat.succ_pos 3, hover⟩
    · cases h
  | answers response =>
    simp only [RenewalPhase.step] at h
    split at h
    · rename_i leaseToken
      obtain ⟨rfl, rfl⟩ := Prod.mk.inj (Option.some.inj h)
      obtain ⟨hrank, hlease⟩ := afterWatch_cases env leaseToken response
      exact ⟨List.forall_mem_nil _, Nat.lt_succ_of_le hrank,
        fun _ htoken ↦ Or.inl (hlease.symm.trans htoken)⟩
    · cases h
  | asksInVain failure =>
    simp only [RenewalPhase.step] at h
    split at h
    · obtain ⟨rfl, rfl⟩ := Prod.mk.inj (Option.some.inj h)
      exact ⟨List.forall_mem_nil _, Nat.lt_of_sub_eq_succ rfl, fun _ htoken ↦ Or.inl htoken⟩
    · cases h
  | completes =>
    simp only [RenewalPhase.step] at h
    split at h
    · obtain ⟨rfl, rfl⟩ := Prod.mk.inj (Option.some.inj h)
      exact ⟨List.forall_mem_singleton.mpr rfl, Nat.succ_pos 1, hover⟩
    · cases h
  | completionFails committed =>
    simp only [RenewalPhase.step] at h
    split at h
    · obtain ⟨rfl, rfl⟩ := Prod.mk.inj (Option.some.inj h)
      exact ⟨isOutside_unlessLost rfl, Nat.lt_succ_self 1, fun _ htoken ↦ Or.inl htoken⟩
    · cases h
  | fails now =>
    simp only [RenewalPhase.step] at h
    split at h
    · obtain ⟨rfl, rfl⟩ := Prod.mk.inj (Option.some.inj h)
      exact ⟨List.forall_mem_singleton.mpr rfl, Nat.succ_pos 0, hover⟩
    · cases h
  | failureFails committed now =>
    simp only [RenewalPhase.step] at h
    split at h
    · obtain ⟨rfl, rfl⟩ := Prod.mk.inj (Option.some.inj h)
      exact ⟨isOutside_unlessLost rfl, Nat.succ_pos 0, hover⟩
    · cases h

end

/-! ## What transactions leave alone -/

/-- The worker whose job a transaction is about. -/
def MailLabel.mover : MailLabel → Option ℕ
  | claimJob n _ _ | work n _ => some n
  | arrive _ _ | touch _ | remove _ | claimWatch _ | completeWatch _ _ _ | failWatch _ _ _
  | heartbeat _ | enqueue _ _ _ _ => none

/-- The tables are those of some run of calls. -/
def MailWorld.Tracked (env : MailEnv) (w : MailWorld) : Prop := ∃ t, Tracks env w t

section

variable {env : MailEnv} {w w' : MailWorld} {label : MailLabel} {reply : Reply} {n m : ℕ}
  {labels : List MailLabel} {made : List (MailLabel × Reply)}

theorem MailLabel.mover_of_isOutside (h : label.isOutside = true) : label.mover = none := by
  cases label with
  | heartbeat | claimJob | work => cases h
  | _ => rfl

theorem workers_of_step (hs : w.step env label = some (w', reply)) (h : label.mover ≠ some m) :
    w'.workers m = w.workers m := by
  rcases label with _ | _ | _ | _ | _ | _ | _ | _ | ⟨n, id, clock⟩ | ⟨n, event⟩
  case claimJob =>
    have hne : m ≠ n := fun heq ↦ h (congrArg some heq.symm)
    simp only [MailWorld.step] at hs
    split at hs
    · obtain ⟨rfl, -⟩ := Prod.mk.inj (Option.some.inj hs)
      exact MailWorld.setWorker_of_ne _ hne _
    · cases hs
  case work =>
    have hne : m ≠ n := fun heq ↦ h (congrArg some heq.symm)
    simp only [MailWorld.step] at hs
    split at hs
    · cases hs
    split at hs
    · cases hs
    obtain ⟨rfl, -⟩ := Prod.mk.inj (Option.some.inj hs)
    exact MailWorld.apply_of_ne _ hne _ _
  case arrive | touch =>
    obtain ⟨g, -, hpair⟩ := Option.map_eq_some_iff.mp hs
    obtain ⟨rfl, -⟩ := Prod.mk.inj hpair
    rfl
  case enqueue =>
    simp only [MailWorld.step] at hs
    split at hs
    · cases hs
    · obtain ⟨rfl, -⟩ := Prod.mk.inj (Option.some.inj hs)
      rfl
  all_goals
    obtain ⟨rfl, -⟩ := Prod.mk.inj (Option.some.inj hs)
    rfl

/-- Tokens are drawn in order. -/
theorem MailWorld.Tracked.step (h : w.Tracked env) (hs : w.step env label = some (w', reply)) :
    w'.Tracked env ∧ w.jobs.nextToken ≤ w'.jobs.nextToken := by
  obtain ⟨t, ht⟩ := h
  rcases ht.step hs with hstay | ⟨call, u, answer, -, -, hcall, hu⟩
  · exact ⟨⟨t, hstay⟩, by rw [← ht.store, ← hstay.store]⟩
  · refine ⟨⟨u, hu⟩, ?_⟩
    rw [← ht.store, ← hu.store]
    rcases (MailTables.storeMove_of_step hcall).tokens with ⟨-, hle⟩ | hsucc
    · exact hle
    · rw [hsucc]
      exact Nat.le_succ _

/-- Transactions made one after the other are a run. -/
theorem run_perform (h : w.perform env labels = some (w', made)) :
    System.Run (mailWorkers env) (fun _ label ↦ label ∈ labels) w made w' := by
  induction labels generalizing w made with
  | nil =>
    obtain ⟨rfl, rfl⟩ := Prod.mk.inj (Option.some.inj h)
    exact .nil w
  | cons label labels ih =>
    simp only [MailWorld.perform] at h
    split at h
    · cases h
    rename_i next reply hstep
    split at h
    · cases h
    rename_i last rest hrest
    obtain ⟨rfl, rfl⟩ := Prod.mk.inj (Option.some.inj h)
    have hfirst : System.Run (mailWorkers env) (fun _ label' ↦ label' ∈ label :: labels) w
        [(label, reply)] next := .single List.mem_cons_self hstep
    exact hfirst.append ((ih hrest).weaken fun _ _ hmem ↦ List.mem_cons_of_mem _ hmem)

theorem workers_perform (h : w.perform env labels = some (w', made))
    (hmover : ∀ label ∈ labels, label.mover ≠ some m) : w'.workers m = w.workers m := by
  refine (run_perform h).invariant (I := fun t ↦ t.workers m = w.workers m) rfl ?_
  intro s label t reply hworkers hmem hs
  exact (workers_of_step hs (hmover label hmem)).trans hworkers

theorem tracked_perform (h : w.perform env labels = some (w', made)) (hw : w.Tracked env) :
    w'.Tracked env ∧ w.jobs.nextToken ≤ w'.jobs.nextToken :=
  (run_perform h).relates (R := fun s t ↦ s.jobs.nextToken ≤ t.jobs.nextToken)
    (fun _ ↦ Nat.le_refl _) (fun _ _ _ ↦ Nat.le_trans) hw fun _ _ _ _ ht _ hs ↦ ht.step hs

theorem claimWatchRenewal_granted {settings : Settings} {s : JobStore} {now : Time}
    {leaseToken : LeaseToken} (h : (claimWatchRenewal settings s now).2 = some leaseToken) :
    leaseToken = s.nextToken ∧
      (claimWatchRenewal settings s now).1.nextToken = s.nextToken + 1 := by
  rw [claimWatchRenewal] at h ⊢
  split at h
  · cases h
  rename_i hbackoff
  split at h
  · cases h
  rename_i hexpiry
  split at h
  · cases h
  rename_i hlease
  rw [if_neg hbackoff, if_neg hexpiry, if_neg hlease]
  exact ⟨(Option.some.inj h).symm, rfl⟩

end

end Onebox.Notifications
