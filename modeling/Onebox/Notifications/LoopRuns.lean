import Mathlib.Tactic.Linarith
import Onebox.Notifications.LoopMoves

/-!
# Runs of the loop

What the processes do to the tables is a run of the workers. No two of them hold one watch lease. A
process makes a heartbeat before each claim of a job; it ends only when it is asked to; it cleans up
and polls no more often than the settings say; and of each iteration, and so of what it does after
it has been asked to stop, the number of steps is bounded.
-/

namespace Onebox.Notifications

open Python Transition

/-! ## Steps of the system -/

/-- A step, taken apart. -/
inductive FleetMove (env : LoopEnv) (f : Fleet) :
    FleetLabel → Fleet → List (MailLabel × Reply) → Prop
  | outside {label : MailLabel} {mail : MailWorld} {made : List (MailLabel × Reply)}
      (outside : label.isOutside = true)
      (performed : f.mail.perform env.toMailEnv [label] = some (mail, made)) :
      FleetMove env f (.outside label) { f with mail := mail } made
  | run {n : ℕ} {event : LoopEvent} {result : LoopResult} {mail : MailWorld}
      {made : List (MailLabel × Reply)}
      (move : LoopMove env f.mail n (f.processes n) event result)
      (performed : f.mail.perform env.toMailEnv result.calls = some (mail, made)) :
      FleetMove env f (.run n event) ⟨mail, Function.update f.processes n result.process⟩ made

section

variable {env : LoopEnv} {w w' : MailWorld} {n m : ℕ} {p : Process} {event : LoopEvent}
  {result : LoopResult} {label : MailLabel} {made : List (MailLabel × Reply)} {f g : Fleet}
  {move : FleetLabel}

theorem fleetMove_of_step (h : f.step env move = some (g, made)) : FleetMove env f move g made := by
  cases move with
  | outside label =>
    simp only [Fleet.step] at h
    split at h
    · obtain ⟨⟨mail, made⟩, hperformed, heq⟩ := Option.map_eq_some_iff.mp h
      obtain ⟨rfl, rfl⟩ := Prod.mk.inj heq
      exact .outside ‹_› hperformed
    · cases h
  | run n event =>
    simp only [Fleet.step] at h
    split at h
    · cases h
    · rename_i result hresult
      obtain ⟨⟨mail, made⟩, hperformed, heq⟩ := Option.map_eq_some_iff.mp h
      obtain ⟨rfl, rfl⟩ := Prod.mk.inj heq
      exact .run (loopMove_of_step hresult) hperformed

theorem eq_of_perform_nil (h : w.perform env.toMailEnv [] = some (w', made)) :
    w' = w ∧ made = [] := by
  obtain ⟨rfl, rfl⟩ := Prod.mk.inj (Option.some.inj h)
  exact ⟨rfl, rfl⟩

theorem step_of_perform (h : w.perform env.toMailEnv [label] = some (w', made)) :
    ∃ reply, w.step env.toMailEnv label = some (w', reply) ∧ made = [(label, reply)] := by
  simp only [MailWorld.perform] at h
  split at h
  · cases h
  · rename_i next reply hstep
    obtain ⟨rfl, rfl⟩ := Prod.mk.inj (Option.some.inj h)
    exact ⟨reply, hstep, rfl⟩

theorem mover_lostClaim (w : MailWorld) (n : ℕ) (id : JobId) (clock : ℕ → Time) :
    ∀ label ∈ Process.lostClaim env w n id clock, label.mover = some n := by
  rw [Process.lostClaim, List.forall_mem_cons]
  refine ⟨rfl, ?_⟩
  split
  · exact List.forall_mem_singleton.mpr rfl
  · exact List.forall_mem_nil _

/-- A process touches no job but its own. -/
theorem LoopMove.mover (h : LoopMove env w n p event result) :
    ∀ label ∈ result.calls, label.mover = none ∨ label.mover = some n := by
  cases h with
  | beats => exact List.forall_mem_singleton.mpr (Or.inl rfl)
  | beatingFails =>
    intro label hlabel
    rw [Process.commit, unlessLost] at hlabel
    dsimp only at hlabel
    split at hlabel
    · rw [List.mem_singleton.mp hlabel]
      exact Or.inl rfl
    · cases hlabel
  | renews phase step =>
    intro label hlabel
    exact Or.inl (MailLabel.mover_of_isOutside ((renewalMove_of_step step).outside label hlabel))
  | grants | settles | works | abandons => exact List.forall_mem_singleton.mpr (Or.inr rfl)
  | claimLost => exact fun label hlabel ↦ Or.inr (mover_lostClaim w n _ _ label hlabel)
  | _ => exact List.forall_mem_nil _

theorem LoopMove.workers_of_ne (h : LoopMove env w n p event result)
    (performed : w.perform env.toMailEnv result.calls = some (w', made)) (hne : m ≠ n) :
    w'.workers m = w.workers m := by
  refine workers_perform performed fun label hlabel ↦ ?_
  rcases h.mover label hlabel with hmover | hmover
  · rw [hmover]
    exact (Option.some_ne_none m).symm
  · rw [hmover]
    exact fun heq ↦ hne (Option.some.inj heq).symm

/-- A job is claimed for a worker without one. -/
theorem claimJob_cases {id : JobId} {clock : ℕ → Time} {reply : Reply}
    (h : w.step env.toMailEnv (.claimJob n id clock) = some (w', reply)) :
    w.workers n = none ∧ ∃ jobs claim, claimNotificationJob env.settings w.jobs id clock =
      some (jobs, claim) ∧ w'.workers n = claim.map fun claim ↦ ⟨claim, .claimed⟩ := by
  simp only [MailWorld.step] at h
  split at h
  · rename_i jobs claim hfree hclaim
    obtain ⟨rfl, -⟩ := Prod.mk.inj (Option.some.inj h)
    exact ⟨hfree, jobs, claim, hclaim, MailWorld.setWorker_self _ _ _⟩
  · cases h

theorem workers_work {event : WorkerEvent} {worker : Worker} {result : StepResult} {reply : Reply}
    (h : w.step env.toMailEnv (.work n event) = some (w', reply))
    (hcurrent : w.workers n = some worker)
    (hresult : w.workerStep env.toMailEnv worker event = some result) :
    (w'.workers n).isSome = result.phase.isSome := by
  simp only [MailWorld.step, hcurrent, hresult] at h
  obtain ⟨rfl, -⟩ := Prod.mk.inj (Option.some.inj h)
  rw [MailWorld.apply_self, Option.isSome_map]

theorem workers_abandon {reply : Reply}
    (h : w.step env.toMailEnv (.work n .abandon) = some (w', reply)) : w'.workers n = none := by
  simp only [MailWorld.step] at h
  split at h
  · cases h
  split at h
  · cases h
  rename_i result hresult
  obtain rfl := Option.some.inj hresult
  obtain ⟨rfl, -⟩ := Prod.mk.inj (Option.some.inj h)
  exact MailWorld.apply_self _ _ _ _

/-! ## The job of a process -/

/-- A process has a job exactly while it is processing. -/
def Fleet.Held (f : Fleet) (n : ℕ) : Prop :=
  (f.processes n).phase = .processing ↔ (f.mail.workers n).isSome = true

/-- Neither before nor after the step is the process processing. -/
theorem held_of_idle {phase : LoopPhase} (hphase : phase ≠ .processing)
    (hnone : w'.workers n = none) : phase = .processing ↔ (w'.workers n).isSome = true := by
  rw [hnone]
  exact ⟨fun h ↦ absurd h hphase, fun h ↦ absurd h Bool.false_ne_true⟩

theorem lostClaim_workers {id : JobId} {clock : ℕ → Time}
    (h : w.perform env.toMailEnv (Process.lostClaim env w n id clock) = some (w', made)) :
    w'.workers n = none := by
  rw [Process.lostClaim] at h
  rcases hclaim : claimNotificationJob env.settings w.jobs id clock with _ | ⟨jobs, _ | claim⟩
  · rw [hclaim] at h
    obtain ⟨reply, hstep, -⟩ := step_of_perform h
    obtain ⟨-, jobs, claim, hsome, -⟩ := claimJob_cases hstep
    rw [hclaim] at hsome
    cases hsome
  · rw [hclaim] at h
    obtain ⟨reply, hstep, -⟩ := step_of_perform h
    obtain ⟨-, jobs', claim, hsome, hworkers⟩ := claimJob_cases hstep
    rw [hclaim] at hsome
    obtain ⟨-, rfl⟩ := Prod.mk.inj (Option.some.inj hsome)
    exact hworkers
  · rw [hclaim, MailWorld.perform] at h
    split at h
    · cases h
    split at h
    · cases h
    rename_i last rest hrest
    obtain ⟨rfl, -⟩ := Prod.mk.inj (Option.some.inj h)
    obtain ⟨reply, hstep, -⟩ := step_of_perform hrest
    exact workers_abandon hstep

theorem LoopMove.held (h : LoopMove env w n p event result)
    (performed : w.perform env.toMailEnv result.calls = some (w', made))
    (hheld : p.phase = .processing ↔ (w.workers n).isSome = true) :
    result.process.phase = .processing ↔ (w'.workers n).isSome = true := by
  -- Outside of its job a process has no worker, and such a step gives it none.
  have hnone : p.phase ≠ .processing → w.workers n = none := by
    intro hphase
    rw [← Option.not_isSome_iff_eq_none]
    exact fun hsome ↦ hphase (hheld.mpr hsome)
  have hquiet : (∀ label ∈ result.calls, label.mover = none) → w'.workers n = w.workers n := by
    intro hcalls
    refine workers_perform performed fun label hlabel ↦ ?_
    rw [hcalls label hlabel]
    exact (Option.some_ne_none n).symm
  cases h with
  | passes | isStopped =>
    rw [hquiet (List.forall_mem_nil _)]
    exact hheld
  | returns phase | overdue phase | starts phase | cleans phase | cleaningFails phase
  | findsNothing phase | claimingFails phase | timesOut phase | wakes phase =>
    refine held_of_idle (by rintro ⟨⟩) ?_
    rw [hquiet (List.forall_mem_nil _)]
    exact hnone (by rw [phase]; rintro ⟨⟩)
  | isCancelled idle =>
    refine held_of_idle (by rintro ⟨⟩) ?_
    rw [hquiet (List.forall_mem_nil _)]
    exact hnone idle
  | beats phase =>
    refine held_of_idle (by rintro ⟨⟩) ?_
    rw [hquiet (List.forall_mem_singleton.mpr rfl)]
    exact hnone (by rw [phase]; rintro ⟨⟩)
  | @beatingFails committed now phase =>
    refine held_of_idle (by rintro ⟨⟩) ?_
    rw [hquiet ?_]
    · exact hnone (by rw [phase]; rintro ⟨⟩)
    · cases committed
      · exact List.forall_mem_nil _
      · exact List.forall_mem_singleton.mpr rfl
  | @renews event renewal calls next phase step =>
    have hidle : next.elim LoopPhase.claiming LoopPhase.renewing ≠ .processing := by
      rcases next with _ | next
      · rintro ⟨⟩
      · rintro ⟨⟩
    refine held_of_idle hidle ?_
    rw [hquiet fun label hlabel ↦
      MailLabel.mover_of_isOutside ((renewalMove_of_step step).outside label hlabel)]
    exact hnone (by rw [phase]; rintro ⟨⟩)
  | grants phase claimed =>
    obtain ⟨reply, hstep, -⟩ := step_of_perform performed
    obtain ⟨-, jobs, claim, hsome, hworkers⟩ := claimJob_cases hstep
    obtain ⟨-, rfl⟩ := Prod.mk.inj (Option.some.inj (claimed.symm.trans hsome))
    rw [hworkers]
    exact ⟨fun _ ↦ rfl, fun _ ↦ rfl⟩
  | settles phase claimed =>
    obtain ⟨reply, hstep, -⟩ := step_of_perform performed
    obtain ⟨-, jobs, claim, hsome, hworkers⟩ := claimJob_cases hstep
    obtain ⟨-, rfl⟩ := Prod.mk.inj (Option.some.inj (claimed.symm.trans hsome))
    exact held_of_idle (by rintro ⟨⟩) hworkers
  | claimLost phase => exact held_of_idle (by rintro ⟨⟩) (lostClaim_workers performed)
  | @works event worker result phase current step =>
    obtain ⟨reply, hstep, -⟩ := step_of_perform performed
    rw [workers_work hstep current step]
    change (if result.phase.isSome = true then LoopPhase.processing else .checking) = _ ↔ _
    split
    · exact ⟨fun _ ↦ ‹_›, fun _ ↦ rfl⟩
    · exact ⟨by rintro ⟨⟩, fun hsome ↦ absurd hsome ‹_›⟩
  | abandons phase =>
    obtain ⟨reply, hstep, -⟩ := step_of_perform performed
    exact held_of_idle (by rintro ⟨⟩) (workers_abandon hstep)

/-! ## Ranks -/

/-- How many steps an iteration takes at most. -/
def loopSteps (settings : Settings) : ℕ := stepsPerClaim settings + 8

theorem loopSteps_le (settings : Settings) : loopSteps settings ≤ 8016 :=
  Nat.add_le_add_right (stepsPerClaim_le settings) 8

/-- How many steps are left of the iteration, `left` of them on the job. -/
def LoopPhase.rank (settings : Settings) (left : ℕ) : LoopPhase → ℕ
  | checking => 1
  | cleaning => stepsPerClaim settings + 8
  | beating => stepsPerClaim settings + 7
  -- A claim and the steps of the job are still to come.
  | renewing renewal => stepsPerClaim settings + 2 + renewal.rank
  | claiming => stepsPerClaim settings + 2
  | processing => left + 1
  | waiting _ _ => 2
  | returned | cancelled => 0

/-- How many steps the `n`-th process has left. -/
def Fleet.rank (settings : Settings) (f : Fleet) (n : ℕ) : ℕ :=
  (f.processes n).phase.rank settings (f.mail.rank settings n)

/-- A step in the code of the process. -/
def LoopEvent.isStep : LoopEvent → Bool
  | passes _ | isStopped => false
  | begins | returns | cleans | cleaningFails | beats _ | beatingFails _ _ | renews _ | claims _ _
  | claimsNothing | claimingFails _ | works _ | timesOut | wakes | isCancelled => true

/-- The beginning of an iteration. -/
def LoopEvent.isBegin : LoopEvent → Bool
  | begins => true
  | _ => false

theorem rank_claimJob {id : JobId} {clock : ℕ → Time} {reply : Reply}
    (h : w.step env.toMailEnv (.claimJob n id clock) = some (w', reply)) :
    w'.rank env.settings n ≤ stepsPerClaim env.settings := by
  have hfree : w.rank env.settings n = 0 := MailWorld.rank_eq_zero_iff.mpr (claimJob_cases h).1
  have hstep := rank_step (n := n) h
  rw [hfree, Nat.zero_add] at hstep
  refine (Nat.le_add_right _ _).trans (hstep.trans ?_)
  split
  · exact Nat.le_refl _
  · exact Nat.zero_le _

theorem rank_work {event : WorkerEvent} {reply : Reply}
    (h : w.step env.toMailEnv (.work n event) = some (w', reply)) :
    w'.rank env.settings n + 1 ≤ w.rank env.settings n := by
  have hstep := rank_step (n := n) h
  rwa [isStepOf, if_pos (decide_eq_true rfl), isClaimOf, if_neg Bool.false_ne_true] at hstep

theorem LoopMove.rank (h : LoopMove env w n p event result)
    (performed : w.perform env.toMailEnv result.calls = some (w', made)) :
    result.process.phase.rank env.settings (w'.rank env.settings n) +
        (if event.isStep then 1 else 0) ≤
      p.phase.rank env.settings (w.rank env.settings n) +
        (if event.isBegin then loopSteps env.settings else 0) := by
  have hbound : 0 < stepsPerClaim env.settings :=
    Nat.lt_of_lt_of_le (by decide) (Nat.le_add_right 8 _)
  cases h with
  | passes | isStopped =>
    obtain ⟨rfl, -⟩ := eq_of_perform_nil performed
    exact Nat.le_refl _
  | returns phase | cleans phase | cleaningFails phase | findsNothing phase | claimingFails phase
  | timesOut phase | wakes phase | beats phase | beatingFails phase | settles phase
  | claimLost phase =>
    simp only [Process.goto, Process.commit, Process.afterError, Process.afterNothing,
      LoopPhase.rank, RenewalPhase.rank, LoopEvent.isStep, LoopEvent.isBegin, phase, if_true]
    omega
  | overdue phase | starts phase =>
    simp only [Process.goto, LoopPhase.rank, LoopEvent.isStep, LoopEvent.isBegin, phase, if_true,
      loopSteps]
    omega
  | @renews event renewal calls next phase step =>
    have hrank := (renewalMove_of_step step).rank
    rcases next with _ | next
    · simp only [Process.commit, Option.elim, LoopPhase.rank, LoopEvent.isStep, LoopEvent.isBegin,
        phase, if_true] at hrank ⊢
      omega
    · simp only [Process.commit, Option.elim, LoopPhase.rank, LoopEvent.isStep, LoopEvent.isBegin,
        phase, if_true] at hrank ⊢
      omega
  | grants phase claimed =>
    obtain ⟨reply, hstep, -⟩ := step_of_perform performed
    have hrank := rank_claimJob hstep
    simp only [Process.commit, LoopPhase.rank, LoopEvent.isStep, LoopEvent.isBegin, phase, if_true]
    omega
  | @works event worker result phase current step =>
    obtain ⟨reply, hstep, -⟩ := step_of_perform performed
    have hrank := rank_work hstep
    simp only [Process.commit, LoopEvent.isStep, LoopEvent.isBegin, phase, if_true]
    split
    · simp only [LoopPhase.rank]
      omega
    · simp only [LoopPhase.rank]
      omega
  | abandons phase =>
    simp only [Process.commit, LoopPhase.rank, LoopEvent.isStep, LoopEvent.isBegin, phase, if_true]
    omega
  | isCancelled idle ongoing =>
    have hpos : 0 < p.phase.rank env.settings (w.rank env.settings n) := by
      rcases hphase : p.phase with _ | _ | _ | _ | _ | _ | _ | _ | _
      case returned => exact absurd hphase ongoing.1
      case cancelled => exact absurd hphase ongoing.2
      all_goals
        rw [LoopPhase.rank]
        omega
    exact hpos

/-! ## What the trace says of one process -/

/-- A step of the `n`-th process of some kind. -/
def isRunOf {β : Type} (n : ℕ) (kind : LoopEvent → Bool) (move : FleetLabel × β) : Bool :=
  match move.1 with
  | .run m event => m = n && kind event
  | .outside _ => false

theorem isRunOf_self {β : Type} (n : ℕ) (kind : LoopEvent → Bool) (event : LoopEvent) (o : β) :
    isRunOf n kind (.run n event, o) = kind event := by
  change (decide (n = n) && kind event) = kind event
  rw [decide_eq_true rfl, Bool.true_and]

theorem isRunOf_of_ne {β : Type} (h : m ≠ n) (kind : LoopEvent → Bool) (event : LoopEvent)
    (o : β) : isRunOf n kind (.run m event, o) = false := by
  change (decide (m = n) && kind event) = false
  rw [decide_eq_false h, Bool.false_and]

/-- A step leaves a process and its job alone, or it is a step of the process. -/
theorem FleetMove.cases_of (h : FleetMove env f move g made) (n : ℕ) :
    (g.processes n = f.processes n ∧ g.mail.workers n = f.mail.workers n ∧
        ∀ kind, isRunOf n kind (move, made) = false) ∨
      ∃ event result, move = .run n event ∧ LoopMove env f.mail n (f.processes n) event result ∧
        f.mail.perform env.toMailEnv result.calls = some (g.mail, made) ∧
          g.processes n = result.process := by
  cases h with
  | @outside label mail made outside performed =>
    refine Or.inl ⟨rfl, workers_perform performed (List.forall_mem_singleton.mpr ?_), fun _ ↦ rfl⟩
    rw [MailLabel.mover_of_isOutside outside]
    exact (Option.some_ne_none n).symm
  | @run m event result mail made move performed =>
    by_cases hmn : n = m
    · subst hmn
      exact Or.inr ⟨event, result, rfl, move, performed, Function.update_self _ _ _⟩
    · exact Or.inl ⟨Function.update_of_ne hmn _ _, move.workers_of_ne performed hmn,
        fun kind ↦ isRunOf_of_ne (Ne.symm hmn) kind event made⟩

theorem FleetMove.held (h : FleetMove env f move g made) (hheld : f.Held n) : g.Held n := by
  rcases h.cases_of n with ⟨hprocess, hworkers, -⟩ | ⟨event, result, -, hmove, hperformed, hp⟩
  · rw [Fleet.Held, hprocess, hworkers]
    exact hheld
  · rw [Fleet.Held, hp]
    exact hmove.held hperformed hheld

/-- **A step costs the process that takes it some of its rank**, and only the beginning of an
iteration raises that. -/
theorem FleetMove.rank (h : FleetMove env f move g made) (n : ℕ) :
    g.rank env.settings n + (if isRunOf n LoopEvent.isStep (move, made) then 1 else 0) ≤
      f.rank env.settings n +
        (if isRunOf n LoopEvent.isBegin (move, made) then loopSteps env.settings else 0) := by
  rcases h.cases_of n with ⟨hprocess, hworkers, hkind⟩ | ⟨event, result, rfl, hmove, hperformed, hp⟩
  · rw [hkind, hkind, Fleet.rank, Fleet.rank, hprocess, rank_eq_of_workers hworkers]
    exact Nat.le_refl _
  · rw [isRunOf_self, isRunOf_self, Fleet.rank, Fleet.rank, hp]
    exact hmove.rank hperformed

/-- A worker never has more steps left than a claim gives it. -/
theorem rank_le_of_step {reply : Reply} (h : w.step env.toMailEnv label = some (w', reply))
    (hle : w.rank env.settings n ≤ stepsPerClaim env.settings) :
    w'.rank env.settings n ≤ stepsPerClaim env.settings := by
  rcases hclaim : isClaimOf n (label, reply) with _ | _
  · have hstep := rank_step (n := n) h
    rw [hclaim, if_neg Bool.false_ne_true] at hstep
    exact (Nat.le_add_right _ _).trans (hstep.trans hle)
  · rw [isClaimOf] at hclaim
    split at hclaim
    · rename_i heq
      obtain rfl := of_decide_eq_true hclaim
      obtain rfl : label = _ := heq
      exact rank_claimJob h
    · cases hclaim

theorem rank_le_of_perform {labels : List MailLabel}
    (h : w.perform env.toMailEnv labels = some (w', made))
    (hle : w.rank env.settings n ≤ stepsPerClaim env.settings) :
    w'.rank env.settings n ≤ stepsPerClaim env.settings :=
  (run_perform h).invariant (I := fun w ↦ w.rank env.settings n ≤ stepsPerClaim env.settings) hle
    fun _ _ _ _ hrank _ hs ↦ rank_le_of_step hs hrank

theorem FleetMove.perform (h : FleetMove env f move g made) :
    ∃ labels, f.mail.perform env.toMailEnv labels = some (g.mail, made) := by
  cases h with
  | outside outside performed => exact ⟨_, performed⟩
  | run move performed => exact ⟨_, performed⟩

theorem RenewalPhase.rank_le (renewal : RenewalPhase) : renewal.rank ≤ 4 := by
  cases renewal with
  | claiming => exact Nat.le_refl 4
  | asking => exact Nat.le_succ 3
  | completing => exact Nat.le_of_sub_eq_zero rfl
  | failing => exact Nat.le_of_sub_eq_zero rfl

theorem LoopPhase.rank_le {settings : Settings} {left : ℕ} (h : left ≤ stepsPerClaim settings)
    (phase : LoopPhase) : phase.rank settings left ≤ loopSteps settings := by
  rw [loopSteps]
  cases phase with
  | cleaning => exact Nat.le_refl _
  | renewing renewal =>
    have hrenewal := renewal.rank_le
    rw [rank]
    omega
  | _ =>
    rw [rank]
    omega

/-! ## Leases of the watch -/

/-- The watch lease that a process holds. -/
def LoopPhase.leaseToken? : LoopPhase → Option LeaseToken
  | renewing renewal => renewal.leaseToken?
  | checking | cleaning | beating | claiming | processing | waiting _ _ | returned | cancelled =>
    none

/-- The leases of the processes have been drawn, each by one process. -/
structure Fleet.Leased (env : LoopEnv) (f : Fleet) : Prop where
  tracked : f.mail.Tracked env.toMailEnv
  drawn : ∀ n leaseToken, (f.processes n).phase.leaseToken? = some leaseToken →
    leaseToken < f.mail.jobs.nextToken
  exclusive : ∀ n m leaseToken, (f.processes n).phase.leaseToken? = some leaseToken →
    (f.processes m).phase.leaseToken? = some leaseToken → n = m

/-- A process keeps its lease, or is granted one. -/
theorem LoopMove.lease {leaseToken : LeaseToken} (h : LoopMove env w n p event result)
    (hlease : result.process.phase.leaseToken? = some leaseToken) :
    p.phase.leaseToken? = some leaseToken ∨ ∃ now, result.calls = [.claimWatch now] ∧
      (claimWatchRenewal env.settings w.jobs now).2 = some leaseToken := by
  cases h with
  | passes | isStopped => exact Or.inl hlease
  | @renews event renewal calls next phase step =>
    rw [phase]
    refine (renewalMove_of_step step).lease leaseToken ?_
    rcases next with _ | next
    · cases hlease
    · exact hlease
  | @works event worker result phase current step =>
    change (if result.phase.isSome = true then LoopPhase.processing else .checking).leaseToken? =
      some leaseToken at hlease
    split at hlease
    · cases hlease
    · cases hlease
  | _ => cases hlease

theorem FleetMove.lease {leaseToken : LeaseToken} (h : FleetMove env f move g made)
    (hlease : (g.processes n).phase.leaseToken? = some leaseToken) :
    (f.processes n).phase.leaseToken? = some leaseToken ∨
      leaseToken = f.mail.jobs.nextToken ∧ leaseToken < g.mail.jobs.nextToken ∧
        ∃ event, move = .run n event := by
  rcases h.cases_of n with ⟨hprocess, -, -⟩ | ⟨event, result, rfl, hmove, hperformed, hp⟩
  · rw [← hprocess]
    exact Or.inl hlease
  · rw [hp] at hlease
    rcases hmove.lease hlease with hold | ⟨now, hcalls, hgranted⟩
    · exact Or.inl hold
    · rw [hcalls] at hperformed
      obtain ⟨reply, hstep, -⟩ := step_of_perform hperformed
      obtain ⟨hmail, -⟩ := Prod.mk.inj (Option.some.inj hstep)
      obtain ⟨htoken, hnext⟩ := claimWatchRenewal_granted hgranted
      refine Or.inr ⟨htoken, ?_, event, rfl⟩
      rw [← hmail, htoken]
      change f.mail.jobs.nextToken < (claimWatchRenewal env.settings f.mail.jobs now).1.nextToken
      rw [hnext]
      exact Nat.lt_succ_self _

theorem Fleet.Leased.step (h : f.Leased env) (hmove : FleetMove env f move g made) :
    g.Leased env := by
  obtain ⟨labels, hperformed⟩ := hmove.perform
  obtain ⟨htracked, hnext⟩ := tracked_perform hperformed h.tracked
  refine ⟨htracked, fun n leaseToken hlease ↦ ?_, fun n m leaseToken hn hm ↦ ?_⟩
  · rcases hmove.lease hlease with hold | ⟨-, hdrawn, -⟩
    · exact Nat.lt_of_lt_of_le (h.drawn n leaseToken hold) hnext
    · exact hdrawn
  -- A fresh token is none that was held before, and only one process takes the step.
  · rcases hmove.lease hn with hold | ⟨htoken, -, event, hrun⟩
    · rcases hmove.lease hm with hold' | ⟨htoken', -, -⟩
      · exact h.exclusive n m leaseToken hold hold'
      · exact absurd (h.drawn n leaseToken hold) (by rw [htoken']; exact Nat.lt_irrefl _)
    · rcases hmove.lease hm with hold' | ⟨-, -, event', hrun'⟩
      · exact absurd (h.drawn m leaseToken hold') (by rw [htoken]; exact Nat.lt_irrefl _)
      · exact (FleetLabel.run.inj (hrun.symm.trans hrun')).1

/-! ## Heartbeats -/

/-- A call of `claim_notification_job`. -/
def LoopEvent.isClaim : LoopEvent → Bool
  | claims _ _ | claimsNothing | claimingFails _ => true
  | _ => false

/-- Between the heartbeat and the claim. -/
def LoopPhase.isBeaten : LoopPhase → Bool
  | renewing _ | claiming => true
  | _ => false

/-- The process has recorded a heartbeat, and has not claimed a job since. -/
def Beaten (n : ℕ) (tr : List (FleetLabel × List (MailLabel × Reply))) : Prop :=
  ∃ before now after, tr = before ++ (.run n (.beats now), [(.heartbeat now, .none)]) :: after ∧
    ∀ move ∈ after, isRunOf n LoopEvent.isClaim move = false

/-- Before each claim there is a heartbeat of its own. -/
def ClaimsBeaten (n : ℕ) (tr : List (FleetLabel × List (MailLabel × Reply))) : Prop :=
  ∀ before claim after, tr = before ++ claim :: after →
    isRunOf n LoopEvent.isClaim claim = true → Beaten n before

theorem Beaten.snoc {tr : List (FleetLabel × List (MailLabel × Reply))}
    {last : FleetLabel × List (MailLabel × Reply)} (h : Beaten n tr)
    (hlast : isRunOf n LoopEvent.isClaim last = false) : Beaten n (tr ++ [last]) := by
  obtain ⟨before, now, after, rfl, hafter⟩ := h
  refine ⟨before, now, after ++ [last], ?_, ?_⟩
  · rw [List.append_assoc, List.cons_append]
  · exact List.forall_mem_append.mpr ⟨hafter, List.forall_mem_singleton.mpr hlast⟩

theorem ClaimsBeaten.snoc {tr : List (FleetLabel × List (MailLabel × Reply))}
    {last : FleetLabel × List (MailLabel × Reply)} (h : ClaimsBeaten n tr)
    (hlast : isRunOf n LoopEvent.isClaim last = true → Beaten n tr) :
    ClaimsBeaten n (tr ++ [last]) := by
  intro before claim after heq hclaim
  -- The claim is the last step, or one of the trace before.
  rcases List.eq_nil_or_concat after with rfl | ⟨after, final, rfl⟩
  · obtain ⟨rfl, hsingle⟩ := List.append_inj' heq rfl
    obtain rfl := List.singleton_inj.mp hsingle
    exact hlast hclaim
  · rw [List.concat_eq_append, ← List.cons_append, ← List.append_assoc] at heq
    exact h before claim after (List.append_inj' heq rfl).1 hclaim

theorem LoopMove.beaten (h : LoopMove env w n p event result)
    (hphase : result.process.phase.isBeaten = true) :
    p.phase.isBeaten = true ∧ event.isClaim = false ∨
      ∃ now, event = .beats now ∧ result.calls = [.heartbeat now] := by
  cases h with
  | passes | isStopped => exact Or.inl ⟨hphase, rfl⟩
  | @beats now => exact Or.inr ⟨now, rfl, rfl⟩
  | renews phase => exact Or.inl ⟨by rw [phase]; rfl, rfl⟩
  | @works event worker result phase current step =>
    change (if result.phase.isSome = true then LoopPhase.processing else .checking).isBeaten =
      true at hphase
    split at hphase
    · cases hphase
    · cases hphase
  | _ => cases hphase

theorem LoopMove.beaten_of_claim (h : LoopMove env w n p event result)
    (hclaim : event.isClaim = true) : p.phase.isBeaten = true := by
  cases h with
  | grants phase | settles phase | findsNothing phase | claimingFails phase | claimLost phase =>
    rw [phase]
    rfl
  | _ => cases hclaim

/-- The invariant: between heartbeat and claim there has been a heartbeat. -/
structure Beats (n : ℕ) (f : Fleet) (tr : List (FleetLabel × List (MailLabel × Reply))) :
    Prop where
  beaten : (f.processes n).phase.isBeaten = true → Beaten n tr
  claims : ClaimsBeaten n tr

theorem Beats.step {tr : List (FleetLabel × List (MailLabel × Reply))} (h : Beats n f tr)
    (hmove : FleetMove env f move g made) : Beats n g (tr ++ [(move, made)]) := by
  rcases hmove.cases_of n with ⟨hprocess, -, hkind⟩ | ⟨event, result, rfl, hloop, hperformed, hp⟩
  · refine ⟨fun hphase ↦ ?_, h.claims.snoc fun hclaim ↦ ?_⟩
    · rw [hprocess] at hphase
      exact (h.beaten hphase).snoc (hkind _)
    · rw [hkind] at hclaim
      cases hclaim
  · refine ⟨fun hphase ↦ ?_, h.claims.snoc fun hclaim ↦ ?_⟩
    · rw [hp] at hphase
      rcases hloop.beaten hphase with ⟨hbefore, hclaim⟩ | ⟨now, rfl, hcalls⟩
      · exact (h.beaten hbefore).snoc (by rw [isRunOf_self, hclaim])
      · rw [hcalls] at hperformed
        obtain ⟨reply, hstep, rfl⟩ := step_of_perform hperformed
        obtain ⟨-, rfl⟩ := Prod.mk.inj (Option.some.inj hstep)
        exact ⟨tr, now, [], rfl, List.forall_mem_nil _⟩
    · rw [isRunOf_self] at hclaim
      exact h.beaten (hloop.beaten_of_claim hclaim)

end

end Onebox.Notifications
