import Onebox.Notifications.LoopRuns

/-!
# The service of the loop

The clocks of the processes, how they end, and what the loop is for, over whole runs: it goes on
through every failure, it neither polls nor cleans up too often, and once it is asked to stop it
finishes what it has begun, in a bounded number of steps.
-/

namespace Onebox.Notifications

open Python Transition

section

variable {env : LoopEnv} {w w' : MailWorld} {n m : ℕ} {p : Process} {event : LoopEvent}
  {result : LoopResult} {made : List (MailLabel × Reply)} {f g : Fleet} {move : FleetLabel}
  {tr : List (FleetLabel × List (MailLabel × Reply))} {start : ℚ}

/-! ## Clocks -/

theorem errorDelay_pos (env : LoopEnv) : 0 < env.errorDelay := by
  have hinitial : 0 < env.settings.retryBackoffInitialSeconds := env.settings.backoff_bounds.1
  exact lt_min (Nat.cast_pos.mpr hinitial) env.poll_bounds.1

theorem errorDelay_le (env : LoopEnv) : env.errorDelay ≤ env.notificationPollSeconds :=
  min_le_right _ _

/-- A cleanup that has begun was due, and a wait has begun before now. -/
structure Process.WellTimed (env : LoopEnv) (p : Process) : Prop where
  overdue : p.phase = .cleaning →
    (env.retentionCleanupIntervalSeconds : ℚ) ≤ p.monotonic - p.lastRetentionCleanup
  waits : ∀ since timeout, p.phase = .waiting since timeout →
    since ≤ p.monotonic ∧ env.errorDelay ≤ timeout

/-- The time up to which a process has paid for its iterations, each with the delay after a
failure. -/
def Process.paid (env : LoopEnv) (p : Process) : ℚ :=
  match p.phase with
  | .checking | .processing | .returned => p.monotonic
  | .cleaning | .beating | .renewing _ | .claiming | .cancelled => p.monotonic + env.errorDelay
  | .waiting since _ => max p.monotonic (since + env.errorDelay)

/-- The end of a cleanup. -/
def LoopEvent.isCleanup : LoopEvent → Bool
  | cleans => true
  | _ => false

/-- A job is found. -/
def LoopEvent.isFound : LoopEvent → Bool
  | claims _ _ => true
  | _ => false

theorem Process.WellTimed.of_phase {phase : LoopPhase} (hcleaning : phase ≠ .cleaning)
    (hwaiting : ∀ since timeout, phase ≠ .waiting since timeout) :
    Process.WellTimed env { p with phase := phase } :=
  ⟨fun h ↦ absurd h hcleaning, fun since timeout h ↦ absurd h (hwaiting since timeout)⟩

theorem Process.WellTimed.of_waiting {timeout : ℚ} (h : env.errorDelay ≤ timeout) :
    Process.WellTimed env { p with phase := .waiting p.monotonic timeout } := by
  refine ⟨by rintro ⟨⟩, fun since timeout' heq ↦ ?_⟩
  obtain ⟨rfl, rfl⟩ := LoopPhase.waiting.inj heq
  exact ⟨le_refl _, h⟩

theorem LoopMove.wellTimed (h : LoopMove env w n p event result) (hp : p.WellTimed env) :
    result.process.WellTimed env := by
  cases h with
  | @passes reading later =>
    refine ⟨fun hphase ↦ (hp.overdue hphase).trans (sub_le_sub_right later _), ?_⟩
    exact fun since timeout hphase ↦
      ⟨(hp.waits since timeout hphase).1.trans later, (hp.waits since timeout hphase).2⟩
  | isStopped => exact ⟨hp.overdue, hp.waits⟩
  | overdue phase running due => exact ⟨fun _ ↦ due, by rintro _ _ ⟨⟩⟩
  | cleaningFails | beatingFails | claimingFails | claimLost => exact .of_waiting le_rfl
  | settles | findsNothing => exact .of_waiting (errorDelay_le env)
  | @renews event renewal calls next phase step =>
    rcases next with _ | next
    · exact .of_phase (by rintro ⟨⟩) (by rintro _ _ ⟨⟩)
    · exact .of_phase (by rintro ⟨⟩) (by rintro _ _ ⟨⟩)
  | @works event worker result phase current step =>
    rw [Process.commit]
    split
    · exact .of_phase (by rintro ⟨⟩) (by rintro _ _ ⟨⟩)
    · exact .of_phase (by rintro ⟨⟩) (by rintro _ _ ⟨⟩)
  | cleans => exact ⟨by rintro ⟨⟩, by rintro _ _ ⟨⟩⟩
  | _ => exact .of_phase (by rintro ⟨⟩) (by rintro _ _ ⟨⟩)

theorem LoopMove.later (h : LoopMove env w n p event result) :
    p.monotonic ≤ result.process.monotonic := by
  cases h with
  | passes later => exact later
  | _ => exact le_refl _

theorem Process.le_paid (env : LoopEnv) (p : Process) : p.monotonic ≤ p.paid env := by
  have hdelay := errorDelay_pos env
  rw [paid]
  split
  case h_9 => exact le_max_left _ _
  all_goals linarith

theorem Process.WellTimed.paid_le (h : p.WellTimed env) :
    p.paid env ≤ p.monotonic + env.errorDelay := by
  have hdelay := errorDelay_pos env
  rw [Process.paid]
  split
  case h_9 since timeout hphase =>
    exact max_le (by linarith) (by linarith [(h.waits since timeout hphase).1])
  all_goals linarith

/-- **An iteration is paid for** with the delay, unless it has found a job. -/
theorem LoopMove.paid (h : LoopMove env w n p event result) (hp : p.WellTimed env)
    (hrunning : result.process.stopped = false) :
    p.paid env + (if event.isBegin then env.errorDelay else 0) ≤
      result.process.paid env + (if event.isFound then env.errorDelay else 0) := by
  have hdelay := errorDelay_pos env
  cases h with
  | @passes reading later =>
    simp only [LoopEvent.isBegin, LoopEvent.isFound, add_zero, Bool.false_eq_true, if_false]
    change Process.paid env p ≤ Process.paid env { p with monotonic := reading }
    rw [Process.paid, Process.paid]
    dsimp only
    split
    case h_9 => exact max_le_max_right _ later
    all_goals linarith
  | isStopped => cases hrunning
  | wakes phase stopped => exact absurd (stopped.symm.trans hrunning) (by rintro ⟨⟩)
  | returns phase | overdue phase | starts phase | cleans phase | beats phase | grants phase =>
    simp only [Process.paid, Process.goto, Process.commit, phase, LoopEvent.isBegin,
      LoopEvent.isFound, if_true, Bool.false_eq_true, if_false]
    linarith
  | abandons phase =>
    simp only [Process.paid, Process.commit, phase, LoopEvent.isBegin, LoopEvent.isFound,
      Bool.false_eq_true, if_false]
    linarith
  | cleaningFails phase | beatingFails phase | claimingFails phase | claimLost phase
  | findsNothing phase | settles phase =>
    have hwait := le_max_right p.monotonic (p.monotonic + env.errorDelay)
    simp only [Process.paid, Process.goto, Process.commit, Process.afterError,
      Process.afterNothing, phase, LoopEvent.isBegin, LoopEvent.isFound, Bool.false_eq_true,
      if_false, if_true]
    linarith
  | @renews event renewal calls next phase step =>
    have hnext : ({ p with phase := next.elim .claiming .renewing } : Process).paid env =
        p.monotonic + env.errorDelay := by
      rcases next with _ | next
      · rfl
      · rfl
    change Process.paid env p + 0 ≤
      ({ p with phase := next.elim .claiming .renewing } : Process).paid env + 0
    rw [hnext]
    simp only [Process.paid, phase]
    linarith
  | @works event worker result phase current step =>
    -- An iteration with a job costs nothing: the job was counted when it was found.
    have hnext : ({ p with phase := if result.phase.isSome then LoopPhase.processing
        else .checking } : Process).paid env = p.monotonic := by
      split
      · rfl
      · rfl
    change Process.paid env p + 0 ≤ ({ p with phase := if result.phase.isSome then
      LoopPhase.processing else .checking } : Process).paid env + 0
    rw [hnext]
    simp only [Process.paid, phase]
    linarith
  | @timesOut since timeout phase late =>
    -- The wait was at least as long as the delay, so what it was to pay for has passed.
    have htimeout := (hp.waits since timeout phase).2
    have hpaid : max p.monotonic (since + env.errorDelay) ≤ p.monotonic :=
      max_le (le_refl _) (by linarith)
    simp only [Process.paid, Process.goto, phase, LoopEvent.isBegin, LoopEvent.isFound,
      Bool.false_eq_true, if_false]
    linarith
  | isCancelled idle ongoing =>
    have hle := hp.paid_le
    simp only [Process.goto, LoopEvent.isBegin, LoopEvent.isFound, Bool.false_eq_true, if_false]
    change Process.paid env p + 0 ≤ p.monotonic + env.errorDelay + 0
    linarith

/-- A cleanup ends where it has begun. -/
theorem LoopMove.cleanup (h : LoopMove env w n p event result) :
    if event.isCleanup then p.phase = .cleaning ∧ result.process.monotonic = p.monotonic ∧
      result.process.lastRetentionCleanup = p.monotonic
    else result.process.lastRetentionCleanup = p.lastRetentionCleanup := by
  cases h with
  | cleans phase => exact ⟨phase, rfl, rfl⟩
  | _ => rfl

/-- How often the `n`-th process has taken a step of some kind. -/
def counted (n : ℕ) (kind : LoopEvent → Bool)
    (tr : List (FleetLabel × List (MailLabel × Reply))) : ℕ := tr.countP (isRunOf n kind)

theorem counted_snoc (n : ℕ) (kind : LoopEvent → Bool) (event : LoopEvent) :
    (counted n kind (tr ++ [(.run n event, made)]) : ℚ) =
      counted n kind tr + (if kind event then 1 else 0) := by
  rw [counted, counted, List.countP_append, List.countP_singleton, isRunOf_self, Nat.cast_add]
  split
  · rw [Nat.cast_one]
  · rw [Nat.cast_zero]

theorem counted_snoc_of_not (kind : LoopEvent → Bool)
    (h : isRunOf n kind (move, made) = false) :
    counted n kind (tr ++ [(move, made)]) = counted n kind tr := by
  rw [counted, counted, List.countP_append, List.countP_singleton, h, if_neg Bool.false_ne_true,
    Nat.add_zero]

/-- The invariant of the clocks: what has been spent on cleanups and on iterations. -/
structure Timed (env : LoopEnv) (n : ℕ) (start : ℚ) (f : Fleet)
    (tr : List (FleetLabel × List (MailLabel × Reply))) : Prop where
  wellTimed : (f.processes n).WellTimed env
  later : start ≤ (f.processes n).monotonic
  cleanups : counted n LoopEvent.isCleanup tr = 0 ∨
    (f.processes n).lastRetentionCleanup ≤ (f.processes n).monotonic ∧
      start + env.retentionCleanupIntervalSeconds * (counted n LoopEvent.isCleanup tr : ℚ) ≤
        (f.processes n).lastRetentionCleanup + env.retentionCleanupIntervalSeconds
  polls : (f.processes n).stopped = false →
    start + env.errorDelay * (counted n LoopEvent.isBegin tr : ℚ) ≤
      (f.processes n).paid env + env.errorDelay * (counted n LoopEvent.isFound tr : ℚ)

theorem LoopMove.stopped (h : LoopMove env w n p event result) (hstopped : p.stopped = true) :
    result.process.stopped = true ∧ event.isBegin = false := by
  cases h with
  | overdue phase running | starts phase running =>
    exact absurd (hstopped.symm.trans running) (by rintro ⟨⟩)
  | isStopped => exact ⟨rfl, rfl⟩
  | _ => exact ⟨hstopped, rfl⟩

theorem Timed.step (h : Timed env n start f tr) (hmove : FleetMove env f move g made) :
    Timed env n start g (tr ++ [(move, made)]) := by
  rcases hmove.cases_of n with ⟨hprocess, -, hkind⟩ | ⟨event, result, rfl, hloop, -, hp⟩
  · refine ⟨?_, ?_, ?_, ?_⟩
    · rw [hprocess]
      exact h.wellTimed
    · rw [hprocess]
      exact h.later
    · rw [hprocess, counted_snoc_of_not _ (hkind _)]
      exact h.cleanups
    · rw [hprocess, counted_snoc_of_not _ (hkind _), counted_snoc_of_not _ (hkind _)]
      exact h.polls
  refine ⟨?_, ?_, ?_, ?_⟩
  · rw [hp]
    exact hloop.wellTimed h.wellTimed
  · rw [hp]
    exact h.later.trans hloop.later
  · have hcleanup := hloop.cleanup
    rw [hp]
    rcases hkind : event.isCleanup with _ | _
    · rw [hkind, if_neg Bool.false_ne_true] at hcleanup
      rw [hcleanup, counted_snoc_of_not _ (by rw [isRunOf_self, hkind])]
      exact h.cleanups.imp_right fun hlast ↦ ⟨hlast.1.trans hloop.later, hlast.2⟩
    · rw [hkind, if_pos rfl] at hcleanup
      obtain ⟨hphase, hmonotonic, hlast⟩ := hcleanup
      -- The cleanup was due when it began, and the clock has only gone on since.
      have hdue := h.wellTimed.overdue hphase
      refine Or.inr ⟨by rw [hlast, hmonotonic], ?_⟩
      rw [counted_snoc, hkind, if_pos rfl, hlast]
      rcases h.cleanups with hzero | ⟨-, hspent⟩
      · rw [hzero]
        have hlater := h.later
        rw [Nat.cast_zero]
        linarith
      · linarith
  · rw [hp]
    intro hrunning
    -- The event is never cleared: what is running now was running before.
    have hbefore : (f.processes n).stopped = false := by
      rcases hstopped : (f.processes n).stopped with _ | _
      · rfl
      · exact absurd ((hloop.stopped hstopped).1.symm.trans hrunning) (by rintro ⟨⟩)
    have hpaid := hloop.paid h.wellTimed hrunning
    have hpolls := h.polls hbefore
    rw [counted_snoc, counted_snoc]
    have hite : ∀ b : Bool, env.errorDelay * (if b then 1 else 0) =
        if b then env.errorDelay else 0 := fun b ↦ mul_boole _ _
    rw [mul_add, mul_add, hite, hite]
    linarith

/-! ## How a process ends -/

/-- A process that has returned was asked to stop, and one that was cancelled was cancelled. -/
structure LoopEnds (n : ℕ) (f : Fleet) (tr : List (FleetLabel × List (MailLabel × Reply))) :
    Prop where
  stopped : (f.processes n).stopped = true → FleetLabel.run n .isStopped ∈ tr.map Prod.fst
  returned : (f.processes n).phase = .returned → (f.processes n).stopped = true
  cancelled : (f.processes n).phase = .cancelled → FleetLabel.run n .isCancelled ∈ tr.map Prod.fst

theorem LoopMove.stopped_cases (h : LoopMove env w n p event result)
    (hstopped : result.process.stopped = true) : p.stopped = true ∨ event = .isStopped := by
  cases h with
  | isStopped => exact Or.inr rfl
  | _ => exact Or.inl hstopped

/-- Only these steps end a process. -/
theorem LoopMove.ends (h : LoopMove env w n p event result) :
    (result.process.phase = .returned → p.phase = .returned ∨ p.stopped = true) ∧
      (result.process.phase = .cancelled → p.phase = .cancelled ∨ event = .isCancelled) := by
  cases h with
  | passes | isStopped => exact ⟨Or.inl, Or.inl⟩
  | returns phase stopped => exact ⟨fun _ ↦ Or.inr stopped, by rintro ⟨⟩⟩
  | abandons | isCancelled => exact ⟨by rintro ⟨⟩, fun _ ↦ Or.inr rfl⟩
  | @renews event renewal calls next phase step =>
    rcases next with _ | next
    · exact ⟨by rintro ⟨⟩, by rintro ⟨⟩⟩
    · exact ⟨by rintro ⟨⟩, by rintro ⟨⟩⟩
  | @works event worker result phase current step =>
    rw [Process.commit]
    split
    · exact ⟨by rintro ⟨⟩, by rintro ⟨⟩⟩
    · exact ⟨by rintro ⟨⟩, by rintro ⟨⟩⟩
  | _ => exact ⟨by rintro ⟨⟩, by rintro ⟨⟩⟩

theorem LoopEnds.step (h : LoopEnds n f tr) (hmove : FleetMove env f move g made) :
    LoopEnds n g (tr ++ [(move, made)]) := by
  have hlast : move ∈ (tr ++ [(move, made)]).map Prod.fst := by
    rw [List.map_append]
    exact List.mem_append_right _ (List.mem_singleton_self _)
  have hold : ∀ label ∈ tr.map Prod.fst, label ∈ (tr ++ [(move, made)]).map Prod.fst := by
    intro label hlabel
    rw [List.map_append]
    exact List.mem_append_left _ hlabel
  rcases hmove.cases_of n with ⟨hprocess, -, -⟩ | ⟨event, result, rfl, hloop, -, hp⟩
  · refine ⟨?_, ?_, ?_⟩
    · rw [hprocess]
      exact fun hstopped ↦ hold _ (h.stopped hstopped)
    · rw [hprocess]
      exact h.returned
    · rw [hprocess]
      exact fun hcancelled ↦ hold _ (h.cancelled hcancelled)
  refine ⟨?_, ?_, ?_⟩
  · rw [hp]
    intro hstopped
    rcases hloop.stopped_cases hstopped with hbefore | rfl
    · exact hold _ (h.stopped hbefore)
    · exact hlast
  · rw [hp]
    intro hreturned
    rcases hloop.ends.1 hreturned with hbefore | hstopped
    · exact (hloop.stopped (h.returned hbefore)).1
    · exact (hloop.stopped hstopped).1
  · rw [hp]
    intro hcancelled
    rcases hloop.ends.2 hcancelled with hbefore | rfl
    · exact hold _ (h.cancelled hbefore)
    · exact hlast

/-! ## Nothing is stuck -/

/-- The steps of a renewal that are no failure. -/
def RenewalEvent.regular : RenewalEvent → Bool
  | claims _ | answers _ | completes | fails _ => true
  | unconfigured | claimFails _ _ | asksInVain _ | completionFails _ | failureFails _ _ => false

/-- The steps of a process that are no failure and not from outside. -/
def LoopEvent.regular : LoopEvent → Bool
  | begins | returns | cleans | beats _ | claims _ _ | claimsNothing | timesOut | wakes => true
  | renews event => event.regular
  | works event => event.regular
  | passes _ | cleaningFails | beatingFails _ _ | claimingFails _ | isStopped | isCancelled => false

theorem step_of_process {mail : MailWorld}
    (hstep : (f.processes n).step env f.mail n event = some result)
    (hperformed : f.mail.perform env.toMailEnv result.calls = some (mail, made)) :
    f.step env (.run n event) =
      some (⟨mail, Function.update f.processes n result.process⟩, made) := by
  simp only [Fleet.step, hstep, hperformed, Option.map_some]

theorem exists_renewalStep (env : LoopEnv) (w : MailWorld) (renewal : RenewalPhase) :
    ∃ event calls next w' made, event.regular = true ∧
      renewal.step env w event = some (calls, next) ∧
        w.perform env.toMailEnv calls = some (w', made) := by
  cases renewal with
  | claiming => exact ⟨.claims 0, _, _, _, _, rfl, rfl, rfl⟩
  | asking => exact ⟨.answers .null, _, _, _, _, rfl, rfl, rfl⟩
  | completing => exact ⟨.completes, _, _, _, _, rfl, rfl, rfl⟩
  | failing => exact ⟨.fails 0, _, _, _, _, rfl, rfl, rfl⟩

/-- **A process is never stuck**, once it has waited. -/
theorem exists_loopStep (hheld : f.Held n)
    (hongoing : (f.processes n).phase ≠ .returned ∧ (f.processes n).phase ≠ .cancelled)
    (hdue : ∀ since timeout, (f.processes n).phase = .waiting since timeout →
      since + timeout ≤ (f.processes n).monotonic) :
    ∃ event g made, event.regular = true ∧ f.step env (.run n event) = some (g, made) := by
  have hquiet : ∀ event process, event.regular = true →
      (f.processes n).step env f.mail n event = some ⟨[], process⟩ →
      ∃ event g made, event.regular = true ∧ f.step env (.run n event) = some (g, made) :=
    fun event _ hregular hstep ↦ ⟨event, _, _, hregular, step_of_process hstep rfl⟩
  rcases hphase : (f.processes n).phase with _ | _ | _ | renewal | _ | _ | ⟨since, timeout⟩ | _ | _
  case checking =>
    rcases hstopped : (f.processes n).stopped with _ | _
    · by_cases hoverdue : (env.retentionCleanupIntervalSeconds : ℚ) ≤
          (f.processes n).monotonic - (f.processes n).lastRetentionCleanup
      · refine hquiet .begins { f.processes n with phase := .cleaning } rfl ?_
        simp only [Process.step, Process.goto, hphase, hstopped, if_pos hoverdue,
          Bool.false_eq_true, if_false]
      · refine hquiet .begins { f.processes n with phase := .beating } rfl ?_
        simp only [Process.step, Process.goto, hphase, hstopped, if_neg hoverdue,
          Bool.false_eq_true, if_false]
    · refine hquiet .returns { f.processes n with phase := .returned } rfl ?_
      simp only [Process.step, Process.goto, hphase, hstopped, if_true]
  case cleaning =>
    refine hquiet .cleans { f.processes n with
      phase := .beating, lastRetentionCleanup := (f.processes n).monotonic } rfl ?_
    simp only [Process.step, hphase]
  case beating =>
    have hstep : (f.processes n).step env f.mail n (.beats 0) =
        some ((f.processes n).commit [.heartbeat 0] (.renewing .claiming)) := by
      simp only [Process.step, hphase]
    exact ⟨.beats 0, _, _, rfl, step_of_process hstep rfl⟩
  case renewing =>
    obtain ⟨event, calls, next, mail, made, hregular, hrenewal, hperformed⟩ :=
      exists_renewalStep env f.mail renewal
    have hstep : (f.processes n).step env f.mail n (.renews event) =
        some ((f.processes n).commit calls (next.elim .claiming .renewing)) := by
      simp only [Process.step, hphase, hrenewal]
      rcases next with _ | next
      · rfl
      · rfl
    exact ⟨.renews event, _, _, hregular, step_of_process hstep hperformed⟩
  case claiming =>
    refine hquiet .claimsNothing
      { f.processes n with phase := (f.processes n).afterNothing env } rfl ?_
    simp only [Process.step, Process.goto, hphase]
  case processing =>
    -- The worker of its job has a step that is no failure, and so has the loop around it.
    obtain ⟨worker, hworker⟩ := Option.isSome_iff_exists.mp (hheld.mp hphase)
    obtain ⟨event, result, hregular, hresult⟩ := exists_workerStep env.toMailEnv f.mail worker
    have hmail : f.mail.perform env.toMailEnv [.work n event] = some (f.mail.apply n worker result,
        [(.work n event, result.reply)]) := by
      simp only [MailWorld.perform, MailWorld.step, hworker, hresult]
    have hstep : (f.processes n).step env f.mail n (.works event) =
        some ((f.processes n).commit [.work n event]
          (if result.phase.isSome then .processing else .checking)) := by
      cases event with
      | abandon => cases hregular
      | _ => simp only [Process.step, hphase, hworker, Option.bind_some, hresult]
    exact ⟨.works event, _, _, hregular, step_of_process hstep hmail⟩
  case waiting =>
    refine hquiet .timesOut { f.processes n with phase := .checking } rfl ?_
    simp only [Process.step, Process.goto, hphase, if_pos (hdue since timeout hphase)]
  case returned => exact absurd hphase hongoing.1
  case cancelled => exact absurd hphase hongoing.2

/-- A process goes on after some time. -/
theorem exists_laterStep (hheld : f.Held n)
    (hongoing : (f.processes n).phase ≠ .returned ∧ (f.processes n).phase ≠ .cancelled) :
    ∃ reading later made event g made', f.step env (.run n (.passes reading)) = some (later, made) ∧
      event.regular = true ∧ later.step env (.run n event) = some (g, made') := by
  -- Only a wait needs its clock to go on.
  obtain ⟨reading, hreading, hdue⟩ : ∃ reading, (f.processes n).monotonic ≤ reading ∧
      ∀ since timeout, (f.processes n).phase = .waiting since timeout →
        since + timeout ≤ reading := by
    rcases hphase : (f.processes n).phase with _ | _ | _ | _ | _ | _ | ⟨since, timeout⟩ | _ | _
    case waiting =>
      refine ⟨max (f.processes n).monotonic (since + timeout), le_max_left _ _, ?_⟩
      intro since' timeout' heq
      obtain ⟨rfl, rfl⟩ := LoopPhase.waiting.inj heq
      exact le_max_right _ _
    all_goals exact ⟨_, le_rfl, by rintro _ _ ⟨⟩⟩
  have hpasses : (f.processes n).step env f.mail n (.passes reading) =
      some ⟨[], { f.processes n with monotonic := reading }⟩ := if_pos hreading
  obtain ⟨later, hlater, hself⟩ : ∃ later,
      f.step env (.run n (.passes reading)) = some (later, []) ∧
        later.processes n = { f.processes n with monotonic := reading } :=
    ⟨_, step_of_process hpasses rfl, Function.update_self _ _ _⟩
  obtain ⟨event, g, made', hregular, hstep⟩ : ∃ event g made, event.regular = true ∧
      later.step env (.run n event) = some (g, made) := by
    refine exists_loopStep ((fleetMove_of_step hlater).held hheld) ?_ ?_
    · rw [hself]
      exact hongoing
    · rw [hself]
      exact hdue
  exact ⟨reading, later, [], event, g, made', hlater, hregular, hstep⟩

/-! ## Every run -/

/-- What holds of the processes that run the loop, over every run of any number of them. -/
structure LoopsServe (env : LoopEnv) : Prop where
  /-- What they do to the tables is a run of the workers. -/
  refines (C : Fleet → FleetLabel → Prop) (f g : Fleet)
    (tr : List (FleetLabel × List (MailLabel × Reply))) :
    System.Run (workerLoops env) C f tr g →
      System.Run (mailWorkers env.toMailEnv) System.anyStep f.mail (tr.flatMap Prod.snd) g.mail
  /-- A process has a job exactly while it processes one, and no two hold one watch lease. -/
  holds (C : Fleet → FleetLabel → Prop) (s f : Fleet)
    (tr : List (FleetLabel × List (MailLabel × Reply))) : (workerLoops env).init s →
    System.Run (workerLoops env) C s tr f → (∀ n, f.Held n) ∧ f.Leased env
  /-- Before each claim of a job it has recorded a heartbeat, and has claimed none since. -/
  beats (C : Fleet → FleetLabel → Prop) (s f : Fleet)
    (tr : List (FleetLabel × List (MailLabel × Reply))) (n : ℕ) : (workerLoops env).init s →
    System.Run (workerLoops env) C s tr f → ClaimsBeaten n tr
  /-- Failures do not end it: it returns only if it was asked to stop, and is cancelled only from
  outside; before that it goes on, at the latest after some time. -/
  survives (C : Fleet → FleetLabel → Prop) (s f : Fleet)
    (tr : List (FleetLabel × List (MailLabel × Reply))) (n : ℕ) : (workerLoops env).init s →
    System.Run (workerLoops env) C s tr f → LoopEnds n f tr ∧
      ((f.processes n).phase ≠ .returned ∧ (f.processes n).phase ≠ .cancelled →
        ∃ reading later made event g made',
          f.step env (.run n (.passes reading)) = some (later, made) ∧ event.regular = true ∧
            later.step env (.run n event) = some (g, made'))
  /-- It cleans up at most once in the interval. -/
  cleanups (C : Fleet → FleetLabel → Prop) (s f : Fleet)
    (tr : List (FleetLabel × List (MailLabel × Reply))) (n : ℕ) : (workerLoops env).init s →
    System.Run (workerLoops env) C s tr f →
    env.retentionCleanupIntervalSeconds * (counted n LoopEvent.isCleanup tr : ℚ) ≤
      (f.processes n).monotonic - (s.processes n).monotonic + env.retentionCleanupIntervalSeconds
  /-- Without jobs it begins an iteration at most once in the delay after an error. -/
  polls (C : Fleet → FleetLabel → Prop) (s f : Fleet)
    (tr : List (FleetLabel × List (MailLabel × Reply))) (n : ℕ) : (workerLoops env).init s →
    System.Run (workerLoops env) C s tr f → (f.processes n).stopped = false →
    env.errorDelay * (counted n LoopEvent.isBegin tr : ℚ) ≤
      (f.processes n).monotonic - (s.processes n).monotonic +
        env.errorDelay * (1 + (counted n LoopEvent.isFound tr : ℚ))
  /-- An iteration takes a bounded number of steps, whatever fails. -/
  bounded (C : Fleet → FleetLabel → Prop) (f g : Fleet)
    (tr : List (FleetLabel × List (MailLabel × Reply))) (n : ℕ) :
    System.Run (workerLoops env) C f tr g →
    g.rank env.settings n + counted n LoopEvent.isStep tr ≤
      f.rank env.settings n + counted n LoopEvent.isBegin tr * loopSteps env.settings
  /-- **Shutdown**: asked to stop, it begins no iteration, and takes a bounded number of steps. -/
  shutdown (C D : Fleet → FleetLabel → Prop) (s f g : Fleet)
    (tr tr' : List (FleetLabel × List (MailLabel × Reply))) (n : ℕ) : (workerLoops env).init s →
    System.Run (workerLoops env) C s tr f → (f.processes n).stopped = true →
    System.Run (workerLoops env) D f tr' g → counted n LoopEvent.isBegin tr' = 0 ∧
      g.rank env.settings n + counted n LoopEvent.isStep tr' ≤ loopSteps env.settings
  /-- The bound, for all settings. -/
  bound : loopSteps env.settings ≤ 8016

section

variable {C : Fleet → FleetLabel → Prop} {s : Fleet}

theorem refines_of_run (hrun : System.Run (workerLoops env) C f tr g) :
    System.Run (mailWorkers env.toMailEnv) System.anyStep f.mail (tr.flatMap Prod.snd) g.mail := by
  induction hrun with
  | nil => exact .nil _
  | snoc _ hC hs ih =>
    obtain ⟨labels, hperformed⟩ := (fleetMove_of_step hs).perform
    rw [List.flatMap_append, List.flatMap_singleton]
    exact ih.append ((run_perform hperformed).weaken fun _ _ _ ↦ trivial)

theorem held_of_init (h : (workerLoops env).init s) (n : ℕ) : s.Held n := by
  have hworkers : s.mail.workers n = none := h.1.2.2.2.2.1 n
  rw [Fleet.Held, (h.2 n).1, hworkers]
  exact ⟨by rintro ⟨⟩, by rintro ⟨⟩⟩

theorem held_of_run (hinit : (workerLoops env).init s)
    (hrun : System.Run (workerLoops env) C s tr f) (n : ℕ) : f.Held n :=
  hrun.invariant (I := fun f ↦ f.Held n) (held_of_init hinit n)
    fun _ _ _ _ h _ hs ↦ (fleetMove_of_step hs).held h

theorem leased_of_init (h : (workerLoops env).init s) : s.Leased env := by
  obtain ⟨t, -, htracks⟩ := (simulation_mailTables env.toMailEnv).init s.mail h.1
  refine ⟨⟨t, htracks⟩, fun n leaseToken hlease ↦ ?_, fun n m leaseToken hlease _ ↦ ?_⟩
  · rw [(h.2 n).1] at hlease
    cases hlease
  · rw [(h.2 n).1] at hlease
    cases hlease

theorem beats_of_run (hinit : (workerLoops env).init s)
    (hrun : System.Run (workerLoops env) C s tr f) (n : ℕ) : Beats n f tr := by
  refine hrun.history (I := fun f tr ↦ Beats n f tr) ⟨?_, ?_⟩
    fun f tr _ g _ h _ hs ↦ h.step (fleetMove_of_step hs)
  · rw [(hinit.2 n).1]
    rintro ⟨⟩
  · intro before claim after heq
    exact absurd heq.symm (List.append_ne_nil_of_right_ne_nil _ (List.cons_ne_nil _ _))

theorem loopEnds_of_run (hinit : (workerLoops env).init s)
    (hrun : System.Run (workerLoops env) C s tr f) (n : ℕ) : LoopEnds n f tr := by
  obtain ⟨hphase, -, hstopped⟩ := hinit.2 n
  refine hrun.history (I := fun f tr ↦ LoopEnds n f tr) ⟨?_, ?_, ?_⟩
    fun f tr _ g _ h _ hs ↦ h.step (fleetMove_of_step hs)
  · rw [hstopped]
    rintro ⟨⟩
  · rw [hphase]
    rintro ⟨⟩
  · rw [hphase]
    rintro ⟨⟩

theorem rank_le_of_run (hinit : (workerLoops env).init s)
    (hrun : System.Run (workerLoops env) C s tr f) (n : ℕ) :
    f.rank env.settings n ≤ loopSteps env.settings := by
  refine LoopPhase.rank_le ?_ _
  refine hrun.invariant (I := fun f ↦ f.mail.rank env.settings n ≤ stepsPerClaim env.settings) ?_
    fun f _ g _ hle _ hs ↦ ?_
  · rw [MailWorld.rank_eq_zero_iff.mpr (hinit.1.2.2.2.2.1 n)]
    exact Nat.zero_le _
  · obtain ⟨labels, hperformed⟩ := (fleetMove_of_step hs).perform
    exact rank_le_of_perform hperformed hle

theorem timed_of_run (hinit : (workerLoops env).init s)
    (hrun : System.Run (workerLoops env) C s tr f) (n : ℕ) :
    Timed env n (s.processes n).monotonic f tr := by
  refine hrun.history (I := fun f tr ↦ Timed env n (s.processes n).monotonic f tr) ?_
    fun f tr _ g _ h _ hs ↦ h.step (fleetMove_of_step hs)
  obtain ⟨hphase, -, -⟩ := hinit.2 n
  refine ⟨⟨?_, ?_⟩, le_rfl, Or.inl rfl, fun _ ↦ ?_⟩
  · rw [hphase]
    rintro ⟨⟩
  · rw [hphase]
    rintro _ _ ⟨⟩
  · have hnone : ∀ kind, (counted n kind [] : ℚ) = 0 := fun _ ↦ Nat.cast_zero
    rw [hnone, hnone, mul_zero, add_zero, add_zero]
    exact (s.processes n).le_paid env

/-- The steps of a process are paid by its iterations. -/
theorem bounded_of_run (hrun : System.Run (workerLoops env) C f tr g) (n : ℕ) :
    g.rank env.settings n + counted n LoopEvent.isStep tr ≤
      f.rank env.settings n + counted n LoopEvent.isBegin tr * loopSteps env.settings := by
  have hspent := hrun.spending (I := fun _ ↦ True) (m := fun f ↦ f.rank env.settings n)
    (c := fun move ↦ if isRunOf n LoopEvent.isStep move then 1 else 0)
    (g := fun move ↦ if isRunOf n LoopEvent.isBegin move then loopSteps env.settings else 0)
    trivial fun f _ g _ _ _ hs ↦ ⟨trivial, (fleetMove_of_step hs).rank n⟩
  rwa [sum_map_ite, sum_map_ite, Nat.mul_one] at hspent

theorem stopped_of_run (hrun : System.Run (workerLoops env) C f tr g)
    (hstopped : (f.processes n).stopped = true) : counted n LoopEvent.isBegin tr = 0 := by
  refine (hrun.history (I := fun f tr ↦ (f.processes n).stopped = true ∧
    counted n LoopEvent.isBegin tr = 0) ⟨hstopped, rfl⟩ ?_).2
  rintro f tr move g made ⟨hstopped, hcount⟩ - hs
  rcases (fleetMove_of_step hs).cases_of n with
    ⟨hprocess, -, hkind⟩ | ⟨event, result, rfl, hloop, -, hp⟩
  · rw [hprocess, counted_snoc_of_not _ (hkind _)]
    exact ⟨hstopped, hcount⟩
  · obtain ⟨hafter, hbegin⟩ := hloop.stopped hstopped
    rw [hp, counted_snoc_of_not _ (by rw [isRunOf_self, hbegin])]
    exact ⟨hafter, hcount⟩

end

end

end Onebox.Notifications
