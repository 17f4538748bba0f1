import Onebox.Providers.Retry

/-!
# The policy of the retry controller

A run of the controller is a sequence of attempts that the policy allows: each is bounded by the
time left, each but the last failed with an error that may be retried, and the wait after it ends
before the deadline. What the policy says of a run is read off the sequence.
-/

namespace Onebox.Providers

/-! ## Delays -/

section

variable {settings : RetrySettings} {attempt : ℕ} {retryAfterSeconds : Option (WithTop ℚ)}
  {randomValue : ℚ}

/-- `Retry-After` is a floor. -/
theorem le_retryDelaySeconds {seconds : WithTop ℚ} (h : seconds ∈ retryAfterSeconds) :
    seconds ≤ retryDelaySeconds settings attempt retryAfterSeconds randomValue := by
  rw [Option.mem_def.mp h]
  exact le_max_right _ _

/-- The backoff with full jitter stays below the cap. -/
theorem jittered_bounds (hrandom : 0 ≤ randomValue ∧ randomValue < 1) :
    0 ≤ min (settings.initialSeconds * 2 ^ (attempt - 1)) settings.maxSeconds * randomValue ∧
      min (settings.initialSeconds * 2 ^ (attempt - 1)) settings.maxSeconds * randomValue
        ≤ settings.maxSeconds := by
  have hinitial := settings.initial_bounds.1
  have hpow : (0 : ℚ) < 2 ^ (attempt - 1) := by positivity
  have hexponential : 0 ≤ min (settings.initialSeconds * 2 ^ (attempt - 1)) settings.maxSeconds :=
    le_min (by positivity) settings.max_bounds.1.le
  exact ⟨mul_nonneg hexponential hrandom.1,
    (mul_le_of_le_one_right hexponential hrandom.2.le).trans (min_le_right _ _)⟩

theorem retryDelaySeconds_nonneg (hrandom : 0 ≤ randomValue ∧ randomValue < 1) :
    0 ≤ retryDelaySeconds settings attempt retryAfterSeconds randomValue :=
  (WithTop.coe_nonneg.mpr (jittered_bounds hrandom).1).trans (le_max_left _ _)

theorem retryDelaySeconds_le (hrandom : 0 ≤ randomValue ∧ randomValue < 1) :
    retryDelaySeconds settings attempt retryAfterSeconds randomValue
      ≤ max (settings.maxSeconds : WithTop ℚ) (retryAfterSeconds.getD 0) :=
  max_le_max_right _ (WithTop.coe_le_coe.mpr (jittered_bounds hrandom).2)

end

/-! ## The sequences that the policy allows -/

section

variable {T ε : Type*}

/-- An attempt that begins now and is bounded by the settings and the deadline. -/
structure Attempt.Bounded (settings : RetrySettings) (deadline : WithTop ℚ) (now : ℚ)
    (a : Attempt T ε) : Prop where
  startedAt : a.startedAt = now
  positive : 0 < a.timeout
  timeout : a.timeout ≤ settings.timeoutSeconds
  deadline : ((a.startedAt + a.timeout : ℚ) : WithTop ℚ) ≤ deadline
  lasts : a.startedAt ≤ a.endedAt ∧ a.endedAt ≤ a.startedAt + a.timeout

/-- The wait after a failure is one that the policy allows. -/
structure Attempt.Waits (settings : RetrySettings) (safety : GoogleOperationSafety)
    (deadline : WithTop ℚ) (a : Attempt T ε) (error : GoogleProviderError) (delay : ℚ) : Prop where
  failed : a.outcome = .failed error
  wait : a.wait = some delay
  retryable : (classifyGoogleError error safety).category = .retryable ∨
    (classifyGoogleError error safety).category = .quota
  floor : ∀ seconds ∈ (classifyGoogleError error safety).retryAfterSeconds, seconds ≤ delay
  cap : (delay : WithTop ℚ) ≤ max (settings.maxSeconds : WithTop ℚ)
    ((classifyGoogleError error safety).retryAfterSeconds.getD 0)
  before : ((a.endedAt + delay : ℚ) : WithTop ℚ) < deadline

/-- The attempts from `number` on, and the result. -/
inductive Retried (settings : RetrySettings) (safety : GoogleOperationSafety)
    (deadline : WithTop ℚ) : ℕ → ℚ → List (Attempt T ε) → Result T ε → Prop
  | last {number : ℕ} {now : ℚ} {a : Attempt T ε} (number_le : number ≤ settings.maxAttempts)
      (bounded : a.Bounded settings deadline now) (wait : a.wait = none) :
      Retried settings safety deadline number now [a] a.outcome.result
  | again {number : ℕ} {now : ℚ} {a : Attempt T ε} {error : GoogleProviderError} {delay : ℚ}
      {rest : List (Attempt T ε)} {result : Result T ε}
      (bounded : a.Bounded settings deadline now)
      (waits : a.Waits settings safety deadline error delay)
      (more : Retried settings safety deadline (number + 1) (a.endedAt + delay) rest result) :
      Retried settings safety deadline number now (a :: rest) result

variable {settings : RetrySettings} {safety : GoogleOperationSafety} {provider : Provider T ε}
  {deadline now : ℚ}

theorem bounded_attempt (number : ℕ) (hnow : now < deadline) :
    (provider.attempt number now (min settings.timeoutSeconds (deadline - now))).Bounded settings
      deadline now := by
  have hpositive : 0 < min settings.timeoutSeconds (deadline - now) :=
    lt_min settings.timeout_bounds.1 (sub_pos.mpr hnow)
  obtain ⟨hnonneg, hlasts⟩ := provider.lasts number _ hpositive
  refine ⟨rfl, hpositive, min_le_left _ _, ?_, le_add_of_nonneg_right hnonneg, ?_⟩
  · rw [WithTop.coe_le_coe]
    exact le_sub_iff_add_le'.mp (min_le_right _ _)
  · exact add_le_add_right hlasts _

/-- A finite delay that ends before the deadline. -/
theorem exists_wait {endedAt : ℚ} {delay : WithTop ℚ}
    (h : ¬(deadline : WithTop ℚ) ≤ endedAt + delay) :
    ∃ wait : ℚ, delay = wait ∧ endedAt + wait < deadline := by
  rw [not_le] at h
  have hfinite : delay ≠ ⊤ := by
    rintro rfl
    rw [WithTop.add_top] at h
    exact absurd h not_top_lt
  obtain ⟨wait, rfl⟩ := WithTop.ne_top_iff_exists.mp hfinite
  refine ⟨wait, rfl, ?_⟩
  rw [← WithTop.coe_add, WithTop.coe_lt_coe] at h
  exact h

/-- The step lemma: an attempt is the last one, or one that the policy allows to repeat. -/
theorem retried_step {left number : ℕ} (hnumber : number ≤ settings.maxAttempts)
    (hnow : now < deadline)
    (hmore : number < settings.maxAttempts → ∀ later, later < deadline →
      Retried settings safety deadline (number + 1) later
        (retryLoop settings safety provider deadline left (number + 1) later).1
        (retryLoop settings safety provider deadline left (number + 1) later).2) :
    Retried settings safety deadline number now
      (retryLoop settings safety provider deadline (left + 1) number now).1
      (retryLoop settings safety provider deadline (left + 1) number now).2 := by
  have hbounded : (provider.attempt number now
      (min settings.timeoutSeconds (deadline - now))).Bounded settings deadline now :=
    bounded_attempt number hnow
  have hwait : (provider.attempt number now
      (min settings.timeoutSeconds (deadline - now))).wait = none := rfl
  rw [retryLoop, if_neg (not_le.mpr (sub_pos.mpr hnow))]
  dsimp only
  -- From here on only the bounds of the attempt matter, not how it was made.
  generalize provider.attempt number now (min settings.timeoutSeconds (deadline - now)) = a
    at hbounded hwait ⊢
  have hlast : Retried settings safety deadline number now [a] a.outcome.result :=
    .last hnumber hbounded hwait
  cases houtcome : a.outcome with
  | returned value =>
    rw [houtcome] at hlast
    exact hlast
  | interrupted exception =>
    rw [houtcome] at hlast
    exact hlast
  | failed error =>
    rw [houtcome] at hlast
    dsimp only
    split
    · exact hlast
    rename_i hretry
    obtain ⟨hretryable, hlt⟩ := not_or.mp hretry
    split
    · exact hlast
    rename_i hbefore
    obtain ⟨delay, hdelay, hends⟩ := exists_wait hbefore
    have hrandom := provider.random_bounds number
    rw [hdelay, WithTop.untopD_coe]
    -- It is retried: the error allows it, an attempt is left, and the wait ends in time.
    refine .again (a := { a with outcome := .failed error, wait := some delay })
      ⟨hbounded.startedAt, hbounded.positive, hbounded.timeout, hbounded.deadline, hbounded.lasts⟩
      ⟨rfl, rfl, ?_, ?_, ?_, WithTop.coe_lt_coe.mpr hends⟩
      (hmore (not_le.mp hlt) _ hends)
    · exact of_decide_eq_true (Bool.eq_true_of_not_eq_false hretryable)
    · rw [← hdelay]
      exact fun seconds ↦ le_retryDelaySeconds
    · rw [← hdelay]
      exact retryDelaySeconds_le hrandom

/-- **The run lemma.** While attempts and time are left, the loop makes a sequence that the policy
allows. -/
theorem retried_retryLoop {left number : ℕ} (hleft : number + left = settings.maxAttempts)
    (hnow : now < deadline) :
    Retried settings safety deadline number now
      (retryLoop settings safety provider deadline (left + 1) number now).1
      (retryLoop settings safety provider deadline (left + 1) number now).2 := by
  -- On the attempts left.
  induction left generalizing number now with
  | zero =>
    refine retried_step (le_of_eq hleft) hnow fun hlt ↦ ?_
    exact absurd hleft (Nat.ne_of_lt hlt)
  | succ left ih =>
    refine retried_step (hleft ▸ Nat.le_add_right _ _) hnow fun _ later hlater ↦ ih ?_ hlater
    rw [← hleft, Nat.add_assoc, Nat.add_comm 1]

/-! ## What the policy says of a run -/

namespace Retried

variable {number : ℕ} {limit : WithTop ℚ} {attempts : List (Attempt T ε)} {result : Result T ε}

theorem length_le (h : Retried settings safety limit number now attempts result) :
    attempts.length + number ≤ settings.maxAttempts + 1 := by
  induction h with
  | last number_le => rw [List.length_singleton, Nat.add_comm]; exact Nat.succ_le_succ number_le
  | again _ _ _ ih => rw [List.length_cons, Nat.add_right_comm]; exact ih

theorem bounded (h : Retried settings safety limit number now attempts result) :
    ∀ a ∈ attempts, a.Bounded settings limit a.startedAt := by
  induction h with
  | last _ bounded _ =>
    intro a hmem
    rw [List.mem_singleton.mp hmem]
    exact bounded.startedAt ▸ bounded
  | again bounded _ _ ih =>
    rw [List.forall_mem_cons]
    exact ⟨bounded.startedAt ▸ bounded, ih⟩

/-- The first attempt begins at once. -/
theorem head (h : Retried settings safety limit number now attempts result) :
    ∃ a rest, attempts = a :: rest ∧ a.startedAt = now := by
  cases h with
  | last _ bounded _ => exact ⟨_, _, rfl, bounded.startedAt⟩
  | again bounded _ _ => exact ⟨_, _, rfl, bounded.startedAt⟩

/-- The last attempt decides the result. -/
theorem getLast (h : Retried settings safety limit number now attempts result) :
    ∃ a, attempts.getLast? = some a ∧ a.wait = none ∧ result = a.outcome.result := by
  induction h with
  | last _ _ wait => exact ⟨_, rfl, wait, rfl⟩
  | @again _ _ a _ _ rest _ _ _ more ih =>
    obtain ⟨last, hlast, hwait, hresult⟩ := ih
    obtain ⟨next, tail, rfl, -⟩ := more.head
    exact ⟨last, hlast, hwait, hresult⟩

/-- Two attempts that follow each other. -/
theorem again_of_split (h : Retried settings safety limit number now attempts result)
    {before after : List (Attempt T ε)} {a next : Attempt T ε}
    (hsplit : attempts = before ++ a :: next :: after) :
    ∃ error delay, a.Waits settings safety limit error delay ∧
      next.startedAt = a.endedAt + delay := by
  induction h generalizing before with
  | last =>
    have hlength := congrArg List.length hsplit
    rw [List.length_append, List.length_singleton, List.length_cons, List.length_cons] at hlength
    omega
  | again _ waits more ih =>
    cases before with
    | nil =>
      obtain ⟨rfl, hrest⟩ := List.cons.inj hsplit
      obtain ⟨first, tail, hfirst, hstart⟩ := more.head
      obtain ⟨rfl, -⟩ := List.cons.inj (hrest.symm.trans hfirst)
      exact ⟨_, _, waits, hstart⟩
    | cons b before => exact ih (List.cons.inj hsplit).2

/-- Each wait is one that the policy allows. -/
theorem waits (h : Retried settings safety limit number now attempts result) :
    ∀ a ∈ attempts, ∀ delay, a.wait = some delay →
      ∃ error, a.Waits settings safety limit error delay := by
  induction h with
  | last _ _ wait =>
    intro a hmem delay hdelay
    rw [List.mem_singleton.mp hmem, wait] at hdelay
    cases hdelay
  | again _ waits _ ih =>
    rw [List.forall_mem_cons]
    refine ⟨fun delay hdelay ↦ ?_, ih⟩
    obtain rfl := Option.some.inj (waits.wait.symm.trans hdelay)
    exact ⟨_, waits⟩

end Retried

/-- What the policy says of a run that begins at `now`. -/
structure WithinPolicy (settings : RetrySettings) (safety : GoogleOperationSafety) (now : ℚ)
    (run : List (Attempt T ε) × Result T ε) : Prop where
  attempts : run.1.length ≤ settings.maxAttempts
  once : safety = .ambiguousWrite → run.1.length = 1
  /-- Another attempt follows a failure that may be retried, after a wait. -/
  again : ∀ before a next after, run.1 = before ++ a :: next :: after →
    ∃ error delay, a.outcome = .failed error ∧
      ((classifyGoogleError error safety).category = .retryable ∨
        (classifyGoogleError error safety).category = .quota) ∧
      a.wait = some delay ∧ next.startedAt = a.endedAt + delay
  /-- The last attempt's value is returned, or its failure raised again. -/
  last : ∃ a, run.1.getLast? = some a ∧ a.wait = none ∧ run.2 = a.outcome.result
  timeout : ∀ a ∈ run.1, 0 < a.timeout ∧ a.timeout ≤ settings.timeoutSeconds ∧
    (safety ≠ .ambiguousWrite → a.timeout ≤ now + settings.deadlineSeconds - a.startedAt)
  /-- A wait respects `Retry-After` and the cap, and ends before the deadline. -/
  wait : ∀ a ∈ run.1, ∀ delay, a.wait = some delay → ∃ error, a.outcome = .failed error ∧
    (∀ seconds ∈ (classifyGoogleError error safety).retryAfterSeconds, seconds ≤ delay) ∧
    (delay : WithTop ℚ) ≤ max (settings.maxSeconds : WithTop ℚ)
      ((classifyGoogleError error safety).retryAfterSeconds.getD 0) ∧
    a.endedAt + delay < now + settings.deadlineSeconds
  internal : run.2 ≠ .internal

theorem Outcome.result_ne_internal (o : Outcome T ε) : o.result ≠ .internal := by
  cases o with
  | returned | failed | interrupted => exact nofun

/-- A write that must not be repeated. -/
theorem withinPolicy_ambiguousWrite (provider : Provider T ε) (now : ℚ) :
    WithinPolicy settings .ambiguousWrite now
      (runGoogleRetryableOperation settings .ambiguousWrite provider now) := by
  rw [runGoogleRetryableOperation, if_pos rfl]
  refine ⟨settings.attempts_bounds.1, fun _ ↦ rfl, ?_, ⟨_, rfl, rfl, rfl⟩, ?_, ?_,
    Outcome.result_ne_internal _⟩
  · intro before a next after hsplit
    have hlength := congrArg List.length hsplit
    rw [List.length_append, List.length_singleton, List.length_cons, List.length_cons] at hlength
    omega
  · intro a hmem
    rw [List.mem_singleton.mp hmem]
    exact ⟨settings.timeout_bounds.1, le_rfl, fun hsafety ↦ absurd rfl hsafety⟩
  · intro a hmem delay hdelay
    rw [List.mem_singleton.mp hmem] at hdelay
    cases hdelay

/-- A provider that is over its quota at the first attempt. -/
def overQuotaOnce (retryAfterSeconds : WithTop ℚ) : Provider String Unit where
  outcome number _ := if number = 1 then .failed (.quota (some 429) (some retryAfterSeconds))
    else .returned "success"
  duration _ _ := 0
  randomValue _ := 1 / 2
  lasts _ _ hpositive := ⟨le_rfl, hpositive.le⟩
  random_bounds _ := by norm_num

/-- `Retry-After` is waited for. -/
example : (runGoogleRetryableOperation .default .read (overQuotaOnce 3) 0).1.map Attempt.wait =
    [some 3, none] := by decide +kernel

/-- Not when it is infinite. -/
example : (runGoogleRetryableOperation .default .read (overQuotaOnce ⊤) 0).1.map Attempt.wait =
    [none] := by decide +kernel

end

end Onebox.Providers
