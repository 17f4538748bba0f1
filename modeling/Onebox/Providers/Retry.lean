import Mathlib.Algebra.Order.Field.Rat
import Mathlib.Algebra.Order.Monoid.WithTop
import Mathlib.Tactic.Linarith
import Mathlib.Tactic.NormNum

/-!
# Classified retries

`run_google_retryable_operation` in exact time: a provider's attempts and the waits between them are
all that takes time. What the attempts do, how long they last and what `random` gives are arbitrary;
a `Retry-After` may be any number, or infinite.
-/

namespace Onebox.Providers

/-! ## Failures -/

/-- The `GoogleProviderError`s. -/
inductive GoogleProviderError
  /-- `GoogleProviderError` itself. -/
  | provider
  | timeout
  | unavailable (statusCode : Option ℕ) (retryAfterSeconds : Option (WithTop ℚ))
  | quota (statusCode : Option ℕ) (retryAfterSeconds : Option (WithTop ℚ))
  | rejected (statusCode : Option ℕ)
  | authentication (statusCode : Option ℕ)
  | internal

inductive GoogleOperationSafety
  | read
  | idempotentWrite
  | ambiguousWrite
  deriving DecidableEq

inductive GoogleErrorCategory
  | retryable
  | permanent
  | authentication
  | quota
  | ambiguousWrite
  | internal
  deriving DecidableEq

structure GoogleFailureClassification where
  category : GoogleErrorCategory
  retryAfterSeconds : Option (WithTop ℚ) := none

def GoogleFailureClassification.retryable (failure : GoogleFailureClassification) : Bool :=
  failure.category = .retryable ∨ failure.category = .quota

/-- `classify_google_error`. A quota error is an unavailable one, and an authentication error a
rejected one. -/
def classifyGoogleError (error : GoogleProviderError) (safety : GoogleOperationSafety) :
    GoogleFailureClassification :=
  match safety, error with
  | .ambiguousWrite, .timeout | .ambiguousWrite, .unavailable _ _ | .ambiguousWrite, .quota _ _ =>
    { category := .ambiguousWrite }
  | _, .authentication _ => { category := .authentication }
  | _, .quota _ retryAfterSeconds =>
    { category := .quota, retryAfterSeconds := retryAfterSeconds }
  | _, .timeout => { category := .retryable }
  | _, .unavailable _ retryAfterSeconds =>
    { category := .retryable, retryAfterSeconds := retryAfterSeconds }
  | _, .rejected _ => { category := .permanent }
  | _, .provider | _, .internal => { category := .internal }

/-! ## Settings -/

/-- The `PROVIDER_*` settings of retries, as `Settings` admits them. -/
structure RetrySettings where
  timeoutSeconds : ℚ
  maxAttempts : ℕ
  initialSeconds : ℚ
  maxSeconds : ℚ
  deadlineSeconds : ℚ
  timeout_bounds : 0 < timeoutSeconds ∧ timeoutSeconds ≤ 300
  attempts_bounds : 1 ≤ maxAttempts ∧ maxAttempts ≤ 10
  initial_bounds : 0 < initialSeconds ∧ initialSeconds ≤ 60
  max_bounds : 0 < maxSeconds ∧ maxSeconds ≤ 300
  deadline_bounds : 0 < deadlineSeconds ∧ deadlineSeconds ≤ 600
  initial_le_max : initialSeconds ≤ maxSeconds
  initial_le_deadline : initialSeconds ≤ deadlineSeconds

/-- The defaults. -/
def RetrySettings.default : RetrySettings where
  timeoutSeconds := 20
  maxAttempts := 3
  initialSeconds := 1 / 4
  maxSeconds := 2
  deadlineSeconds := 10
  timeout_bounds := by norm_num
  attempts_bounds := by norm_num
  initial_bounds := by norm_num
  max_bounds := by norm_num
  deadline_bounds := by norm_num
  initial_le_max := by norm_num
  initial_le_deadline := by norm_num

/-- `retry_delay_seconds`. -/
def retryDelaySeconds (settings : RetrySettings) (attempt : ℕ)
    (retryAfterSeconds : Option (WithTop ℚ)) (randomValue : ℚ) : WithTop ℚ :=
  let exponential := min (settings.initialSeconds * 2 ^ (attempt - 1)) settings.maxSeconds
  let jittered := exponential * randomValue
  max (jittered : WithTop ℚ) (retryAfterSeconds.getD 0)

/-! ## The controller -/

/-- What an attempt does: `run_google_operation` returns, or it raises a `GoogleProviderError` or
another exception. -/
inductive Outcome (T ε : Type*)
  | returned (value : T)
  | failed (error : GoogleProviderError)
  | interrupted (exception : ε)

/-- What `run_google_retryable_operation` does. -/
inductive Result (T ε : Type*)
  | returned (value : T)
  /-- The failure of an attempt is raised again. -/
  | raised (error : GoogleProviderError)
  | interrupted (exception : ε)
  /-- The `GoogleOperationTimeout` of the controller. -/
  | expired
  /-- Its `GoogleOperationInternal`. -/
  | internal

/-- The attempt's outcome becomes that of the controller. -/
def Outcome.result {T ε : Type*} : Outcome T ε → Result T ε
  | returned value => .returned value
  | failed error => .raised error
  | interrupted exception => .interrupted exception

/-- The provider and the source of jitter, by the number of the attempt. -/
structure Provider (T ε : Type*) where
  outcome : ℕ → ℚ → Outcome T ε
  duration : ℕ → ℚ → ℚ
  randomValue : ℕ → ℚ
  /-- An attempt lasts at most its timeout. -/
  lasts : ∀ attempt timeout, 0 < timeout →
    0 ≤ duration attempt timeout ∧ duration attempt timeout ≤ timeout
  random_bounds : ∀ attempt, 0 ≤ randomValue attempt ∧ randomValue attempt < 1

/-- An attempt that was made, and the wait that followed it. -/
structure Attempt (T ε : Type*) where
  startedAt : ℚ
  timeout : ℚ
  outcome : Outcome T ε
  endedAt : ℚ
  wait : Option ℚ

section

variable {T ε : Type*}

/-- An attempt that begins now. -/
def Provider.attempt (provider : Provider T ε) (number : ℕ) (now timeout : ℚ) : Attempt T ε where
  startedAt := now
  timeout := timeout
  outcome := provider.outcome number timeout
  endedAt := now + provider.duration number timeout
  wait := none

/-- The attempts from `number` on, while as many as given are left, and the result. -/
def retryLoop (settings : RetrySettings) (safety : GoogleOperationSafety)
    (provider : Provider T ε) (deadline : ℚ) : ℕ → ℕ → ℚ → List (Attempt T ε) × Result T ε
  | 0, _, _ => ([], .internal)
  | left + 1, number, now =>
    if deadline - now ≤ 0 then ([], .expired)
    else
      let attempt := provider.attempt number now (min settings.timeoutSeconds (deadline - now))
      match attempt.outcome with
      | .returned value => ([attempt], .returned value)
      | .interrupted exception => ([attempt], .interrupted exception)
      | .failed error =>
        let failure := classifyGoogleError error safety
        if failure.retryable = false ∨ settings.maxAttempts ≤ number then
          ([attempt], .raised error)
        else
          let delay := retryDelaySeconds settings number failure.retryAfterSeconds
            (provider.randomValue number)
          if (deadline : WithTop ℚ) ≤ attempt.endedAt + delay then ([attempt], .raised error)
          else
            let wait := delay.untopD 0
            let rest := retryLoop settings safety provider deadline left (number + 1)
              (attempt.endedAt + wait)
            ({ attempt with wait := some wait } :: rest.1, rest.2)

/-- `run_google_retryable_operation`. -/
def runGoogleRetryableOperation (settings : RetrySettings) (safety : GoogleOperationSafety)
    (provider : Provider T ε) (now : ℚ) : List (Attempt T ε) × Result T ε :=
  if safety = .ambiguousWrite then
    let attempt := provider.attempt 1 now settings.timeoutSeconds
    ([attempt], attempt.outcome.result)
  else
    retryLoop settings safety provider (now + settings.deadlineSeconds) settings.maxAttempts 1 now

end

end Onebox.Providers
