import Mathlib.Algebra.Group.Nat.Defs
import Onebox.Python.Clock

/-!
# Settings of the notification worker

The settings that the durable jobs read, within the bounds that are validated at startup, and the
backoff computed from them. Tokens come from `secrets.token_urlsafe(32)`; they are numbered in the
order in which they are drawn, so no token is drawn twice.
-/

namespace Onebox.Notifications

open Python

abbrev MessageId := String

/-- A token of `secrets.token_urlsafe(32)`. -/
abbrev LeaseToken := ℕ

/-- The `GMAIL_*` settings, with the bounds of their fields. -/
structure Settings where
  notificationLeaseSeconds : ℕ
  notificationMaxAttempts : ℕ
  retryBackoffInitialSeconds : ℕ
  retryBackoffMaxSeconds : ℕ
  resyncMaxMessages : ℕ
  historyMaxMessages : ℕ
  historyMaxPages : ℕ
  watchRenewalSeconds : ℕ
  lease_bounds : 10 ≤ notificationLeaseSeconds ∧ notificationLeaseSeconds ≤ 3600
  attempts_bounds : 1 ≤ notificationMaxAttempts ∧ notificationMaxAttempts ≤ 100
  backoff_bounds : 1 ≤ retryBackoffInitialSeconds ∧
    retryBackoffInitialSeconds ≤ retryBackoffMaxSeconds ∧ retryBackoffMaxSeconds ≤ 86400
  resync_bounds : 1 ≤ resyncMaxMessages ∧ resyncMaxMessages ≤ 1000
  history_bounds : 1 ≤ historyMaxMessages ∧ historyMaxMessages ≤ 1000 ∧ 1 ≤ historyMaxPages ∧
    historyMaxPages ≤ 100
  watch_bounds : 300 ≤ watchRenewalSeconds ∧ watchRenewalSeconds ≤ 604800

/-- The defaults. -/
def Settings.default : Settings where
  notificationLeaseSeconds := 120
  notificationMaxAttempts := 5
  retryBackoffInitialSeconds := 5
  retryBackoffMaxSeconds := 300
  resyncMaxMessages := 100
  historyMaxMessages := 100
  historyMaxPages := 10
  watchRenewalSeconds := 86400
  lease_bounds := by decide
  attempts_bounds := by decide
  backoff_bounds := by decide
  resync_bounds := by decide
  history_bounds := by decide
  watch_bounds := by decide

/-- `timedelta(seconds=settings.GMAIL_NOTIFICATION_LEASE_SECONDS)`. -/
def Settings.leaseDuration (settings : Settings) : Time :=
  seconds settings.notificationLeaseSeconds

/-- `_retry_at`, at the given reading of the clock. -/
def retryAt (settings : Settings) (now : Time) (attemptCount : ℕ) : Time :=
  now + seconds (min (settings.retryBackoffInitialSeconds * 2 ^ min (attemptCount - 1) 30)
    settings.retryBackoffMaxSeconds)

end Onebox.Notifications
