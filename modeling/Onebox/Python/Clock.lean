import Mathlib.Tactic.Common

/-!
# Time

Timestamps are microseconds, the resolution of `datetime`. A transaction that asks for the time
more than once may get a different answer each time, so it is given the sequence of its readings;
no relation between readings is assumed.
-/

namespace Python

/-- A timestamp in microseconds. -/
abbrev Time := ℕ

/-- The successive readings of the clock inside one transaction. -/
abbrev Clock := ℕ → Time

/-- `timedelta(seconds=n)`. -/
def seconds (n : ℕ) : Time := n * 1000000

/-- `timedelta(minutes=n)`. -/
def minutes (n : ℕ) : Time := seconds (n * 60)

/-- `timedelta(days=n)`. -/
def days (n : ℕ) : Time := seconds (n * 86400)

end Python
