import Mathlib.Logic.Function.Basic
import Onebox.Transition.System

/-!
# The bounded runner

`BoundedSyncRunner.run` and `run_google_operation` under the event loop. A call takes the lock of
its resource, then one of the runner's slots, and hands its operation to a thread. When the caller
gives up first, the slot and the lock stay taken until the thread has exited; a callback then
releases them in the caller's stead.

The events are what the loop does between two awaits, and what threads do meanwhile. Which waiter is
woken is left open, so the fairness of `asyncio` is not used. A semaphore hands its slot to a waiter
before the waiter runs again: a call in phase `granted` has a slot and has not run since.

A call of `run` alone is a call without a resource.
-/

namespace Onebox.Providers

open Transition

/-! ## Calls -/

/-- Where a call stands. -/
inductive Phase
  /-- In `lock.acquire()`. -/
  | lockWait
  /-- In `self._slots.acquire()`. -/
  | slotWait
  /-- In `self._slots.acquire()`, which has been given a slot. -/
  | granted
  /-- In `asyncio.shield(future)`. -/
  | executing
  /-- The caller has left; `release_when_finished` is to run when the future is done. -/
  | detached
  /-- Nothing of the call is left. -/
  | ended
  deriving DecidableEq

/-- The operation of a call in the executor. -/
inductive Operation
  | notSubmitted
  | queued
  | running
  | exited
  deriving DecidableEq

/-- The operation is in the executor. -/
def Operation.active : Operation → Bool
  | notSubmitted | exited => false
  | queued | running => true

/-- How often a call has acquired something, and how often that was released for it. -/
structure Tally where
  acquired : ℕ
  released : ℕ
  deriving DecidableEq

/-- Acquired and not released. -/
def Tally.held (t : Tally) : Bool := t.released < t.acquired

/-- A call of `run_google_operation`. -/
structure Call (R : Type*) where
  resource : Option R
  phase : Phase
  operation : Operation
  /-- `future.done()`. -/
  done : Bool
  slot : Tally
  lock : Tally

/-- The runner, the resource locks, and the calls made so far. -/
structure Runner (R : Type*) where
  /-- The semaphore's value. -/
  slots : ℕ
  locked : R → Bool
  calls : List (Call R)
  /-- The calls of `release()` that raised. -/
  faults : ℕ

section

variable {R : Type*} [DecidableEq R]

/-! ## Semaphore and locks -/

/-- `BoundedSemaphore.release()`, which raises when all slots are free. -/
def releaseSlot (maxWorkers : ℕ) (w : Runner R × Call R) : Runner R × Call R :=
  if w.1.slots < maxWorkers then
    ({ w.1 with slots := w.1.slots + 1 },
      { w.2 with slot := { w.2.slot with released := w.2.slot.released + 1 } })
  else ({ w.1 with faults := w.1.faults + 1 }, w.2)

/-- What `BoundedSemaphore.acquire()` does when it is cancelled with a slot in hand. -/
def returnSlot (w : Runner R × Call R) : Runner R × Call R :=
  ({ w.1 with slots := w.1.slots + 1 },
    { w.2 with slot := { w.2.slot with released := w.2.slot.released + 1 } })

/-- `Lock.release()`, which raises when the lock is free. A call without a resource has no lock. -/
def releaseLock (w : Runner R × Call R) : Runner R × Call R :=
  match w.2.resource with
  | none => w
  | some r =>
    if w.1.locked r then
      ({ w.1 with locked := Function.update w.1.locked r false },
        { w.2 with lock := { w.2.lock with released := w.2.lock.released + 1 } })
    else ({ w.1 with faults := w.1.faults + 1 }, w.2)

/-- The call has reached a phase. -/
def enter (phase : Phase) (w : Runner R × Call R) : Runner R × Call R :=
  (w.1, { w.2 with phase := phase })

/-! ## The steps of a call -/

/-- A call that begins. -/
def Call.begin (resource : Option R) : Call R where
  resource := resource
  phase := if resource.isSome then .lockWait else .slotWait
  operation := .notSubmitted
  done := false
  slot := ⟨0, 0⟩
  lock := ⟨0, 0⟩

/-- The lock has been acquired. When the deadline has passed, the outer `finally` releases it. -/
def acquireLock (r : R) (late : Bool) (w : Runner R × Call R) : Runner R × Call R :=
  let w := ({ w.1 with locked := Function.update w.1.locked r true },
    { w.2 with lock := { w.2.lock with acquired := w.2.lock.acquired + 1 } })
  if late then enter .ended (releaseLock w) else enter .slotWait w

/-- The semaphore gives a slot. -/
def grantSlot (w : Runner R × Call R) : Runner R × Call R :=
  enter .granted ({ w.1 with slots := w.1.slots - 1 },
    { w.2 with slot := { w.2.slot with acquired := w.2.slot.acquired + 1 } })

/-- The call goes on with its slot: the operation is handed to the executor, unless the deadline has
passed. -/
def submit (maxWorkers : ℕ) (late : Bool) (w : Runner R × Call R) : Runner R × Call R :=
  if late then enter .ended (releaseLock (releaseSlot maxWorkers w))
  else enter .executing (w.1, { w.2 with operation := .queued })

/-- The two `finally` blocks. -/
def leaveExecution (maxWorkers : ℕ) (w : Runner R × Call R) : Runner R × Call R :=
  if w.2.done then enter .ended (releaseLock (releaseSlot maxWorkers w)) else enter .detached w

/-- `release_when_finished`, with `on_detached_completion`. -/
def releaseWhenFinished (maxWorkers : ℕ) (w : Runner R × Call R) : Runner R × Call R :=
  enter .ended (releaseLock (releaseSlot maxWorkers w))

/-- A timeout or a cancellation reaches the caller. -/
def giveUp (maxWorkers : ℕ) (w : Runner R × Call R) : Option (Runner R × Call R) :=
  match w.2.phase with
  | .lockWait => some (enter .ended w)
  | .slotWait => some (enter .ended (releaseLock w))
  | .granted => some (enter .ended (releaseLock (returnSlot w)))
  | .executing => some (leaveExecution maxWorkers w)
  | .detached | .ended => none

/-! ## The system -/

/-- What happens next. -/
inductive Event (R : Type*)
  | begin (resource : Option R)
  | acquireLock (n : ℕ) (late : Bool)
  | grantSlot (n : ℕ)
  | submit (n : ℕ) (late : Bool)
  | giveUp (n : ℕ)
  | startThread (n : ℕ)
  | exitThread (n : ℕ)
  /-- The loop learns that the thread has exited: the future is done. -/
  | complete (n : ℕ)
  /-- The caller gets the result. -/
  | resume (n : ℕ)
  | releaseWhenFinished (n : ℕ)

/-- The step of the call that an event is about. -/
def callStep (maxWorkers : ℕ) (w : Runner R × Call R) : Event R → Option (Runner R × Call R)
  | .begin _ => none
  | .acquireLock _ late =>
    match w.2.resource with
    | none => none
    | some r =>
      if w.2.phase = .lockWait ∧ w.1.locked r = false then some (acquireLock r late w) else none
  | .grantSlot _ => if w.2.phase = .slotWait ∧ 0 < w.1.slots then some (grantSlot w) else none
  | .submit _ late => if w.2.phase = .granted then some (submit maxWorkers late w) else none
  | .giveUp _ => giveUp maxWorkers w
  | .startThread _ =>
    if w.2.operation = .queued ∧ w.1.calls.countP (·.operation = .running) < maxWorkers then
      some (w.1, { w.2 with operation := .running })
    else none
  | .exitThread _ =>
    if w.2.operation = .running then some (w.1, { w.2 with operation := .exited }) else none
  | .complete _ =>
    if w.2.operation = .exited ∧ w.2.done = false then some (w.1, { w.2 with done := true })
    else none
  | .resume _ =>
    if w.2.phase = .executing ∧ w.2.done then some (leaveExecution maxWorkers w) else none
  | .releaseWhenFinished _ =>
    if w.2.phase = .detached ∧ w.2.done then some (releaseWhenFinished maxWorkers w) else none

/-- The call that an event is about. -/
def Event.call : Event R → ℕ
  | .begin _ => 0
  | .acquireLock n _ | .grantSlot n | .submit n _ | .giveUp n | .startThread n | .exitThread n
  | .complete n | .resume n | .releaseWhenFinished n => n

/-- One event. -/
def step (maxWorkers : ℕ) (w : Runner R) (e : Event R) : Option (Runner R × Unit) :=
  match e with
  | .begin resource => some ({ w with calls := w.calls ++ [Call.begin resource] }, ())
  | e =>
    match w.calls[e.call]? with
    | none => none
    | some c =>
      (callStep maxWorkers (w, c) e).map fun w' ↦
        ({ w'.1 with calls := w'.1.calls.set e.call w'.2 }, ())

/-- The open runner. -/
def runner (R : Type*) [DecidableEq R] (maxWorkers : ℕ) : System (Runner R) (Event R) Unit where
  init w := w = ⟨maxWorkers, fun _ ↦ false, [], 0⟩
  step := step maxWorkers

end

end Onebox.Providers
