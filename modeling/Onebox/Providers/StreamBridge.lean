import Onebox.Streams.Answers
import Onebox.Transition.System

/-!
# The bridge from a provider's iterator to an asynchronous consumer

`_GeminiStreamBridge` iterates over the provider on a worker thread and hands the chunks through a
bounded queue to `__anext__`. The worker waits for each of its puts; when that takes too long it
gives the put up and asks for its cancellation, which comes in time or not. The runner may fail
while the thread goes on, and the consumer may run out of time; both threads and the event loop are
scheduled arbitrarily.
-/

namespace Onebox.Providers

open Transition Streams

/-! ## Errors -/

/-- The subclasses of `LlmProviderError`. -/
inductive LlmError
  | timeout
  | unavailable
  | internal
  deriving DecidableEq

/-- The exceptions that `_translate_error` and `_run_producer` tell apart. -/
inductive ProviderFailure
  | operationTimeout
  | capacityExceeded
  /-- `OSError` or `TimeoutError`. -/
  | unreachable
  | llm (e : LlmError)
  | other
  deriving DecidableEq

/-- `_translate_error`. -/
def translateError : ProviderFailure → LlmError
  | .operationTimeout => .timeout
  | .capacityExceeded | .unreachable => .unavailable
  | .llm _ | .other => .internal

/-- The error that `_run_producer` queues. -/
def runnerError : ProviderFailure → LlmError
  | .llm e => e
  | failure => translateError failure

/-! ## States -/

/-- What goes through the queue. -/
inductive Item (κ : Type)
  | chunk (c : κ)
  | ending
  | error (e : LlmError)

def Item.chunk? {κ : Type} : Item κ → Option κ
  | chunk c => some c
  | ending | error _ => none

/-- The chunks among items. -/
def chunks {κ : Type} (queue : List (Item κ)) : List κ := queue.filterMap Item.chunk?

/-- What `_produce` does before it iterates; each follows a check of the stop flag. -/
inductive OpeningStep
  | newClient
  | registerClient
  | openStream
  | registerIterator

/-- Where the worker is in `_produce`. -/
inductive WorkerPhase (κ : Type)
  | unstarted
  | opening (next : OpeningStep)
  | iterating
  /-- The provider has yielded a chunk; the loop checks the stop flag. -/
  | holding (c : κ)
  /-- Before the check of `_enqueue_from_worker`. -/
  | enqueueing (item : Item κ)
  /-- Waiting for the put. -/
  | putting (item : Item κ)
  /-- In the exception handler, before its check. -/
  | failing (failure : ProviderFailure)
  | ended (failure : Option ProviderFailure)

/-- Where `_run_producer` is. -/
inductive RunnerPhase
  | running
  | putting (e : LlmError)
  | finished

/-- Whether the consumer waits in `__anext__`. -/
inductive ConsumerPhase
  | idle
  | waiting
  deriving DecidableEq

/-- The bridge, with what the provider has yielded and what `__anext__` has answered. -/
structure Bridge (κ : Type) where
  queue : List (Item κ)
  stop : Bool
  closed : Bool
  worker : WorkerPhase κ
  /-- Puts that the worker no longer waits for, and that have not been cancelled yet. -/
  abandoned : List (Item κ)
  runner : RunnerPhase
  consumer : ConsumerPhase
  produced : List κ
  /-- The provider has come to its end. -/
  exhausted : Bool
  /-- A call of `aclose` from outside has closed the bridge. -/
  closedOutside : Bool
  answers : List (Answer κ LlmError)

/-! ## Steps -/

/-- What the provider's iterator does when it is asked for the next chunk. -/
inductive ProviderAnswer (κ : Type)
  | yields (c : κ)
  | finishes
  | raises (failure : ProviderFailure)

inductive BridgeEvent (κ : Type)
  | workerStarts
  /-- The next step of the opening, which may raise. -/
  | workerOpens (failure : Option ProviderFailure)
  | providerAnswers (answer : ProviderAnswer κ)
  /-- The worker checks the stop flag. -/
  | workerChecks
  | putCompletes
  | putTimesOut
  | abandonedPutCompletes (i : ℕ)
  | abandonedPutCancelled (i : ℕ)
  /-- `_runner().run` raises, before, while or after the worker runs. -/
  | runnerFails (failure : ProviderFailure)
  /-- The outcome of `_produce` reaches `_run_producer`. -/
  | runnerReturns
  | runnerCancelled
  | runnerPutCompletes
  /-- `__anext__` is called, at or after the deadline or before it. -/
  | nextCalled (expired : Bool)
  | itemReceived
  /-- The idle timeout or the deadline passes in `__anext__`. -/
  | waitTimesOut
  | closedFromOutside

/-- The worker goes on when a put has been made, or skipped. -/
def afterEnqueue {κ : Type} : Item κ → WorkerPhase κ
  | .chunk _ => .iterating
  | .ending | .error _ => .ended none

/-- The worker goes on when a put has been given up. -/
def afterTimeout {κ : Type} : Item κ → WorkerPhase κ
  | .chunk _ | .ending => .failing .capacityExceeded
  | .error _ => .ended (some .capacityExceeded)

def afterOpening {κ : Type} : OpeningStep → WorkerPhase κ
  | .newClient => .opening .registerClient
  | .registerClient => .opening .openStream
  | .openStream => .opening .registerIterator
  | .registerIterator => .iterating

namespace Bridge

variable {κ : Type}

/-- After `start`. -/
def started : Bridge κ where
  queue := []
  stop := false
  closed := false
  worker := .unstarted
  abandoned := []
  runner := .running
  consumer := .idle
  produced := []
  exhausted := false
  closedOutside := false
  answers := []

def push (b : Bridge κ) (item : Item κ) : Bridge κ := { b with queue := b.queue ++ [item] }

/-- `__anext__` returns or raises. -/
def answer (b : Bridge κ) (a : Answer κ LlmError) : Bridge κ :=
  { b with consumer := .idle, answers := b.answers ++ [a] }

/-- `aclose`. -/
def aclose (queueSize : ℕ) (b : Bridge κ) : Bridge κ :=
  if b.closed then b
  else
    { b with
      closed := true
      stop := true
      queue := if b.queue.length < queueSize then b.queue ++ [.ending] else b.queue }

/-- The runner queues an error, unless the bridge is closed. -/
def failRunner (b : Bridge κ) (failure : ProviderFailure) : Bridge κ :=
  { b with runner := if b.stop then .finished else .putting (runnerError failure) }

/-- What `__anext__` does with an item. -/
def receive (queueSize : ℕ) (b : Bridge κ) : Item κ → Bridge κ
  | .chunk c => b.answer (.item c)
  | .ending => (b.aclose queueSize).answer .stop
  | .error e => (b.aclose queueSize).answer (.raised e)

def step (queueSize : ℕ) (b : Bridge κ) : BridgeEvent κ → Option (Bridge κ)
  | .workerStarts =>
    match b.worker with
    | .unstarted => some { b with worker := .opening .newClient }
    | _ => none
  | .workerOpens failure =>
    match b.worker with
    | .opening next =>
      if b.stop then some { b with worker := .ended none }
      else
        match failure with
        | some failure => some { b with worker := .failing failure }
        | none => some { b with worker := afterOpening next }
    | _ => none
  | .providerAnswers answer =>
    match b.worker with
    | .iterating =>
      match answer with
      | .yields c => some { b with worker := .holding c, produced := b.produced ++ [c] }
      | .finishes => some { b with worker := .enqueueing .ending, exhausted := true }
      | .raises failure => some { b with worker := .failing failure }
    | _ => none
  | .workerChecks =>
    match b.worker with
    | .holding c =>
      some { b with worker := if b.stop then .ended none else .enqueueing (.chunk c) }
    | .enqueueing item =>
      some { b with worker := if b.stop then afterEnqueue item else .putting item }
    | .failing failure =>
      some { b with
        worker := if b.stop then .ended none else .enqueueing (.error (translateError failure)) }
    | _ => none
  | .putCompletes =>
    match b.worker with
    | .putting item =>
      if b.queue.length < queueSize then some { b.push item with worker := afterEnqueue item }
      else none
    | _ => none
  | .putTimesOut =>
    match b.worker with
    | .putting item =>
      some { b with worker := afterTimeout item, abandoned := b.abandoned ++ [item] }
    | _ => none
  | .abandonedPutCompletes i =>
    match b.abandoned[i]? with
    | some item =>
      if b.queue.length < queueSize then
        some { b.push item with abandoned := b.abandoned.eraseIdx i }
      else none
    | none => none
  | .abandonedPutCancelled i => some { b with abandoned := b.abandoned.eraseIdx i }
  | .runnerFails failure =>
    match b.runner with
    | .running => some (b.failRunner failure)
    | _ => none
  | .runnerReturns =>
    match b.runner, b.worker with
    | .running, .ended none => some { b with runner := .finished }
    | .running, .ended (some failure) => some (b.failRunner failure)
    | _, _ => none
  | .runnerCancelled =>
    match b.runner with
    | .running => some { b with runner := .finished }
    | _ => none
  | .runnerPutCompletes =>
    match b.runner with
    | .putting e =>
      if b.queue.length < queueSize then some { b.push (.error e) with runner := .finished }
      else none
    | _ => none
  | .nextCalled expired =>
    match b.consumer with
    | .waiting => none
    | .idle =>
      if b.closed then some (b.answer .stop)
      else if expired then some ((b.aclose queueSize).answer (.raised .timeout))
      else some { b with consumer := .waiting }
  | .itemReceived =>
    match b.consumer, b.queue with
    | .waiting, item :: rest => some ({ b with queue := rest }.receive queueSize item)
    | _, _ => none
  | .waitTimesOut =>
    match b.consumer with
    | .waiting => some ((b.aclose queueSize).answer (.raised .timeout))
    | .idle => none
  | .closedFromOutside =>
    some { b.aclose queueSize with closedOutside := b.closedOutside || !b.closed }

end Bridge

/-- The bridge, from `start` on; `queueSize` is `LLM_STREAM_QUEUE_SIZE`. What is answered is the
answer of `__anext__`, if it makes one. -/
def streamBridge (κ : Type) (queueSize : ℕ) :
    System (Bridge κ) (BridgeEvent κ) (Option (Answer κ LlmError)) where
  init b := b = .started
  step b e := (b.step queueSize e).map fun b' ↦ (b', b'.answers[b.answers.length]?)

/-- `iter_stream`, on what `__anext__` answers: what it yields, and how it ends. -/
def iterStream {κ : Type} (answers : List (Answer κ LlmError)) :
    List κ × Option (Ending LlmError) :=
  asyncFor answers

end Onebox.Providers
