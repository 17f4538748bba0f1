import Onebox.Agents.Streamer
import Onebox.Python.JsonRead
import Onebox.Transition.System

/-!
# The event stream of the agent

`stream_response_generator` of `/generate-stream/`. It asks the generator of the agent for each
event in a task of its own, the next one before it yields the one it has; while the task is pending
it yields heartbeats. The task goes on whatever the response generator waits for, and each time that
it asks, the client is still there or is not.
-/

namespace Onebox.Agents

open Python Transition

/-! ## Frames -/

/-- `AgentStreamEventType`. -/
inductive AgentStreamEventType
  | token
  | toolResult
  | error
  | done
  deriving DecidableEq

namespace AgentStreamEventType

/-- The value of the member. -/
def value : AgentStreamEventType → String
  | token => "token"
  | toolResult => "tool_result"
  | error => "error"
  | done => "done"

/-- `event_type in {"done", "error"}`. -/
def isTerminal : AgentStreamEventType → Bool
  | done | error => true
  | token | toolResult => false

end AgentStreamEventType

/-- `AgentStreamEvent`. -/
structure AgentStreamEvent where
  event : AgentStreamEventType
  content : String
  errorCode : Option String

/-- `model_dump(exclude_none=True)`. -/
def AgentStreamEvent.dump (payload : AgentStreamEvent) : List (String × String) :=
  [("event", payload.event.value), ("content", payload.content)] ++
    payload.errorCode.toList.map fun code ↦ ("error_code", code)

/-- `_format_stream_event`. -/
def formatStreamEvent (payload : AgentStreamEvent) : List Char :=
  "data: ".toList ++ dumpsStringsSpaced payload.dump ++ ['\n', '\n']

/-- What the response generator yields. -/
inductive Frame
  | heartbeat
  | data (payload : AgentStreamEvent)

namespace Frame

def text : Frame → List Char
  | heartbeat => ": heartbeat".toList ++ ['\n', '\n']
  | data payload => formatStreamEvent payload

def payload? : Frame → Option AgentStreamEvent
  | heartbeat => none
  | data payload => some payload

end Frame

/-- What the generator of the agent yields, as it is sent. -/
def StreamEvent.payload : StreamEvent → AgentStreamEvent
  | token text => ⟨.token, text, none⟩
  | error message code => ⟨.error, message, some code⟩
  | toolResult message => ⟨.toolResult, message, none⟩

/-- The end that the response generator adds. -/
def doneEvent : AgentStreamEvent := ⟨.done, "", none⟩

/-- The end after an exception. -/
def failedEvent : AgentStreamEvent :=
  ⟨.error, "The agent stream failed unexpectedly.", some "llm_internal"⟩

/-! ## States -/

/-- `next_event`. -/
inductive NextEvent
  | notCreated
  | pending
  | yielded (event : StreamEvent)
  /-- `StopAsyncIteration`. -/
  | stopped
  /-- Another exception than a cancellation. -/
  | raised
  | cancelled

def NextEvent.isPending : NextEvent → Bool
  | pending => true
  | notCreated | yielded _ | stopped | raised | cancelled => false

/-- What follows a `yield`. -/
inductive Resumption
  | loops
  | returns

/-- Where the response generator is. -/
inductive ResponsePhase
  | entering
  /-- In `asyncio.wait`. -/
  | waiting
  /-- At a `yield`. -/
  | emitting (next : Resumption)
  /-- In the `gather` of the `finally` block. -/
  | cancelling
  /-- Before `iterator.aclose()`. -/
  | closing
  | exited

/-- The response generator, with what is left of the agent's events: they end, or the agent raises
after them. -/
structure EventStream where
  remaining : List StreamEvent
  raises : Bool
  nextEvent : NextEvent
  phase : ResponsePhase
  terminalSent : Bool
  /-- `iterator.aclose()` has closed the generator of the agent. -/
  agentClosed : Bool
  frames : List Frame

namespace EventStream

/-- Before the first frame is asked for. -/
def opened (remaining : List StreamEvent) (raises : Bool) : EventStream where
  remaining := remaining
  raises := raises
  nextEvent := .notCreated
  phase := .entering
  terminalSent := false
  agentClosed := false
  frames := []

/-! ## Steps -/

def emit (s : EventStream) (frame : Frame) (next : Resumption) : EventStream :=
  { s with phase := .emitting next, frames := s.frames ++ [frame] }

/-- The `finally` block, up to where it first waits. -/
def leave (s : EventStream) : EventStream :=
  { s with phase := if s.nextEvent.isPending then .cancelling else .closing }

/-- The end that is sent after the loop, or by the exception handler. -/
def finish (s : EventStream) (disconnected : Bool) (payload : AgentStreamEvent) : EventStream :=
  if s.terminalSent || disconnected then s.leave
  else { s with terminalSent := true }.emit (.data payload) .returns

end EventStream

inductive StreamStep
  /-- The first frame is asked for. -/
  | enters
  /-- The task of `anext(iterator)` is done. -/
  | agentAnswers
  /-- The cancellation of the task takes effect. -/
  | taskCancelled
  | waitTimesOut (disconnected : Bool)
  | waitReturns (disconnected : Bool)
  /-- The next frame is asked for. -/
  | resumes
  /-- `gather` returns. -/
  | gathered
  | closes

namespace StreamStep

def isTimeout : StreamStep → Bool
  | waitTimesOut _ => true
  | enters | agentAnswers | taskCancelled | waitReturns _ | resumes | gathered | closes => false

/-- `request.is_disconnected()` has not answered that the client is gone. -/
def connected : StreamStep → Bool
  | waitTimesOut disconnected | waitReturns disconnected => !disconnected
  | enters | agentAnswers | taskCancelled | resumes | gathered | closes => true

end StreamStep

namespace EventStream

def step (s : EventStream) : StreamStep → Option EventStream
  | .enters =>
    match s.phase with
    | .entering => some { s with phase := .waiting, nextEvent := .pending }
    | _ => none
  | .agentAnswers =>
    match s.nextEvent, s.remaining with
    | .pending, event :: rest => some { s with nextEvent := .yielded event, remaining := rest }
    | .pending, [] => some { s with nextEvent := if s.raises then .raised else .stopped }
    | _, _ => none
  | .taskCancelled =>
    match s.phase, s.nextEvent with
    | .cancelling, .pending => some { s with nextEvent := .cancelled, remaining := [] }
    | _, _ => none
  | .waitTimesOut disconnected =>
    match s.phase, s.nextEvent with
    | .waiting, .pending =>
      some (if disconnected then s.leave else s.emit .heartbeat .loops)
    | _, _ => none
  | .waitReturns disconnected =>
    match s.phase, s.nextEvent with
    | .waiting, .yielded event =>
      let s := { s with nextEvent := .pending }
      if disconnected then some s.leave
      else
        some (s.emit (.data event.payload)
          (if event.payload.event.isTerminal then .returns else .loops))
    | .waiting, .stopped => some (s.finish disconnected doneEvent)
    | .waiting, .raised => some (s.finish disconnected failedEvent)
    | _, _ => none
  | .resumes =>
    match s.phase with
    | .emitting .loops => some { s with phase := .waiting }
    | .emitting .returns => some { s with terminalSent := true }.leave
    | _ => none
  | .gathered =>
    match s.phase with
    | .cancelling => if s.nextEvent.isPending then none else some { s with phase := .closing }
    | _ => none
  | .closes =>
    match s.phase with
    -- a generator that runs cannot be closed
    | .closing => some { s with phase := .exited, agentClosed := !s.nextEvent.isPending }
    | _ => none

/-- The payloads of the data frames. -/
def payloads (s : EventStream) : List AgentStreamEvent := s.frames.filterMap Frame.payload?

end EventStream

/-- `/generate-stream/`, for an agent that yields `events` and then ends or raises. What is answered
is the frame, if one is yielded. -/
def generateStream (events : List StreamEvent) (raises : Bool) :
    System EventStream StreamStep (Option Frame) where
  init s := s = .opened events raises
  step s e := (s.step e).map fun s' ↦ (s', s'.frames[s.frames.length]?)

end Onebox.Agents
