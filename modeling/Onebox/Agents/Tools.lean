import Mathlib.Data.Finset.Dedup
import Mathlib.Data.Finset.Filter
import Mathlib.Data.Finset.Insert
import Mathlib.Data.List.Basic
import Onebox.Python.Json

/-!
# Tools of the agents

The policy of a run, the tools it is bound to, and the command keys that the server issues for its
calls. The language model is the adversary: the calls it makes, with their names, arguments and ids,
are arbitrary, and so is what a tool does when it is called.

A run is described by what it has done so far: the tools it has called, with which arguments and
under which command key, and how many keys it has had issued.
-/

namespace Onebox.Agents

open Python

/-! ## Policies -/

/-- `AgentTool`. -/
inductive AgentTool
  | createDraft
  | markAsRead
  | sendEmail
  | sendReply
  | createEvent
  | createTask
  | getCalendarEvents
  deriving DecidableEq

namespace AgentTool

/-- The value of the member. -/
def value : AgentTool → String
  | createDraft => "create_draft"
  | markAsRead => "mark_as_read"
  | sendEmail => "send_email"
  | sendReply => "send_reply_to_user"
  | createEvent => "create_event"
  | createTask => "create_task"
  | getCalendarEvents => "get_calendar_events"

/-- The members of the enumeration. -/
def members : List AgentTool :=
  [createDraft, markAsRead, sendEmail, sendReply, createEvent, createTask, getCalendarEvents]

/-- `AgentTool(name)`; `none` is the `ValueError`. -/
def ofValue? (name : String) : Option AgentTool := members.find? fun tool ↦ tool.value = name

/-- `PRIMARY_MUTATION_TOOLS`. -/
def isPrimaryMutation : AgentTool → Bool
  | getCalendarEvents => false
  | createDraft | markAsRead | sendEmail | sendReply | createEvent | createTask => true

/-- `PENDING_ACTION_TOOL_NAMES`. -/
def isPendingAction : AgentTool → Bool
  | sendEmail | sendReply | createEvent | createTask => true
  | createDraft | markAsRead | getCalendarEvents => false

theorem ofValue?_eq_some_iff {name : String} {tool : AgentTool} :
    ofValue? name = some tool ↔ tool.value = name := by
  constructor
  · intro h
    simpa using List.find?_some h
  · rintro rfl
    cases tool <;> rfl

end AgentTool

/-- `AgentToolPolicy`. -/
structure AgentToolPolicy where
  allowedTools : Finset AgentTool
  maxPrimaryMutations : ℤ

/-- `AgentToolPolicy.allows`. -/
def AgentToolPolicy.allows (policy : AgentToolPolicy) (toolName : String) : Bool :=
  match AgentTool.ofValue? toolName with
  | none => false
  | some tool => tool ∈ policy.allowedTools

/-- `AgentToolPolicy.is_primary_mutation`, which no policy changes. -/
def isPrimaryMutation (toolName : String) : Bool :=
  match AgentTool.ofValue? toolName with
  | none => false
  | some tool => tool.isPrimaryMutation

/-- `AUTOMATED_INBOUND_POLICY`. -/
def automatedInboundPolicy : AgentToolPolicy where
  allowedTools := ∅
  maxPrimaryMutations := 0

/-- `INTERACTIVE_EXECUTIVE_POLICY`. -/
def interactiveExecutivePolicy : AgentToolPolicy where
  allowedTools := AgentTool.members.toFinset
  maxPrimaryMutations := 1

/-- `INTERACTIVE_STREAM_POLICY`. -/
def interactiveStreamPolicy : AgentToolPolicy where
  allowedTools := {.sendEmail, .createTask}
  maxPrimaryMutations := 1

/-! ## Bindings -/

/-- What a run has been given. -/
structure Services where
  gmail : Bool
  calendar : Bool
  tasks : Bool
  currentUserEmail : Option String

/-- `bool(current_user_email)`. -/
def hasEmail (currentUserEmail : Option String) : Bool :=
  match currentUserEmail with
  | none => false
  | some email => email ≠ ""

/-- The bindings of `bind_executive_tools`. -/
def Services.binds (services : Services) : AgentTool → Bool
  | .createDraft | .markAsRead | .sendEmail | .sendReply =>
    services.gmail && hasEmail services.currentUserEmail
  | .createEvent | .getCalendarEvents => services.calendar
  | .createTask => services.tasks

/-- The bindings of `bind_stream_tools`. -/
def bindsStream (currentUserEmail : Option String) : AgentTool → Bool
  | .createTask => true
  | .sendEmail => hasEmail currentUserEmail
  | _ => false

/-- `_tool_objects`: the callables of a run. -/
def toolObjects (policy : AgentToolPolicy) (binds : AgentTool → Bool) : Finset AgentTool :=
  policy.allowedTools.filter fun tool ↦ binds tool

/-- The callable of a name. -/
def findTool (available : Finset AgentTool) (name : String) : Option AgentTool :=
  (AgentTool.ofValue? name).filter fun tool ↦ tool ∈ available

/-! ## Calls -/

/-- The `args` of a call. -/
inductive CallArgs
  | none
  | mapping (entries : List (String × Json))
  /-- No mapping; `entries` is what `dict(args or {})` makes of it, if it does not raise. -/
  | other (entries : Option (List (String × Json)))

/-- A function call of the language model. A name or an id that is no string is `none`. -/
structure FunctionCall where
  name : Option String
  args : CallArgs
  id : Option String

/-- The id that `command_key_for_tool_call` and the coalescing go by. -/
def FunctionCall.providerId (call : FunctionCall) : Option String := call.id.filter (· ≠ "")

/-- `args.pop("command_key", None)`. -/
def popCommandKey (args : List (String × Json)) : List (String × Json) :=
  args.filter fun entry ↦ entry.1 ≠ "command_key"

/-- A tool that is called, with the arguments of the model and the command key of the server. -/
structure Invocation where
  tool : AgentTool
  args : List (String × Json)
  commandKey : Option String

/-- How the call of a tool ends. -/
inductive ToolOutcome
  /-- `CancelledError`. -/
  | cancelled
  /-- Any other exception, or a tool that is not asynchronous. -/
  | raised
  | returned (result : Json)

/-- What a run finds around it. -/
structure AgentWorld where
  /-- The keys that `issue_command_key` returns in the run, one after the other. -/
  issueCommandKey : ℕ → String
  /-- How the calls of tools end. -/
  invoke : ℕ → Invocation → ToolOutcome
  /-- The text of a value in an f-string. -/
  format : Json → String

/-- What a run has done so far. -/
structure AgentRun where
  mutationCount : ℕ
  toolCommandKeys : List (String × String)
  issued : ℕ
  invocations : List Invocation

/-- A run that has done nothing. -/
def AgentRun.start : AgentRun := ⟨0, [], 0, []⟩

/-- `command_key_for_tool_call`. A key is issued in any case, and kept if the identity is new. -/
def commandKeyForToolCall (world : AgentWorld) (scope : String) (call : FunctionCall)
    (run : AgentRun) : String × AgentRun :=
  let identity :=
    match call.providerId with
    | some id => "provider:" ++ id
    | none => scope
  let key := world.issueCommandKey run.issued
  let run := { run with issued := run.issued + 1 }
  match run.toolCommandKeys.lookup identity with
  | some existing => (existing, run)
  | none => (key, { run with toolCommandKeys := (identity, key) :: run.toolCommandKeys })

/-- The call of a tool. -/
def AgentRun.call (world : AgentWorld) (invocation : Invocation) (run : AgentRun) :
    ToolOutcome × AgentRun :=
  (world.invoke run.invocations.length invocation,
    { run with invocations := run.invocations ++ [invocation] })

/-- The action id of a result that awaits approval. -/
def pendingApproval (world : AgentWorld) (result : Json) : Option String :=
  if (result.get? "status").bind Json.str? = some "pending_approval" then
    some (world.format ((result.get? "action_id").getD .null))
  else none

end Onebox.Agents
