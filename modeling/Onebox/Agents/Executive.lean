import Onebox.Agents.Tools

/-!
# The executive agent

`ExecutiveAgent.run`: up to five turns of the language model, each with any number of function
calls.
-/

namespace Onebox.Agents

open Python

/-! ## The calls of a turn -/

/-- `_tool_response_part`. -/
structure ToolResponse where
  name : String
  response : Json

def ToolResponse.error (name code : String) : ToolResponse :=
  ⟨name, .obj [("error", .str code)]⟩

/-- What comes of one call. -/
inductive CallEnd
  /-- An exception that ends the run. -/
  | raised
  /-- A message that ends the run. -/
  | terminal (message : String)
  | responded (part : ToolResponse)

/-- `dict(getattr(function_call, "args", None) or {})`; `none` is the exception. -/
def CallArgs.toDict : CallArgs → Option (List (String × Json))
  | none => some []
  | mapping entries => some entries
  | other entries => entries

/-- What the loop makes of the end of a tool. -/
def toolCallEnd (world : AgentWorld) (tool : AgentTool) (name : String) : ToolOutcome → CallEnd
  | .cancelled => .raised
  | .raised => .responded (.error name "tool_unavailable")
  | .returned result =>
    match pendingApproval world result with
    | some actionId =>
      .terminal ("Approval required. Approve action " ++ actionId ++ " to continue.")
    | none =>
      match tool, result with
      | .createDraft, .bool true => .terminal "Draft created for your review."
      | .createDraft, _ => .terminal "I could not create the draft. Please try again."
      | .markAsRead, .bool true => .terminal "Message marked as read."
      | .markAsRead, _ => .terminal "I could not mark the message as read. Please try again."
      | _, result => .responded ⟨name, .obj [("result", result)]⟩

/-- The loop of `_execute_tool_calls` from the check of the budget on, for an authorized tool. -/
def callTool (world : AgentWorld) (turn index : ℕ) (tool : AgentTool) (name : String)
    (call : FunctionCall) (run : AgentRun) : CallEnd × AgentRun :=
  match call.args.toDict with
  | none => (.raised, run)
  | some args =>
    let args := popCommandKey args
    let (commandKey, run) :=
      if tool.isPendingAction then
        let scope := "executive:" ++ toString turn ++ ":" ++ toString index ++ ":" ++ name
        let (key, run) := commandKeyForToolCall world scope call run
        (some key, run)
      else (none, run)
    let (outcome, run) := run.call world ⟨tool, args, commandKey⟩
    (toolCallEnd world tool name outcome, run)

/-- The loop of `_execute_tool_calls`, on one call. -/
def executeToolCall (world : AgentWorld) (policy : AgentToolPolicy) (available : Finset AgentTool)
    (turn index : ℕ) (call : FunctionCall) (run : AgentRun) : CallEnd × AgentRun :=
  match call.name with
  | none => (.responded (.error "unknown" "tool_not_authorized"), run)
  | some name =>
    match policy.allows name, findTool available name with
    | true, some tool =>
      if isPrimaryMutation name then
        if policy.maxPrimaryMutations ≤ run.mutationCount then
          (.responded (.error name "mutation_limit_reached"), run)
        else
          callTool world turn index tool name call
            { run with mutationCount := run.mutationCount + 1 }
      else callTool world turn index tool name call run
    | _, _ => (.responded (.error name "tool_not_authorized"), run)

/-- What comes of the calls of a turn. -/
inductive TurnEnd
  | raised
  | terminal (message : String)
  | responded (parts : List ToolResponse)

/-- `_execute_tool_calls`, from a call on. -/
def executeToolCalls (world : AgentWorld) (policy : AgentToolPolicy) (available : Finset AgentTool)
    (turn : ℕ) : ℕ → List FunctionCall → List ToolResponse → AgentRun → TurnEnd × AgentRun
  | _, [], responses, run => (.responded responses, run)
  | index, call :: calls, responses, run =>
    match executeToolCall world policy available turn index call run with
    | (.raised, run) => (.raised, run)
    | (.terminal message, run) => (.terminal message, run)
    | (.responded part, run) =>
      executeToolCalls world policy available turn (index + 1) calls (responses ++ [part]) run

/-! ## The turns of a run -/

/-- What the language model answers in a turn. -/
inductive ModelTurn
  /-- `provider.generate` raises. -/
  | raised
  | answered (functionCalls : List FunctionCall) (text : String)

/-- How a run ends. -/
inductive RunEnd
  | raised
  | returned (text : String)

/-- The loop of `ExecutiveAgent.run`, with the turns that are left. What the model answers may
depend on all that it has been told. -/
def runTurns (world : AgentWorld) (policy : AgentToolPolicy) (available : Finset AgentTool)
    (model : ℕ → List ToolResponse → ModelTurn) :
    ℕ → ℕ → List ToolResponse → AgentRun → RunEnd × AgentRun
  | 0, _, _, run =>
    (.returned
      "I could not complete the requested action. Please try again with one clear request.",
      run)
  | left + 1, turn, told, run =>
    match model turn told with
    | .raised => (.raised, run)
    | .answered [] text => (.returned text, run)
    | .answered calls _ =>
      match executeToolCalls world policy available turn 0 calls [] run with
      | (.raised, run) => (.raised, run)
      | (.terminal message, run) => (.returned message, run)
      | (.responded parts, run) =>
        runTurns world policy available model left (turn + 1) (told ++ parts) run

/-- `ExecutiveAgent.run`, which starts afresh whatever the agent has done before. -/
def ExecutiveAgent.run (world : AgentWorld) (policy : AgentToolPolicy) (services : Services)
    (model : ℕ → List ToolResponse → ModelTurn) : RunEnd × AgentRun :=
  runTurns world policy (toolObjects policy services.binds) model 5 0 [] .start

end Onebox.Agents
