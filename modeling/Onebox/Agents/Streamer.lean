import Onebox.Agents.Tools

/-!
# The streaming agent

`GeneralAgentStreamer.run`: one answer of the language model, in chunks, of which at most one
function call is executed. Its arguments may come in fragments, which are recognized by the id of
the call.
-/

namespace Onebox.Agents

open Python

/-! ## Fragments -/

/-- The loop of `_coalesce_stream_function_call` over the fragments. The selected call is one of
them; it has its own id and its own name, so that it passes both tests. -/
def mergeFragments (selected : FunctionCall) : List FunctionCall → List (String × Json) →
    Option (List (String × Json))
  | [], assembled => some assembled
  | fragment :: fragments, assembled =>
    if fragment.id ≠ selected.id then mergeFragments selected fragments assembled
    else if (fragment.name.any fun name ↦ name ≠ "" && fragment.name ≠ selected.name) then none
    else
      match fragment.args with
      | .none => mergeFragments selected fragments assembled
      | .other _ => none
      -- A later fragment overrides the values of earlier ones.
      | .mapping entries => mergeFragments selected fragments (entries ++ assembled)

/-- `_coalesce_stream_function_call`; `none` where the fragments do not fit together. -/
def coalesceStreamFunctionCall (selected : FunctionCall) (functionCalls : List FunctionCall) :
    Option (List (String × Json)) :=
  mergeFragments selected (if selected.providerId.isSome then functionCalls else [selected]) []

/-! ## Signatures -/

/-- The parameters of a bound tool, and whether each is required. -/
def AgentTool.parameters : AgentTool → List (String × Bool)
  | sendEmail =>
    [("recipient_email", true), ("subject", true), ("email_body", true), ("command_key", true)]
  | createDraft => [("recipient_email", true), ("subject", true), ("email_body", true)]
  | createEvent =>
    [("title", true), ("start_time_iso", true), ("end_time_iso", true), ("event_timezone", true),
      ("description", false), ("location", false), ("attendee_emails", false),
      ("command_key", true)]
  | createTask => [("title", true), ("notes", true), ("command_key", true)]
  | markAsRead => [("message_id", true)]
  | sendReply =>
    [("recipient_email", true), ("subject_filter", true), ("reply_message", true),
      ("command_key", true)]
  | getCalendarEvents => [("date_strs", true), ("target_timezone", false)]

/-- `validate_tool_arguments`, for the names of all keyword arguments. -/
def validateToolArguments (tool : AgentTool) (names : List String) : Bool :=
  names.all (fun name ↦ tool.parameters.any (·.1 = name)) &&
    tool.parameters.all fun parameter ↦ !parameter.2 || names.contains parameter.1

/-! ## The run -/

/-- A chunk of the answer. -/
structure StreamChunk where
  functionCalls : List FunctionCall
  text : Option String

/-- How the answer ends. -/
inductive StreamEnd
  | finished
  /-- `LlmOperationTimeout`. -/
  | timeout
  /-- `LlmOperationUnavailable`. -/
  | unavailable
  /-- `LlmOperationInternal`. -/
  | internal
  /-- Any other exception. -/
  | raised

/-- What a run yields. -/
inductive StreamEvent
  | token (text : String)
  | error (message code : String)
  | toolResult (message : String)

/-- The loop over the chunks: the function calls, and the tokens that precede the first of them. -/
def collectChunks : List StreamChunk → List FunctionCall → List FunctionCall × List StreamEvent
  | [], calls => (calls, [])
  | chunk :: chunks, calls =>
    let calls := calls ++ chunk.functionCalls
    let rest := collectChunks chunks calls
    match calls, chunk.text with
    | [], some text => (rest.1, if text = "" then rest.2 else .token text :: rest.2)
    | _, _ => rest

/-- The function call that may be executed. -/
def eligible (policy : AgentToolPolicy) (available : Finset AgentTool) (call : FunctionCall) :
    Bool :=
  match call.name with
  | none => false
  | some name =>
    policy.allows name && (findTool available name).isSome && isPrimaryMutation name &&
      1 ≤ policy.maxPrimaryMutations

/-- How a run ends. -/
structure StreamResult where
  events : List StreamEvent
  /-- An exception is raised to the consumer. -/
  raised : Bool
  run : AgentRun

/-- The answer when the selected call cannot be carried out. -/
def unavailableTool : StreamEvent :=
  .error "The requested tool could not complete. Please try again." "tool_unavailable"

/-- `GeneralAgentStreamer.run` once a call is selected. -/
def executeSelected (world : AgentWorld) (available : Finset AgentTool)
    (functionCalls : List FunctionCall) (call : FunctionCall) (name : String) (run : AgentRun) :
    StreamResult :=
  match findTool available name, coalesceStreamFunctionCall call functionCalls with
  | some tool, some args =>
    let args := popCommandKey args
    let (key, run) := commandKeyForToolCall world ("stream:" ++ name) call run
    if validateToolArguments tool (args.map Prod.fst ++ ["command_key"]) then
      let (outcome, run) := run.call world ⟨tool, args, some key⟩
      match outcome with
      | .cancelled => ⟨[], true, run⟩
      | .raised => ⟨[unavailableTool], false, run⟩
      | .returned result =>
        match pendingApproval world result with
        | some actionId =>
          ⟨[.toolResult ("Approval required. Approve action " ++ actionId ++ " to continue.")],
            false, run⟩
        | none => ⟨[.toolResult "The requested tool completed."], false, run⟩
    else ⟨[unavailableTool], false, run⟩
  | _, _ => ⟨[unavailableTool], false, run⟩

/-- `GeneralAgentStreamer.run` from the end of the stream on. -/
def executeStreamed (world : AgentWorld) (policy : AgentToolPolicy) (available : Finset AgentTool)
    (functionCalls : List FunctionCall) (run : AgentRun) : StreamResult :=
  if functionCalls = [] then ⟨[], false, run⟩
  else
    match functionCalls.find? (eligible policy available) with
    | none =>
      ⟨[.error "The requested tool is not available for this run." "tool_not_authorized"], false,
        run⟩
    | some call =>
      executeSelected world available functionCalls call (call.name.getD "") run

/-- `GeneralAgentStreamer.run`, which starts afresh whatever the agent has done before. -/
def GeneralAgentStreamer.run (world : AgentWorld) (policy : AgentToolPolicy)
    (currentUserEmail : Option String) (chunks : List StreamChunk) (ending : StreamEnd) :
    StreamResult :=
  let (functionCalls, tokens) := collectChunks chunks []
  match ending with
  | .finished =>
    let result := executeStreamed world policy (toolObjects policy (bindsStream currentUserEmail))
      functionCalls .start
    { result with events := tokens ++ result.events }
  | .timeout =>
    ⟨tokens ++ [.error "The agent response timed out. Please try again." "llm_timeout"], false,
      .start⟩
  | .unavailable =>
    ⟨tokens ++ [.error "The agent is temporarily unavailable." "llm_unavailable"], false, .start⟩
  | .internal =>
    ⟨tokens ++ [.error "The agent could not complete the stream. Please try again." "llm_internal"],
      false, .start⟩
  | .raised => ⟨tokens, true, .start⟩

end Onebox.Agents
