import Onebox.Agents.Executive
import Onebox.Agents.Streamer

/-!
# An agent run stays within its authority

Whatever the language model calls, and whatever the tools do, a run calls allowed tools only,
mutates at most as often as its policy says, and hands out command keys of its own. The two agents
are written separately; both keep one invariant of the run, which each call of a tool is shown to
keep.
-/

namespace Onebox.Agents

open Python

/-! ## What a run may do -/

/-- The primary mutations that have been called. -/
def AgentRun.mutations (run : AgentRun) : ℕ :=
  run.invocations.countP fun invocation ↦ invocation.tool.isPrimaryMutation

/-- The primary mutations that a run may call: none when the policy says less than none. -/
def AgentToolPolicy.budget (policy : AgentToolPolicy) : ℤ := max 0 policy.maxPrimaryMutations

/-- A key that the server has issued in the run. -/
def AgentRun.HasIssued (world : AgentWorld) (run : AgentRun) (key : String) : Prop :=
  ∃ i < run.issued, key = world.issueCommandKey i

/-- **A run within its authority**, with at most `limit` primary mutations. -/
structure AgentRun.WithinAuthority (world : AgentWorld) (policy : AgentToolPolicy)
    (binds : AgentTool → Bool) (limit : ℤ) (run : AgentRun) : Prop where
  /-- Every tool that is called is allowed. -/
  allowed : ∀ invocation ∈ run.invocations, invocation.tool ∈ policy.allowedTools
  /-- It is one of those that the run has been given. -/
  bound : ∀ invocation ∈ run.invocations, binds invocation.tool = true
  /-- The budget of mutations is kept. -/
  budget : run.mutations ≤ limit
  /-- A command key was issued in this run. -/
  keyIssued : ∀ invocation ∈ run.invocations, ∀ key, invocation.commandKey = some key →
    run.HasIssued world key
  /-- The arguments of the model have no command key. -/
  keyNotGiven : ∀ invocation ∈ run.invocations,
    "command_key" ∉ invocation.args.map Prod.fst

/-- What is kept from call to call, with `spare` mutations that are counted but not yet called. -/
structure AgentRun.Governed (world : AgentWorld) (policy : AgentToolPolicy)
    (binds : AgentTool → Bool) (spare : ℕ) (run : AgentRun) : Prop where
  calls : ∀ invocation ∈ run.invocations,
    invocation.tool ∈ toolObjects policy binds ∧
      (∀ key, invocation.commandKey = some key → run.HasIssued world key) ∧
        "command_key" ∉ invocation.args.map Prod.fst
  counted : run.mutations + spare ≤ run.mutationCount
  budget : run.mutationCount ≤ policy.budget
  keys : ∀ entry ∈ run.toolCommandKeys, run.HasIssued world entry.2

section

variable {world : AgentWorld} {policy : AgentToolPolicy} {binds : AgentTool → Bool} {spare : ℕ}
  {run run' : AgentRun} {key name scope : String} {call : FunctionCall} {tool : AgentTool}
  {available : Finset AgentTool} {invocation : Invocation}

theorem governed_start (world : AgentWorld) (policy : AgentToolPolicy) (binds : AgentTool → Bool) :
    AgentRun.start.Governed world policy binds 0 :=
  ⟨nofun, Nat.le_refl 0, le_max_left _ _, nofun⟩

theorem AgentRun.Governed.withinAuthority (h : run.Governed world policy binds spare) :
    run.WithinAuthority world policy binds policy.budget where
  allowed invocation hmem := (Finset.mem_filter.mp (h.calls invocation hmem).1).1
  bound invocation hmem := (Finset.mem_filter.mp (h.calls invocation hmem).1).2
  budget := (Int.ofNat_le.mpr (Nat.le_of_add_right_le h.counted)).trans h.budget
  keyIssued invocation hmem := (h.calls invocation hmem).2.1
  keyNotGiven invocation hmem := (h.calls invocation hmem).2.2

/-- Without an allowed tool nothing is called. -/
theorem AgentRun.WithinAuthority.eq_nil {limit : ℤ}
    (h : run.WithinAuthority world automatedInboundPolicy binds limit) : run.invocations = [] := by
  rw [List.eq_nil_iff_forall_not_mem]
  intro invocation hmem
  exact absurd (h.allowed invocation hmem) (Finset.notMem_empty _)

/-- A counted mutation need not be called. -/
theorem AgentRun.Governed.forget (h : run.Governed world policy binds spare) :
    run.Governed world policy binds 0 :=
  ⟨h.calls, (Nat.le_of_add_right_le h.counted), h.budget, h.keys⟩

theorem AgentRun.HasIssued.mono (h : run.HasIssued world key) (hle : run.issued ≤ run'.issued) :
    run'.HasIssued world key := by
  obtain ⟨i, hi, rfl⟩ := h
  exact ⟨i, hi.trans_le hle, rfl⟩

variable (scope call) in
/-- The key of a call is one that the server has issued, and the run stays governed. -/
theorem AgentRun.Governed.commandKey (h : run.Governed world policy binds spare) :
    (commandKeyForToolCall world scope call run).2.Governed world policy binds spare ∧
      (commandKeyForToolCall world scope call run).2.HasIssued world
        (commandKeyForToolCall world scope call run).1 := by
  have hissue : ∀ {key} {next : AgentRun}, next.issued = run.issued + 1 →
      run.HasIssued world key → next.HasIssued world key :=
    fun hnext hkey ↦ hkey.mono (by rw [hnext]; exact Nat.le_succ _)
  rw [commandKeyForToolCall]
  dsimp only
  split
  · rename_i existing hlookup
    refine ⟨⟨fun invocation hmem ↦ ?_, h.counted, h.budget, fun entry hentry ↦ ?_⟩, ?_⟩
    · obtain ⟨htool, hkey, hargs⟩ := h.calls invocation hmem
      exact ⟨htool, fun key hsome ↦ hissue rfl (hkey key hsome), hargs⟩
    · exact hissue rfl (h.keys entry hentry)
    · obtain ⟨before, after, hentries, -⟩ := List.lookup_eq_some_iff.mp hlookup
      have hmem : ∃ identity, (identity, existing) ∈ run.toolCommandKeys := by
        rw [hentries]
        exact ⟨_, List.mem_append_right _ List.mem_cons_self⟩
      obtain ⟨identity, hmem⟩ := hmem
      exact hissue rfl (h.keys _ hmem)
  · have hfresh : ∀ {next : AgentRun}, next.issued = run.issued + 1 →
        next.HasIssued world (world.issueCommandKey run.issued) :=
      fun hnext ↦ ⟨run.issued, by rw [hnext]; exact Nat.lt_succ_self _, rfl⟩
    refine ⟨⟨fun invocation hmem ↦ ?_, h.counted, h.budget, fun entry hentry ↦ ?_⟩, hfresh rfl⟩
    · obtain ⟨htool, hkey, hargs⟩ := h.calls invocation hmem
      exact ⟨htool, fun key hsome ↦ hissue rfl (hkey key hsome), hargs⟩
    · rcases List.mem_cons.mp hentry with rfl | hentry
      · exact hfresh rfl
      · exact hissue rfl (h.keys entry hentry)

/-- **The call of a tool keeps the run governed**, if a mutation has been counted before. -/
theorem AgentRun.Governed.invoke
    (h : run.Governed world policy binds (if invocation.tool.isPrimaryMutation then 1 else 0))
    (htool : invocation.tool ∈ toolObjects policy binds)
    (hkey : ∀ key, invocation.commandKey = some key → run.HasIssued world key)
    (hargs : "command_key" ∉ invocation.args.map Prod.fst) :
    (run.call world invocation).2.Governed world policy binds 0 where
  calls other hmem := by
    rcases List.mem_append.mp hmem with hmem | hmem
    · exact h.calls other hmem
    · rw [List.mem_singleton.mp hmem]
      exact ⟨htool, hkey, hargs⟩
  counted := by
    have hcounted := h.counted
    change (run.invocations ++ [invocation]).countP _ + 0 ≤ _
    rw [List.countP_append, List.countP_singleton]
    exact hcounted
  budget := h.budget
  keys := h.keys

theorem not_mem_popCommandKey (args : List (String × Json)) :
    "command_key" ∉ (popCommandKey args).map Prod.fst := by
  intro hmem
  obtain ⟨entry, hentry, hkey⟩ := List.mem_map.mp hmem
  have hne := (List.mem_filter.mp hentry).2
  exact of_decide_eq_true hne hkey

theorem findTool_eq_some (h : findTool available name = some tool) :
    tool ∈ available ∧ AgentTool.ofValue? name = some tool := by
  obtain ⟨hvalue, hmem⟩ := Option.filter_eq_some_iff.mp h
  exact ⟨of_decide_eq_true hmem, hvalue⟩

theorem isPrimaryMutation_eq (h : findTool available name = some tool) :
    isPrimaryMutation name = tool.isPrimaryMutation := by
  rw [isPrimaryMutation, (findTool_eq_some h).2]

/-! ## The executive agent -/

theorem governed_callTool {turn index : ℕ}
    (h : run.Governed world policy binds (if tool.isPrimaryMutation then 1 else 0))
    (htool : tool ∈ toolObjects policy binds) :
    (callTool world turn index tool name call run).2.Governed world policy binds 0 := by
  rw [callTool]
  split
  · exact h.forget
  · rename_i args hdict
    dsimp only
    split
    · obtain ⟨hgoverned, hissued⟩ := h.commandKey
        ("executive:" ++ toString turn ++ ":" ++ toString index ++ ":" ++ name) call
      refine AgentRun.Governed.invoke hgoverned htool ?_ (not_mem_popCommandKey args)
      rintro key hkey
      obtain rfl := Option.some.inj hkey
      exact hissued
    · exact AgentRun.Governed.invoke h htool nofun (not_mem_popCommandKey args)

/-- **One call keeps the run governed.** -/
theorem governed_executeToolCall (turn index : ℕ) (call : FunctionCall)
    (h : run.Governed world policy binds 0) :
    (executeToolCall world policy (toolObjects policy binds) turn index call run).2.Governed world
      policy binds 0 := by
  rw [executeToolCall]
  split
  · exact h
  · rename_i name hname
    split
    · rename_i tool hallows hfind
      have htool := (findTool_eq_some hfind).1
      have hmutation := isPrimaryMutation_eq hfind
      split
      · rename_i hprimary
        rw [hprimary] at hmutation
        split
        · exact h
        · rename_i hspent
          refine governed_callTool ?_ htool
          rw [← hmutation]
          have hbudget : ((run.mutationCount + 1 : ℕ) : ℤ) ≤ policy.budget :=
            le_max_of_le_right (by omega)
          exact ⟨h.calls, Nat.add_le_add_right h.counted 1, hbudget, h.keys⟩
      · rename_i hreading
        rw [Bool.eq_false_of_not_eq_true hreading] at hmutation
        refine governed_callTool ?_ htool
        rw [← hmutation]
        exact h
    · exact h

/-- All calls of a turn keep the run governed. -/
theorem governed_executeToolCalls (turn : ℕ) (calls : List FunctionCall) (index : ℕ)
    (responses : List ToolResponse) (h : run.Governed world policy binds 0) :
    (executeToolCalls world policy (toolObjects policy binds) turn index calls responses
      run).2.Governed world policy binds 0 := by
  induction calls generalizing index responses run with
  | nil => exact h
  | cons call calls ih =>
    have hcall := governed_executeToolCall turn index call h
    rw [executeToolCalls]
    split
    · rename_i run' heq
      rw [heq] at hcall
      exact hcall
    · rename_i message run' heq
      rw [heq] at hcall
      exact hcall
    · rename_i part run' heq
      rw [heq] at hcall
      exact ih (index + 1) _ hcall

/-- All turns keep the run governed. -/
theorem governed_runTurns (model : ℕ → List ToolResponse → ModelTurn) (left turn : ℕ)
    (told : List ToolResponse) (h : run.Governed world policy binds 0) :
    (runTurns world policy (toolObjects policy binds) model left turn told run).2.Governed world
      policy binds 0 := by
  induction left generalizing turn told run with
  | zero => exact h
  | succ left ih =>
    rw [runTurns]
    split
    · exact h
    · exact h
    · rename_i calls text hcalls hanswer
      have hturn := governed_executeToolCalls turn calls 0 [] h
      split
      · rename_i run' heq
        rw [heq] at hturn
        exact hturn
      · rename_i message run' heq
        rw [heq] at hturn
        exact hturn
      · rename_i parts run' heq
        rw [heq] at hturn
        exact ih (turn + 1) _ hturn

variable (world policy) in
theorem withinAuthority_run (services : Services) (model : ℕ → List ToolResponse → ModelTurn) :
    (ExecutiveAgent.run world policy services model).2.WithinAuthority world policy services.binds
      policy.budget :=
  (governed_runTurns model 5 0 [] (governed_start world policy services.binds)).withinAuthority

/-! ## The streaming agent -/

/-- The entries that a call gives. -/
def CallArgs.entries : CallArgs → List (String × Json)
  | mapping entries => entries
  | none | other _ => []

theorem mem_mergeFragments {selected : FunctionCall} {fragments : List FunctionCall}
    {assembled merged : List (String × Json)} {entry : String × Json}
    (h : mergeFragments selected fragments assembled = some merged) (hmem : entry ∈ merged) :
    entry ∈ assembled ∨
      ∃ fragment ∈ fragments, fragment.id = selected.id ∧ entry ∈ fragment.args.entries := by
  induction fragments generalizing assembled with
  | nil =>
    obtain rfl := Option.some.inj h
    exact Or.inl hmem
  | cons fragment fragments ih =>
    have hlater : (∃ fragment ∈ fragments, fragment.id = selected.id ∧
        entry ∈ fragment.args.entries) → ∃ fragment' ∈ fragment :: fragments,
          fragment'.id = selected.id ∧ entry ∈ fragment'.args.entries := by
      rintro ⟨fragment', hmem', hentry⟩
      exact ⟨fragment', List.mem_cons_of_mem _ hmem', hentry⟩
    rw [mergeFragments] at h
    split at h
    · exact (ih h).imp_right hlater
    · rename_i hid
      split at h
      · cases h
      · split at h
        · exact (ih h).imp_right hlater
        · cases h
        · rename_i entries hargs
          rcases ih h with hassembled | hfragment
          · rcases List.mem_append.mp hassembled with hentry | hentry
            · refine Or.inr ⟨fragment, List.mem_cons_self, not_not.mp hid, ?_⟩
              rw [hargs]
              exact hentry
            · exact Or.inl hentry
          · exact Or.inr (hlater hfragment)

/-- The entry is given by the selected call, or by a fragment under its id. -/
def OwnEntry (functionCalls : List FunctionCall) (selected : FunctionCall) (entry : String × Json) :
    Prop :=
  entry ∈ selected.args.entries ∨
    ∃ id, selected.providerId = some id ∧
      ∃ fragment ∈ functionCalls, fragment.id = some id ∧ entry ∈ fragment.args.entries

theorem ownEntry_of_coalesce {selected : FunctionCall} {functionCalls : List FunctionCall}
    {args : List (String × Json)} {entry : String × Json}
    (h : coalesceStreamFunctionCall selected functionCalls = some args) (hmem : entry ∈ args) :
    OwnEntry functionCalls selected entry := by
  rw [coalesceStreamFunctionCall] at h
  rcases mem_mergeFragments h hmem with hnil | ⟨fragment, hfragment, hid, hentry⟩
  · cases hnil
  · cases hprovider : selected.providerId with
    | none =>
      rw [hprovider] at hfragment
      obtain rfl := List.mem_singleton.mp hfragment
      exact Or.inl hentry
    | some id =>
      rw [hprovider] at hfragment
      have hselected : selected.id = some id := (Option.filter_eq_some_iff.mp hprovider).1
      exact Or.inr ⟨id, hprovider, fragment, hfragment, hid.trans hselected, hentry⟩

/-- Every executed argument is given by one selected call of the stream, or under its id. -/
def AgentRun.OwnArguments (functionCalls : List FunctionCall) (run : AgentRun) : Prop :=
  ∀ invocation ∈ run.invocations, ∃ selected ∈ functionCalls,
    selected.name = some invocation.tool.value ∧
      ∀ entry ∈ invocation.args, OwnEntry functionCalls selected entry

theorem ownArguments_of_nil {functionCalls : List FunctionCall} (h : run.invocations = []) :
    run.OwnArguments functionCalls := by
  intro invocation hmem
  rw [h] at hmem
  cases hmem

theorem withinAuthority_of_nil (h : run.invocations = []) :
    run.WithinAuthority world policy binds policy.budget where
  allowed := by
    rw [h]
    exact nofun
  bound := by
    rw [h]
    exact nofun
  budget := by
    rw [AgentRun.mutations, h]
    exact le_max_left _ _
  keyIssued := by
    rw [h]
    exact nofun
  keyNotGiven := by
    rw [h]
    exact nofun

/-- A run that calls one tool. -/
theorem withinAuthority_of_single (h : run.invocations = [invocation])
    (htool : invocation.tool ∈ toolObjects policy binds) (hbudget : 1 ≤ policy.maxPrimaryMutations)
    (hkey : ∀ key, invocation.commandKey = some key → run.HasIssued world key)
    (hargs : "command_key" ∉ invocation.args.map Prod.fst) :
    run.WithinAuthority world policy binds policy.budget where
  allowed := by
    rw [h, List.forall_mem_singleton]
    exact (Finset.mem_filter.mp htool).1
  bound := by
    rw [h, List.forall_mem_singleton]
    exact (Finset.mem_filter.mp htool).2
  budget := by
    rw [AgentRun.mutations, h]
    have hone : ([invocation].countP fun invocation ↦ invocation.tool.isPrimaryMutation) ≤ 1 :=
      List.countP_le_length
    exact (Int.ofNat_le.mpr hone).trans (le_max_of_le_right hbudget)
  keyIssued := by
    rw [h, List.forall_mem_singleton]
    exact hkey
  keyNotGiven := by
    rw [h, List.forall_mem_singleton]
    exact hargs

theorem invocations_commandKeyForToolCall :
    (commandKeyForToolCall world scope call run).2.invocations = run.invocations := by
  rw [commandKeyForToolCall]
  dsimp only
  split
  · rfl
  · rfl

/-- What a streaming run does: nothing, or one call of a tool on its own arguments. -/
structure StreamedWell (world : AgentWorld) (policy : AgentToolPolicy) (binds : AgentTool → Bool)
    (limit : ℤ) (functionCalls : List FunctionCall) (run : AgentRun) : Prop where
  authority : run.WithinAuthority world policy binds limit
  arguments : run.OwnArguments functionCalls
  single : run.invocations.length ≤ 1

theorem streamedWell_of_nil {functionCalls : List FunctionCall} (h : run.invocations = []) :
    StreamedWell world policy binds policy.budget functionCalls run where
  authority := withinAuthority_of_nil h
  arguments := ownArguments_of_nil h
  single := by
    rw [h]
    exact Nat.zero_le 1

theorem eligible_iff : eligible policy available call = true ↔
    ∃ name, call.name = some name ∧ policy.allows name = true ∧
      (findTool available name).isSome = true ∧ isPrimaryMutation name = true ∧
        1 ≤ policy.maxPrimaryMutations := by
  rw [eligible]
  split
  · rename_i hname
    simp [hname]
  · rename_i name hname
    simp [hname, and_assoc]

/-- **The selected call of a stream.** -/
theorem streamedWell_executeSelected {functionCalls : List FunctionCall}
    (hselected : call ∈ functionCalls) (hname : call.name = some name)
    (hbudget : 1 ≤ policy.maxPrimaryMutations) :
    StreamedWell world policy binds policy.budget functionCalls
      (executeSelected world (toolObjects policy binds) functionCalls call name .start).run := by
  rw [executeSelected]
  split
  · rename_i tool args hfind hargs
    obtain ⟨htool, hvalue⟩ := findTool_eq_some hfind
    obtain ⟨-, hissued⟩ := (governed_start world policy binds).commandKey ("stream:" ++ name) call
    have hnone : (commandKeyForToolCall world ("stream:" ++ name) call .start).2.invocations = [] :=
      invocations_commandKeyForToolCall
    generalize commandKeyForToolCall world ("stream:" ++ name) call .start = issued at *
    obtain ⟨key, run⟩ := issued
    dsimp only
    split
    · have hone : (run.call world ⟨tool, popCommandKey args, some key⟩).2.invocations =
          [⟨tool, popCommandKey args, some key⟩] := by
        change run.invocations ++ _ = _
        rw [hnone, List.nil_append]
      have hwell : StreamedWell world policy binds policy.budget functionCalls
          (run.call world ⟨tool, popCommandKey args, some key⟩).2 := by
        constructor
        · apply withinAuthority_of_single hone htool hbudget
          · rintro key' hkey
            obtain rfl := Option.some.inj hkey
            exact hissued
          · exact not_mem_popCommandKey args
        · intro invocation hmem
          rw [hone, List.mem_singleton] at hmem
          subst hmem
          refine ⟨call, hselected, ?_, fun entry hentry ↦ ?_⟩
          · rw [hname, AgentTool.ofValue?_eq_some_iff.mp hvalue]
          · exact ownEntry_of_coalesce hargs (List.mem_of_mem_filter hentry)
        · rw [hone]
          exact Nat.le_refl 1
      -- the outcome of the tool decides the answer only
      split
      · exact hwell
      · exact hwell
      · split
        · exact hwell
        · exact hwell
    · exact streamedWell_of_nil hnone
  · exact streamedWell_of_nil rfl

theorem streamedWell_executeStreamed (functionCalls : List FunctionCall) :
    StreamedWell world policy binds policy.budget functionCalls
      (executeStreamed world policy (toolObjects policy binds) functionCalls .start).run := by
  rw [executeStreamed]
  split
  · exact streamedWell_of_nil rfl
  · split
    · exact streamedWell_of_nil rfl
    · rename_i call hcall
      obtain ⟨name, hname, -, -, -, hbudget⟩ := eligible_iff.mp (List.find?_some hcall)
      rw [hname, Option.getD_some]
      exact streamedWell_executeSelected (List.mem_of_find?_eq_some hcall) hname hbudget

theorem collectChunks_fst (chunks : List StreamChunk) (calls : List FunctionCall) :
    (collectChunks chunks calls).1 = calls ++ chunks.flatMap StreamChunk.functionCalls := by
  induction chunks generalizing calls with
  | nil =>
    rw [collectChunks, List.flatMap_nil, List.append_nil]
  | cons chunk chunks ih =>
    rw [List.flatMap_cons, ← List.append_assoc, ← ih, collectChunks]
    split
    · rename_i text hcalls htext
      rw [hcalls]
    · rfl

variable (world policy)

theorem streamedWell_run (currentUserEmail : Option String) (chunks : List StreamChunk)
    (ending : StreamEnd) :
    StreamedWell world policy (bindsStream currentUserEmail) policy.budget
      (chunks.flatMap StreamChunk.functionCalls)
      (GeneralAgentStreamer.run world policy currentUserEmail chunks ending).run := by
  have hcalls : (collectChunks chunks []).1 = chunks.flatMap StreamChunk.functionCalls :=
    collectChunks_fst chunks []
  rw [GeneralAgentStreamer.run, ← hcalls]
  cases ending with
  | finished => exact streamedWell_executeStreamed _
  | _ => exact streamedWell_of_nil rfl

end

/-! ## Authority -/

/-- An agent run cannot exceed its authority, with at most `limit` primary mutations. -/
structure AgentAuthority (world : AgentWorld) (policy : AgentToolPolicy) (limit : ℤ) : Prop where
  /-- The executive agent, over all turns. -/
  executive : ∀ services model,
    (ExecutiveAgent.run world policy services model).2.WithinAuthority world policy services.binds
      limit
  /-- The streaming agent, with arguments from one call or from fragments under its id. -/
  streaming : ∀ currentUserEmail chunks ending,
    StreamedWell world policy (bindsStream currentUserEmail) limit
      (chunks.flatMap StreamChunk.functionCalls)
      (GeneralAgentStreamer.run world policy currentUserEmail chunks ending).run
  /-- Neither of them calls any tool for inbound mail. -/
  inbound : policy = automatedInboundPolicy →
    (∀ services model, (ExecutiveAgent.run world policy services model).2.invocations = []) ∧
      ∀ currentUserEmail chunks ending,
        (GeneralAgentStreamer.run world policy currentUserEmail chunks ending).run.invocations = []

/-- **An agent run keeps to its policy**; under a negative budget it calls no mutation at all. -/
theorem agentAuthority (world : AgentWorld) (policy : AgentToolPolicy) :
    AgentAuthority world policy policy.budget where
  executive := withinAuthority_run world policy
  streaming := streamedWell_run world policy
  inbound := by
    rintro rfl
    constructor
    · intro services model
      exact (withinAuthority_run world _ services model).eq_nil
    · intro currentUserEmail chunks ending
      exact (streamedWell_run world _ currentUserEmail chunks ending).authority.eq_nil

/-- **Less than nothing**: a run that calls nothing at all exceeds a negative number. -/
theorem not_agentAuthority :
    ¬∀ world policy, AgentAuthority world policy policy.maxPrimaryMutations := by
  intro h
  have hbudget := ((h ⟨fun _ ↦ "", fun _ _ ↦ .raised, fun _ ↦ ""⟩ ⟨∅, -1⟩).executive
    ⟨false, false, false, none⟩ fun _ _ ↦ .answered [] "").budget
  exact absurd hbudget (by decide)

end Onebox.Agents
