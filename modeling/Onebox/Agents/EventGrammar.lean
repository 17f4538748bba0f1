import Onebox.Agents.EventStream

/-!
# The grammar of the event stream

What the response generator sends to a client that stays is determined by what the agent yields and
how it ends: the events up to the first terminal one, or all of them and one more. Where the agent
is the streaming agent these are tokens, at most one result of a tool, and one terminal event.
-/

namespace Onebox.Agents

open Python Transition

variable {s s' : EventStream} {events : List StreamEvent} {raises : Bool} {e : StreamStep}

/-! ## What is sent -/

/-- The frames that the agent's events come to. -/
def transcript (raises : Bool) : List StreamEvent → List AgentStreamEvent
  | [] => [if raises then failedEvent else doneEvent]
  | event :: rest =>
    event.payload :: if event.payload.event.isTerminal then [] else transcript raises rest

namespace EventStream

/-- What is still to be sent while the response generator loops. -/
def left (s : EventStream) : List AgentStreamEvent :=
  match s.nextEvent with
  | .notCreated | .pending => transcript s.raises s.remaining
  | .yielded event => transcript s.raises (event :: s.remaining)
  | .stopped => [doneEvent]
  | .raised => [failedEvent]
  | .cancelled => []

/-- The task has been created, and nobody cancels it. -/
def Asked (s : EventStream) : Prop := s.nextEvent ≠ .notCreated ∧ s.nextEvent ≠ .cancelled

/-- The invariant: what has been sent, and what is left, is the transcript. -/
def Sends (whole : List AgentStreamEvent) (s : EventStream) : Prop :=
  match s.phase with
  | .entering =>
    s.nextEvent = .notCreated ∧ s.terminalSent = false ∧ s.payloads ++ s.left = whole
  | .waiting | .emitting .loops =>
    s.Asked ∧ s.terminalSent = false ∧ s.payloads ++ s.left = whole
  | .emitting .returns | .cancelling => s.payloads = whole
  | .closing => s.nextEvent.isPending = false ∧ s.payloads = whole
  | .exited => s.agentClosed = true ∧ s.payloads = whole

variable {whole : List AgentStreamEvent}

theorem payloads_emit (s : EventStream) (frame : Frame) (next : Resumption) :
    (s.emit frame next).payloads = s.payloads ++ frame.payload?.toList := by
  rw [payloads, payloads, emit, List.filterMap_append]
  rcases frame with _ | payload <;> rfl

theorem sends_opened (events : List StreamEvent) (raises : Bool) :
    (opened events raises).Sends (transcript raises events) := ⟨rfl, rfl, rfl⟩

theorem sends_leave (h : s.payloads = whole) : s.leave.Sends whole := by
  rw [leave]
  by_cases hpending : s.nextEvent.isPending
  · rw [if_pos hpending]
    exact h
  · rw [if_neg hpending]
    exact ⟨Bool.eq_false_iff.mpr hpending, h⟩

theorem sends_finish {payload : AgentStreamEvent} (hterminal : s.terminalSent = false)
    (h : s.payloads ++ [payload] = whole) : (s.finish false payload).Sends whole := by
  rw [finish, hterminal, Bool.false_or, if_neg Bool.false_ne_true]
  exact (payloads_emit _ (.data payload) .returns).trans h

/-- The task is done: what is left to be sent is what it was. -/
theorem Sends.answer (h : s.Sends whole) (hpending : s.nextEvent = .pending) {next : NextEvent}
    {remaining : List StreamEvent} (hnext : next.isPending = false)
    (hasked : Asked { s with nextEvent := next, remaining := remaining })
    (hleft : { s with nextEvent := next, remaining := remaining }.left = s.left) :
    Sends whole { s with nextEvent := next, remaining := remaining } := by
  rw [Sends] at h ⊢
  dsimp only
  split at h <;> rename_i hphase <;> rw [hphase]
  · rw [hpending] at h
    exact nomatch h.1
  · exact ⟨hasked, h.2.1, hleft ▸ h.2.2⟩
  · exact ⟨hasked, h.2.1, hleft ▸ h.2.2⟩
  · exact h
  · exact h
  · exact ⟨hnext, h.2⟩
  · exact h

theorem Sends.agentAnswers (h : s.Sends whole) (hstep : s.step .agentAnswers = some s') :
    s'.Sends whole := by
  simp only [step] at hstep
  split at hstep
  · rename_i event rest hpending hremaining
    obtain rfl := Option.some.inj hstep
    refine h.answer hpending rfl ⟨nofun, nofun⟩ ?_
    simp only [left, hpending, hremaining]
  · rename_i hpending hremaining
    obtain rfl := Option.some.inj hstep
    have hleft : s.left = [if s.raises then failedEvent else doneEvent] := by
      simp only [left, hpending, hremaining, transcript]
    by_cases hraises : s.raises = true
    · rw [if_pos hraises] at hleft ⊢
      exact h.answer hpending rfl ⟨nofun, nofun⟩ hleft.symm
    · rw [if_neg hraises] at hleft ⊢
      exact h.answer hpending rfl ⟨nofun, nofun⟩ hleft.symm
  · cases hstep

theorem Sends.waitReturns (h : s.Sends whole) (hstep : s.step (.waitReturns false) = some s') :
    s'.Sends whole := by
  simp only [step] at hstep
  split at hstep
  · rename_i event hphase hnext
    rw [Sends, hphase] at h
    obtain ⟨-, hterminal, hwhole⟩ := h
    simp only [left, hnext, transcript] at hwhole
    rw [if_neg Bool.false_ne_true] at hstep
    obtain rfl := Option.some.inj hstep
    by_cases hend : event.payload.event.isTerminal
    · rw [if_pos hend] at hwhole ⊢
      exact (payloads_emit _ _ _).trans hwhole
    · rw [if_neg hend] at hwhole ⊢
      refine ⟨⟨nofun, nofun⟩, hterminal, ?_⟩
      rw [payloads_emit, List.append_assoc]
      exact hwhole
  · rename_i hphase hnext
    rw [Sends, hphase] at h
    obtain rfl := Option.some.inj hstep
    refine sends_finish h.2.1 ?_
    have hwhole := h.2.2
    rwa [left, hnext] at hwhole
  · rename_i hphase hnext
    rw [Sends, hphase] at h
    obtain rfl := Option.some.inj hstep
    refine sends_finish h.2.1 ?_
    have hwhole := h.2.2
    rwa [left, hnext] at hwhole
  · cases hstep

/-- The client stays: the invariant is kept. -/
theorem Sends.step (h : s.Sends whole) (hconnected : e.connected = true)
    (hstep : s.step e = some s') : s'.Sends whole := by
  match e with
  | .agentAnswers => exact h.agentAnswers hstep
  | .waitReturns false => exact h.waitReturns hstep
  | .waitReturns true => cases hconnected
  | .waitTimesOut true => cases hconnected
  | .enters =>
    simp only [EventStream.step] at hstep
    split at hstep
    · rename_i hphase
      rw [Sends, hphase] at h
      obtain ⟨hnext, hterminal, hwhole⟩ := h
      obtain rfl := Option.some.inj hstep
      refine ⟨⟨nofun, nofun⟩, hterminal, ?_⟩
      rwa [left, hnext] at hwhole
    · cases hstep
  | .taskCancelled =>
    simp only [EventStream.step] at hstep
    split at hstep
    · rename_i hphase _
      rw [Sends, hphase] at h
      obtain rfl := Option.some.inj hstep
      rw [Sends, hphase]
      exact h
    · cases hstep
  | .waitTimesOut false =>
    simp only [EventStream.step] at hstep
    split at hstep
    · rename_i hphase _
      rw [Sends, hphase] at h
      rw [if_neg Bool.false_ne_true] at hstep
      obtain rfl := Option.some.inj hstep
      refine ⟨h.1, h.2.1, ?_⟩
      rw [payloads_emit]
      -- The heartbeat that is sent has no payload.
      exact (List.append_nil s.payloads).symm ▸ h.2.2
    · cases hstep
  | .resumes =>
    simp only [EventStream.step] at hstep
    split at hstep
    · rename_i hphase
      rw [Sends, hphase] at h
      obtain rfl := Option.some.inj hstep
      exact h
    · rename_i hphase
      rw [Sends, hphase] at h
      obtain rfl := Option.some.inj hstep
      exact sends_leave h
    · cases hstep
  | .gathered =>
    simp only [EventStream.step] at hstep
    split at hstep
    · rename_i hphase
      rw [Sends, hphase] at h
      split at hstep
      · cases hstep
      · rename_i hpending
        obtain rfl := Option.some.inj hstep
        exact ⟨Bool.eq_false_iff.mpr hpending, h⟩
    · cases hstep
  | .closes =>
    simp only [EventStream.step] at hstep
    split at hstep
    · rename_i hphase
      rw [Sends, hphase] at h
      obtain rfl := Option.some.inj hstep
      refine ⟨?_, h.2⟩
      rw [h.1]
      rfl
    · cases hstep

/-! ## Termination -/

end EventStream

def NextEvent.work : NextEvent → ℕ
  | pending => 1
  | yielded _ => 3
  | notCreated | stopped | raised | cancelled => 0

def ResponsePhase.work : ResponsePhase → ℕ
  | entering => 6
  | waiting => 4
  | emitting .loops => 5
  | emitting .returns => 3
  | cancelling => 2
  | closing => 1
  | exited => 0

namespace EventStream

/-- How many steps other than timeouts are left at most, if there are no more timeouts. -/
def work (s : EventStream) : ℕ := 3 * s.remaining.length + s.nextEvent.work + s.phase.work

theorem work_leave (s : EventStream) :
    s.leave.work ≤ 3 * s.remaining.length + s.nextEvent.work + 2 := by
  rw [leave]
  split
  · exact Nat.le_refl _
  · exact Nat.add_le_add_left (Nat.le_succ 1) _

theorem work_finish (s : EventStream) (disconnected : Bool) (payload : AgentStreamEvent) :
    (s.finish disconnected payload).work ≤ 3 * s.remaining.length + s.nextEvent.work + 3 := by
  rw [finish]
  split
  · exact (work_leave s).trans (Nat.le_succ _)
  · exact Nat.le_refl _

theorem work_waitReturns {disconnected : Bool}
    (hstep : s.step (.waitReturns disconnected) = some s') : s'.work + 1 ≤ s.work := by
  simp only [step] at hstep
  split at hstep
  · rename_i event hphase hnext
    split at hstep
    · obtain rfl := Option.some.inj hstep
      have hleave := work_leave { s with nextEvent := .pending }
      simp only [work, hphase, hnext, NextEvent.work, ResponsePhase.work] at hleave ⊢
      omega
    · obtain rfl := Option.some.inj hstep
      simp only [work, emit, hphase, hnext, NextEvent.work]
      split
      · simp only [ResponsePhase.work]
        omega
      · simp only [ResponsePhase.work]
        omega
  · rename_i hphase hnext
    obtain rfl := Option.some.inj hstep
    have hfinish := work_finish s disconnected doneEvent
    simp only [work, hphase, ResponsePhase.work] at hfinish ⊢
    omega
  · rename_i hphase hnext
    obtain rfl := Option.some.inj hstep
    have hfinish := work_finish s disconnected failedEvent
    simp only [work, hphase, ResponsePhase.work] at hfinish ⊢
    omega
  · cases hstep

/-- Each step but a timeout uses up some work. -/
theorem work_step (hstep : s.step e = some s') :
    s'.work + (if e.isTimeout then 0 else 1) ≤ s.work + (if e.isTimeout then 1 else 0) := by
  match e with
  | .enters =>
    simp only [step] at hstep
    split at hstep
    · rename_i hphase
      obtain rfl := Option.some.inj hstep
      simp only [work, hphase, NextEvent.work, ResponsePhase.work, StreamStep.isTimeout]
      grind
    · cases hstep
  | .agentAnswers =>
    simp only [step] at hstep
    split at hstep
    · rename_i hnext hremaining
      obtain rfl := Option.some.inj hstep
      simp only [work, hnext, hremaining, NextEvent.work, StreamStep.isTimeout, List.length_cons]
      grind
    · rename_i hnext hremaining
      obtain rfl := Option.some.inj hstep
      simp only [work, hnext, hremaining, StreamStep.isTimeout]
      split
      · simp only [NextEvent.work]
        grind
      · simp only [NextEvent.work]
        grind
    · cases hstep
  | .taskCancelled =>
    simp only [step] at hstep
    split at hstep
    · rename_i hphase hnext
      obtain rfl := Option.some.inj hstep
      simp only [work, hphase, hnext, NextEvent.work, StreamStep.isTimeout, List.length_nil]
      grind
    · cases hstep
  | .waitTimesOut disconnected =>
    simp only [step] at hstep
    split at hstep
    · rename_i hphase hnext
      obtain rfl := Option.some.inj hstep
      split
      · exact (work_leave s).trans (by simp [work, hphase, ResponsePhase.work]; omega)
      · simp only [work, emit, hphase, ResponsePhase.work, StreamStep.isTimeout]
        grind
    · cases hstep
  | .waitReturns disconnected => exact work_waitReturns hstep
  | .resumes =>
    simp only [step] at hstep
    split at hstep
    · rename_i hphase
      obtain rfl := Option.some.inj hstep
      simp only [work, hphase, ResponsePhase.work, StreamStep.isTimeout]
      grind
    · rename_i hphase
      obtain rfl := Option.some.inj hstep
      have hleave := work_leave { s with terminalSent := true }
      simp only [work, hphase, ResponsePhase.work, StreamStep.isTimeout] at hleave ⊢
      grind
    · cases hstep
  | .gathered =>
    simp only [step] at hstep
    split at hstep
    · rename_i hphase
      split at hstep
      · cases hstep
      · obtain rfl := Option.some.inj hstep
        simp only [work, hphase, ResponsePhase.work, StreamStep.isTimeout]
        grind
    · cases hstep
  | .closes =>
    simp only [step] at hstep
    split at hstep
    · rename_i hphase
      obtain rfl := Option.some.inj hstep
      simp only [work, hphase, ResponsePhase.work, StreamStep.isTimeout]
      grind
    · cases hstep

/-- Before the end some step other than a timeout can be taken. -/
theorem Sends.progress (h : s.Sends whole) (hphase : s.phase ≠ .exited) :
    ∃ e s', e.connected = true ∧ e.isTimeout = false ∧ s.step e = some s' := by
  obtain ⟨remaining, raises, nextEvent, phase, terminalSent, agentClosed, frames⟩ := s
  match phase with
  | .entering => exact ⟨.enters, _, rfl, rfl, rfl⟩
  | .waiting =>
    match nextEvent with
    | .pending =>
      rcases remaining with _ | ⟨event, rest⟩
      · exact ⟨.agentAnswers, _, rfl, rfl, rfl⟩
      · exact ⟨.agentAnswers, _, rfl, rfl, rfl⟩
    | .yielded event => exact ⟨.waitReturns false, _, rfl, rfl, rfl⟩
    | .stopped => exact ⟨.waitReturns false, _, rfl, rfl, rfl⟩
    | .raised => exact ⟨.waitReturns false, _, rfl, rfl, rfl⟩
    | .notCreated => exact absurd rfl h.1.1
    | .cancelled => exact absurd rfl h.1.2
  | .emitting .loops => exact ⟨.resumes, _, rfl, rfl, rfl⟩
  | .emitting .returns => exact ⟨.resumes, _, rfl, rfl, rfl⟩
  | .cancelling =>
    match nextEvent with
    | .pending => exact ⟨.taskCancelled, _, rfl, rfl, rfl⟩
    | .notCreated | .yielded _ | .stopped | .raised | .cancelled =>
      exact ⟨.gathered, _, rfl, rfl, rfl⟩
  | .closing => exact ⟨.closes, _, rfl, rfl, rfl⟩
  | .exited => exact absurd rfl hphase

end EventStream

/-! ## The streaming agent -/

/-- The texts of the chunks before the first one with a function call. -/
def spokenTexts (chunks : List StreamChunk) : List String :=
  (chunks.takeWhile fun chunk ↦ chunk.functionCalls.isEmpty).filterMap fun chunk ↦
    chunk.text.filter (· ≠ "")

/-- The agent yields what a run yields; it may raise, at any point, instead of going on. -/
def StreamResult.Plays (result : StreamResult) (events : List StreamEvent) (raises : Bool) : Prop :=
  events <+: result.events ∧ (raises = false → events = result.events ∧ result.raised = false)

/-- What follows the tokens. -/
def Closing (tail : List StreamEvent) : Prop :=
  tail = [] ∨ (∃ message, tail = [.toolResult message]) ∨
    ∃ message code, tail = [.error message code]

theorem collectChunks_cons_snd (call : FunctionCall) (calls : List FunctionCall)
    (chunks : List StreamChunk) : (collectChunks chunks (call :: calls)).2 = [] := by
  induction chunks generalizing call calls with
  | nil => rfl
  | cons chunk chunks ih =>
    rw [collectChunks]
    exact ih call (calls ++ chunk.functionCalls)

theorem collectChunks_snd (chunks : List StreamChunk) :
    (collectChunks chunks []).2 = (spokenTexts chunks).map .token := by
  induction chunks with
  | nil => rfl
  | cons chunk chunks ih =>
    obtain ⟨calls, text⟩ := chunk
    rcases calls with _ | ⟨call, calls⟩
    · rcases text with _ | text
      · exact ih
      · by_cases htext : text = ""
        · subst htext
          exact ih
        · have hspoken : spokenTexts (⟨[], some text⟩ :: chunks) = text :: spokenTexts chunks := by
            rw [spokenTexts, List.takeWhile_cons_of_pos rfl]
            exact List.filterMap_cons_some (Option.filter_some_pos (decide_eq_true htext))
          rw [hspoken, List.map_cons, ← ih]
          exact if_neg htext
    · exact collectChunks_cons_snd call calls chunks

theorem closing_unavailableTool : Closing [unavailableTool] := .inr (.inr ⟨_, _, rfl⟩)

theorem closing_executeSelected (world : AgentWorld) (available : Finset AgentTool)
    (functionCalls : List FunctionCall) (call : FunctionCall) (name : String) (run : AgentRun) :
    Closing (executeSelected world available functionCalls call name run).events := by
  rw [executeSelected]
  split
  · dsimp only
    split
    · split
      · exact .inl rfl
      · exact closing_unavailableTool
      · split
        · exact .inr (.inl ⟨_, rfl⟩)
        · exact .inr (.inl ⟨_, rfl⟩)
    · exact closing_unavailableTool
  · exact closing_unavailableTool

theorem closing_executeStreamed (world : AgentWorld) (policy : AgentToolPolicy)
    (available : Finset AgentTool) (functionCalls : List FunctionCall) (run : AgentRun) :
    Closing (executeStreamed world policy available functionCalls run).events := by
  rw [executeStreamed]
  split
  · exact .inl rfl
  · split
    · exact .inr (.inr ⟨_, _, rfl⟩)
    · exact closing_executeSelected _ _ _ _ _ _

/-- A run yields tokens, and closes. -/
theorem exists_events_run (world : AgentWorld) (policy : AgentToolPolicy) (email : Option String)
    (chunks : List StreamChunk) (ending : StreamEnd) :
    ∃ tail, Closing tail ∧ (GeneralAgentStreamer.run world policy email chunks ending).events =
      (spokenTexts chunks).map .token ++ tail := by
  rw [← collectChunks_snd, GeneralAgentStreamer.run]
  rcases ending with _ | _ | _ | _ | _
  · exact ⟨_, closing_executeStreamed _ _ _ _ _, rfl⟩
  · exact ⟨_, .inr (.inr ⟨_, _, rfl⟩), rfl⟩
  · exact ⟨_, .inr (.inr ⟨_, _, rfl⟩), rfl⟩
  · exact ⟨_, .inr (.inr ⟨_, _, rfl⟩), rfl⟩
  · exact ⟨[], .inl rfl, (List.append_nil _).symm⟩

/-- What the agent yields before it ends or raises. -/
theorem exists_events_of_prefix {texts : List String} {tail : List StreamEvent}
    (htail : Closing tail) (h : events <+: texts.map .token ++ tail) :
    ∃ tokens closing, tokens <+: texts ∧ Closing closing ∧
      events = tokens.map .token ++ closing := by
  have tokens : events <+: texts.map .token → ∃ tokens closing, tokens <+: texts ∧
      Closing closing ∧ events = tokens.map .token ++ closing := by
    intro hprefix
    refine ⟨texts.take events.length, [], List.take_prefix _ _, .inl rfl, ?_⟩
    rw [List.append_nil, List.map_take]
    exact List.prefix_iff_eq_take.mp hprefix
  have last : ∀ event, tail = [event] → ∃ tokens closing, tokens <+: texts ∧
      Closing closing ∧ events = tokens.map .token ++ closing := by
    rintro event rfl
    rcases List.prefix_concat_iff.mp h with rfl | hprefix
    · exact ⟨texts, [event], List.prefix_rfl, htail, rfl⟩
    · exact tokens hprefix
  rcases htail with rfl | ⟨message, htail⟩ | ⟨message, code, htail⟩
  · rw [List.append_nil] at h
    exact tokens h
  · exact last _ htail
  · exact last _ htail

/-! ## The grammar -/

/-- The grammar of the payloads, `spoken` being the texts that the agent may say. -/
structure Grammar (spoken : List String) (payloads : List AgentStreamEvent) : Prop where
  shape : ∃ tokens results terminal, payloads = tokens ++ results ++ [terminal] ∧
    (∀ payload ∈ tokens, payload.event = .token) ∧ tokens.map AgentStreamEvent.content <+: spoken ∧
    results.length ≤ 1 ∧ (∀ payload ∈ results, payload.event = .toolResult) ∧
    (terminal.event = .done ∨ terminal.event = .error)
  codes : ∀ payload ∈ payloads,
    "error_code" ∈ payload.dump.map Prod.fst ↔ payload.event = .error

/-- An error has a code, and nothing else has one. -/
def AgentStreamEvent.Coded (payload : AgentStreamEvent) : Prop :=
  "error_code" ∈ payload.dump.map Prod.fst ↔ payload.event = .error

theorem coded_payload (event : StreamEvent) : event.payload.Coded := by
  rcases event with text | ⟨message, code⟩ | message
  · exact ⟨fun h ↦ by simp [StreamEvent.payload, AgentStreamEvent.dump] at h, nofun⟩
  · exact ⟨fun _ ↦ rfl, fun _ ↦ by simp [StreamEvent.payload, AgentStreamEvent.dump]⟩
  · exact ⟨fun h ↦ by simp [StreamEvent.payload, AgentStreamEvent.dump] at h, nofun⟩

/-- A client reads the payload of a data frame back. -/
theorem exists_formatStreamEvent (payload : AgentStreamEvent) :
    ∃ body, formatStreamEvent payload = "data: ".toList ++ body ++ ['\n', '\n'] ∧
      loads body = some (.obj (payload.dump.map stringField)) := by
  refine ⟨dumpsStringsSpaced payload.dump, rfl, loads_dumpsStringsSpaced ?_⟩
  rcases payload with ⟨event, content, _ | code⟩
  · simp [AgentStreamEvent.dump]
  · simp [AgentStreamEvent.dump]

theorem coded_doneEvent : doneEvent.Coded := by
  constructor
  · intro h
    simp [doneEvent, AgentStreamEvent.dump] at h
  · exact nofun

theorem coded_failedEvent : failedEvent.Coded := by
  constructor
  · exact fun _ ↦ rfl
  · intro _
    simp [failedEvent, AgentStreamEvent.dump]

theorem coded_transcript (raises : Bool) (events : List StreamEvent) :
    ∀ payload ∈ transcript raises events, payload.Coded := by
  induction events with
  | nil =>
    intro payload hmem
    obtain rfl := List.mem_singleton.mp hmem
    split
    · exact coded_failedEvent
    · exact coded_doneEvent
  | cons event rest ih =>
    intro payload hmem
    rcases List.mem_cons.mp hmem with rfl | hrest
    · exact coded_payload event
    · split at hrest
      · cases hrest
      · exact ih payload hrest

theorem transcript_tokens (raises : Bool) (texts : List String) (rest : List StreamEvent) :
    transcript raises (texts.map .token ++ rest) =
      texts.map (fun text ↦ ⟨.token, text, none⟩) ++ transcript raises rest := by
  induction texts with
  | nil => rfl
  | cons text texts ih =>
    rw [List.map_cons, List.cons_append, List.map_cons, List.cons_append, ← ih]
    rfl

/-- What follows the tokens is at most one result and an end. -/
theorem exists_transcript_closing (raises : Bool) {tail : List StreamEvent} (h : Closing tail) :
    ∃ results terminal, transcript raises tail = results ++ [terminal] ∧ results.length ≤ 1 ∧
      (∀ payload ∈ results, payload.event = .toolResult) ∧
      (terminal.event = .done ∨ terminal.event = .error) := by
  have hend : ∃ terminal, transcript raises [] = [terminal] ∧
      (terminal.event = .done ∨ terminal.event = .error) := by
    rcases raises with _ | _
    · exact ⟨doneEvent, rfl, .inl rfl⟩
    · exact ⟨failedEvent, rfl, .inr rfl⟩
  obtain ⟨terminal, hnil, hterminal⟩ := hend
  rcases h with rfl | ⟨message, rfl⟩ | ⟨message, code, rfl⟩
  · exact ⟨[], terminal, hnil, Nat.zero_le 1, nofun, hterminal⟩
  · refine ⟨[⟨.toolResult, message, none⟩], terminal, ?_, Nat.le_refl 1, ?_, hterminal⟩
    · rw [← hnil]
      rfl
    · intro payload hmem
      rw [List.mem_singleton.mp hmem]
  · exact ⟨[], ⟨.error, message, some code⟩, rfl, Nat.zero_le 1, nofun, .inr rfl⟩

theorem grammar_transcript {spoken texts : List String} (hspoken : texts <+: spoken)
    {tail : List StreamEvent} (htail : Closing tail) (raises : Bool) :
    Grammar spoken (transcript raises (texts.map .token ++ tail)) := by
  refine ⟨?_, coded_transcript raises _⟩
  obtain ⟨results, terminal, hclosing, hlength, hresults, hterminal⟩ :=
    exists_transcript_closing raises htail
  refine ⟨texts.map fun text ↦ ⟨.token, text, none⟩, results, terminal, ?_, ?_, ?_, hlength,
    hresults, hterminal⟩
  · rw [transcript_tokens, hclosing, List.append_assoc]
  · intro payload hmem
    obtain ⟨text, -, rfl⟩ := List.mem_map.mp hmem
    rfl
  · rw [List.map_map]
    exact (List.map_id texts).symm ▸ hspoken

/-! ## Runs -/

namespace EventStream

/-- A step yields a frame, or none. -/
theorem recorded_of_step (hstep : s.step e = some s') :
    s'.frames = s.frames ∨ ∃ frame, s'.frames = s.frames ++ [frame] := by
  have hfinish : ∀ disconnected payload, (s.finish disconnected payload).frames = s.frames ∨
      ∃ frame, (s.finish disconnected payload).frames = s.frames ++ [frame] := by
    intro disconnected payload
    rw [finish]
    split
    · exact .inl rfl
    · exact .inr ⟨_, rfl⟩
  cases e <;> simp only [step] at hstep <;> (repeat' split at hstep) <;>
    first
    | cases hstep; done
    | obtain rfl := Option.some.inj hstep
      exact .inl rfl
    | obtain rfl := Option.some.inj hstep
      exact .inr ⟨_, rfl⟩
    | obtain rfl := Option.some.inj hstep
      exact hfinish _ _

/-- What holds of the response generator of a client that stays. -/
structure FollowsGrammar (spoken : List String) (s : EventStream) : Prop where
  /-- On every exit the agent is closed, and the frames follow the grammar. -/
  exited : s.phase = .exited → Grammar spoken s.payloads ∧ s.agentClosed = true
  /-- What has been sent before can be completed. -/
  ongoing : ∃ rest, Grammar spoken (s.payloads ++ rest)
  /-- Before the exit it goes on, and not with a heartbeat only. -/
  progress : s.phase ≠ .exited →
    ∃ e s', e.connected = true ∧ e.isTimeout = false ∧ s.step e = some s'

theorem followsGrammar_of_sends {whole : List AgentStreamEvent} {spoken : List String}
    (h : s.Sends whole) (hwhole : Grammar spoken whole) : s.FollowsGrammar spoken := by
  refine ⟨fun hphase ↦ ?_, ?_, h.progress⟩
  · rw [Sends, hphase] at h
    exact ⟨h.2.symm ▸ hwhole, h.1⟩
  · have done : s.payloads = whole → ∃ rest, Grammar spoken (s.payloads ++ rest) := by
      rintro rfl
      exact ⟨[], (List.append_nil s.payloads).symm ▸ hwhole⟩
    rw [Sends] at h
    split at h
    · exact ⟨s.left, h.2.2.symm ▸ hwhole⟩
    · exact ⟨s.left, h.2.2.symm ▸ hwhole⟩
    · exact ⟨s.left, h.2.2.symm ▸ hwhole⟩
    · exact done h
    · exact done h
    · exact done h.2
    · exact done h.2

end EventStream

/-- The client stays connected. -/
def staysConnected (_ : EventStream) (e : StreamStep) : Prop := e.connected = true

/-- **The event stream follows its grammar**, and ends: its steps other than heartbeats are
bounded. -/
theorem followsGrammar_of_run {world : AgentWorld} {email : String} {chunks : List StreamChunk}
    {ending : StreamEnd} {tr : List (StreamStep × Option Frame)}
    (hplays : (GeneralAgentStreamer.run world interactiveStreamPolicy (some email) chunks
      ending).Plays events raises)
    (hinit : (generateStream events raises).init s)
    (hrun : System.Run (generateStream events raises) staysConnected s tr s') :
    s'.FollowsGrammar (spokenTexts chunks) ∧ s'.frames = tr.filterMap Prod.snd ∧
      tr.countP (fun r ↦ !r.1.isTimeout) ≤
        3 * events.length + 6 + tr.countP fun r ↦ r.1.isTimeout := by
  obtain rfl := hinit
  obtain ⟨tail, htail, hevents⟩ := exists_events_run world interactiveStreamPolicy (some email)
    chunks ending
  obtain ⟨tokens, closing, htokens, hclosing, rfl⟩ :=
    exists_events_of_prefix htail (hevents ▸ hplays.1)
  have hgrammar := grammar_transcript htokens hclosing raises
  -- A step of the system is one of the stream, and its reply the frame that was added.
  have step : ∀ s a t o, staysConnected s a →
      (generateStream (tokens.map .token ++ closing) raises).step s a = some (t, o) →
      s.step a = some t ∧ o = t.frames[s.frames.length]? := by
    intro s a t o _ hstep
    obtain ⟨t', ht, heq⟩ := Option.map_eq_some_iff.mp hstep
    obtain ⟨rfl, rfl⟩ := Prod.mk.inj heq
    exact ⟨ht, rfl⟩
  have hsends := hrun.invariant (EventStream.sends_opened _ _) fun s a t o h hC hstep ↦
    h.step hC (step s a t o hC hstep).1
  refine ⟨EventStream.followsGrammar_of_sends hsends hgrammar, ?_, ?_⟩
  · refine hrun.log_eq (I := fun _ ↦ True) EventStream.frames Prod.snd trivial
      fun s a t o _ hC hstep ↦ ⟨trivial, ?_⟩
    obtain ⟨ht, rfl⟩ := step s a t o hC hstep
    rcases EventStream.recorded_of_step ht with hsame | ⟨frame, hframes⟩
    · rw [hsame, List.getElem?_eq_none (Nat.le_refl _)]
      exact (List.append_nil _).symm
    · rw [hframes, List.getElem?_concat_length]
      rfl
  -- Timeouts pay for the work that they add.
  · have hbudget : s'.work + tr.countP (fun r ↦ !r.1.isTimeout) ≤
        3 * (tokens.map StreamEvent.token ++ closing).length + 6 +
          tr.countP fun r ↦ r.1.isTimeout := by
      refine hrun.budget (I := fun _ ↦ True) trivial fun s a t o _ hC hstep ↦ ⟨trivial, ?_⟩
      have hwork := EventStream.work_step (step s a t o hC hstep).1
      rcases hkind : a.isTimeout with _ | _ <;> simpa [hkind] using hwork
    exact (Nat.le_add_left _ _).trans hbudget

/-- Every tool stages an action. -/
def stagingWorld : AgentWorld where
  issueCommandKey _ := "key"
  invoke _ _ := .returned (.obj [("status", .str "pending_approval"), ("action_id", .str "7")])
  format value := value.str?.getD ""

/-- A chunk of text, a function call, and more text. -/
def callingChunks : List StreamChunk :=
  [⟨[], some "I add it."⟩,
    ⟨[⟨some "create_task", .mapping [("title", .str "a"), ("notes", .str "b")], none⟩], none⟩,
    ⟨[], some "Done."⟩]

def callingEvents : List StreamEvent :=
  [.token "I add it.", .toolResult "Approval required. Approve action 7 to continue."]

/-- The tool takes its time. -/
def callingSteps : List StreamStep :=
  [.enters, .agentAnswers, .waitReturns false, .resumes, .waitTimesOut false, .agentAnswers,
    .resumes, .waitReturns false, .resumes, .agentAnswers, .waitReturns false, .resumes, .closes]

theorem followsGrammar_of_run_calling : ∃ s : EventStream,
    s.FollowsGrammar ["I add it."] ∧ s.phase = .exited ∧
      s.payloads.map AgentStreamEvent.event = [.token, .toolResult, .done] :=
  have hplays : (GeneralAgentStreamer.run stagingWorld interactiveStreamPolicy (some "me@x.test")
      callingChunks .finished).Plays callingEvents false := ⟨List.prefix_rfl, fun _ ↦ ⟨rfl, rfl⟩⟩
  have hreplay : (generateStream callingEvents false).replay (.opened callingEvents false)
      callingSteps = some (_, _) := rfl
  have hrun := System.run_of_replay_of_meets (C := staysConnected) (p := fun _ e ↦ e.connected)
    (fun _ _ h ↦ h) hreplay rfl
  ⟨_, (followsGrammar_of_run hplays rfl hrun).1, rfl, rfl⟩

end Onebox.Agents
