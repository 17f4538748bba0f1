import Onebox.Agents.EventGrammar
import Onebox.Python.JsonBytes
import Onebox.Streams.EventSource

/-!
# The client of the event stream

The frames are sent as a `text/event-stream`, in bytes. In whatever pieces the bytes arrive, a
client reads back the events that were sent. Where the connection breaks off, or where the server
finds the client gone, it has read the first ones; a terminal event tells it that it has read all.
-/

namespace Onebox.Agents

open Python Transition EventSource

variable {s s' : EventStream} {events : List StreamEvent} {raises : Bool} {e : StreamStep}
  {whole : List AgentStreamEvent} {frames : List Frame} {pieces : List Bytes}

/-! ## Reading events -/

/-- The member of a value. -/
def AgentStreamEventType.ofValue? (value : String) : Option AgentStreamEventType :=
  [.token, .toolResult, .error, .done].find? fun event ↦ event.value = value

/-- A value as an `AgentStreamEvent`. -/
def AgentStreamEvent.ofJson? (value : Json) : Option AgentStreamEvent :=
  match ((value.get? "event").bind Json.str?).bind AgentStreamEventType.ofValue?,
    (value.get? "content").bind Json.str? with
  | some event, some content =>
    some ⟨event, content, (value.get? "error_code").bind Json.str?⟩
  | _, _ => none

/-- The data of a message is JSON. -/
def readEvent (message : Message) : Option AgentStreamEvent :=
  (loads message.data).bind AgentStreamEvent.ofJson?

/-- What a client reads from the pieces, each of which it decodes on its own. A message that is no
event is `none`. -/
def readEvents (pieces : List Bytes) : List (Option AgentStreamEvent) :=
  (readPieces (pieces.map fun piece ↦ (decodeUtf8 piece).toList)).map readEvent

/-- What `StreamingResponse` sends of the frames. -/
def EventStream.wire (s : EventStream) : Bytes := encodeUtf8 (s.frames.flatMap Frame.text)

theorem AgentStreamEventType.ofValue?_value (event : AgentStreamEventType) :
    ofValue? event.value = some event := by
  cases event <;> decide

theorem AgentStreamEvent.ofJson?_dump (payload : AgentStreamEvent) :
    ofJson? (.obj (payload.dump.map stringField)) = some payload := by
  obtain ⟨event, content, code⟩ := payload
  have hevent : (Json.obj ((dump ⟨event, content, code⟩).map stringField)).get? "event" =
      some (.str event.value) := rfl
  have hcontent : (Json.obj ((dump ⟨event, content, code⟩).map stringField)).get? "content" =
      some (.str content) := rfl
  have hcode : ((Json.obj ((dump ⟨event, content, code⟩).map stringField)).get?
      "error_code").bind Json.str? = code := by
    cases code <;> rfl
  simp only [ofJson?, hevent, hcontent, hcode, Option.bind_some, Json.str?,
    AgentStreamEventType.ofValue?_value]

theorem readEvent_dump (payload : AgentStreamEvent) :
    readEvent ⟨"message".toList, dumpsStringsSpaced payload.dump, []⟩ = some payload := by
  have hkeys : (payload.dump.map Prod.fst).Nodup := by
    rcases payload with ⟨event, content, _ | code⟩
    · simp [AgentStreamEvent.dump]
    · simp [AgentStreamEvent.dump]
  rw [readEvent, loads_dumpsStringsSpaced hkeys, Option.bind_some, AgentStreamEvent.ofJson?_dump]

/-! ## Frames as blocks -/

namespace Frame

def block : Frame → Block
  | heartbeat => .comment " heartbeat".toList
  | data payload => .message [dumpsStringsSpaced payload.dump]

theorem write_block (frame : Frame) : frame.block.write = frame.text := by
  rcases frame with _ | payload
  · rfl
  · exact Block.write_singleton _

theorem oneLine_of_visible {text : List Char} (h : ∀ c ∈ text, Visible c) : OneLine text := by
  intro c hc
  constructor
  · rintro rfl
    exact absurd (h _ hc) (by decide)
  · rintro rfl
    exact absurd (h _ hc) (by decide)

theorem wellFormed_block (frame : Frame) : frame.block.WellFormed := by
  rcases frame with _ | payload
  · exact oneLine_of_visible (Json.visible_of_all rfl)
  · exact List.forall_mem_singleton.mpr (oneLine_of_visible (Json.visible_dumpsStringsSpaced _))

theorem ascii_text (frame : Frame) : ∀ c ∈ frame.text, c.toNat < 128 := by
  have hvisible : ∀ {text : List Char}, (∀ c ∈ text, Visible c) → ∀ c ∈ text, c.toNat < 128 :=
    fun h c hc ↦ Nat.lt_of_le_of_lt (h c hc).2 (by decide)
  have hend : ∀ c ∈ ['\n', '\n'], c.toNat < 128 :=
    List.forall_mem_cons.mpr ⟨by decide, List.forall_mem_singleton.mpr (by decide)⟩
  rcases frame with _ | payload
  · exact List.forall_mem_append.mpr ⟨hvisible (Json.visible_of_all rfl), hend⟩
  · exact List.forall_mem_append.mpr ⟨List.forall_mem_append.mpr
      ⟨hvisible (Json.visible_of_all rfl), hvisible (Json.visible_dumpsStringsSpaced _)⟩, hend⟩

/-- The event of a frame is read from its block. -/
theorem readEvent_block (frame : Frame) :
    frame.block.message?.map readEvent = frame.payload?.map some := by
  rcases frame with _ | payload
  · rfl
  · rw [block, Block.message?_singleton, Option.map_some, readEvent_dump]
    rfl

end Frame

/-! ## The frames on the wire -/

/-- The text of the frames is read back. -/
theorem events_read_text (frames : List Frame) :
    (((Reader.between false []).read (frames.flatMap Frame.text)).messages).map readEvent =
      (frames.filterMap Frame.payload?).map some := by
  have hblocks : frames.flatMap Frame.text = (frames.map Frame.block).flatMap Block.write := by
    rw [List.flatMap_map]
    exact List.flatMap_congr fun frame _ ↦ frame.write_block.symm
  have hwell : ∀ block ∈ frames.map Frame.block, block.WellFormed := by
    intro block hblock
    obtain ⟨frame, -, rfl⟩ := List.mem_map.mp hblock
    exact frame.wellFormed_block
  rw [hblocks, Reader.messages_read_blocks hwell, List.nil_append, List.filterMap_map,
    List.map_filterMap, List.map_filterMap]
  exact List.filterMap_congr fun frame _ ↦ frame.readEvent_block

theorem ascii_frames (frames : List Frame) : ∀ c ∈ frames.flatMap Frame.text, c.toNat < 128 := by
  intro c hc
  obtain ⟨frame, -, hframe⟩ := List.mem_flatMap.mp hc
  exact frame.ascii_text c hframe

/-- The pieces, decoded one by one, are a beginning of the text. -/
theorem flatten_decoded (h : pieces.flatten <+: encodeUtf8 (frames.flatMap Frame.text)) :
    (pieces.map fun piece ↦ (decodeUtf8 piece).toList).flatten = pieces.flatten.map asciiChar :=
  flatten_map_decodeUtf8 fun b hb ↦ (encodeUtf8_ascii (ascii_frames frames)).1 b (h.subset hb)

theorem readEvents_of_eq (h : pieces.flatten = encodeUtf8 (frames.flatMap Frame.text)) :
    readEvents pieces = (frames.filterMap Frame.payload?).map some := by
  have htext : (pieces.map fun piece ↦ (decodeUtf8 piece).toList).flatten =
      frames.flatMap Frame.text := by
    rw [flatten_decoded ⟨[], (List.append_nil _).trans h⟩, h,
      (encodeUtf8_ascii (ascii_frames frames)).2]
  rw [readEvents, readPieces_eq, htext, events_read_text]

theorem isPrefix_readEvents (h : pieces.flatten <+: encodeUtf8 (frames.flatMap Frame.text)) :
    readEvents pieces <+: (frames.filterMap Frame.payload?).map some := by
  have htext : (pieces.map fun piece ↦ (decodeUtf8 piece).toList).flatten <+:
      frames.flatMap Frame.text := by
    rw [flatten_decoded h, ← (encodeUtf8_ascii (ascii_frames frames)).2]
    exact h.map asciiChar
  rw [readEvents, ← events_read_text]
  exact (isPrefix_readPieces htext).map readEvent

/-! ## The end of the transcript -/

/-- After a terminal event there is nothing. -/
theorem eq_nil_of_terminal {before after : List AgentStreamEvent} {event : AgentStreamEvent}
    (h : transcript raises events = before ++ event :: after)
    (hterminal : event.event.isTerminal = true) : after = [] := by
  induction events generalizing before with
  | nil =>
    rcases before with _ | ⟨first, before⟩
    · exact (List.cons.inj h).2.symm
    · exact absurd (List.cons.inj h).2.symm
        (List.append_ne_nil_of_right_ne_nil _ (List.cons_ne_nil _ _))
  | cons first rest ih =>
    rw [transcript] at h
    rcases before with _ | ⟨_, before⟩
    · obtain ⟨rfl, hafter⟩ := List.cons.inj h
      rwa [if_pos hterminal, eq_comm] at hafter
    · obtain ⟨-, htail⟩ := List.cons.inj h
      split at htail
      · exact absurd htail.symm (List.append_ne_nil_of_right_ne_nil _ (List.cons_ne_nil _ _))
      · exact ih htail

/-- A beginning with a terminal event is everything. -/
theorem eq_of_terminal_mem {part : List (Option AgentStreamEvent)} {event : AgentStreamEvent}
    (h : part <+: (transcript raises events).map some) (hmem : some event ∈ part)
    (hterminal : event.event.isTerminal = true) : part = (transcript raises events).map some := by
  obtain ⟨rest, hrest⟩ := h
  obtain ⟨read, unread, htranscript, rfl, rfl⟩ := List.map_eq_append_iff.mp hrest.symm
  obtain ⟨event', hmem', heq⟩ := List.mem_map.mp hmem
  obtain rfl := Option.some.inj heq
  obtain ⟨before, after, rfl⟩ := List.append_of_mem hmem'
  rw [List.append_assoc, List.cons_append] at htranscript
  have hnil := List.append_eq_nil_iff.mp (eq_nil_of_terminal htranscript hterminal)
  rw [htranscript, hnil.2, List.append_nil]

/-! ## Clients that go -/

namespace EventStream

/-- The response generator is in its `finally` block. -/
def Leaving (s : EventStream) : Prop :=
  s.phase = .cancelling ∨ s.phase = .closing ∨ s.phase = .exited

/-- It has sent what the transcript begins with, and sends nothing more. -/
def Abandons (whole : List AgentStreamEvent) (s : EventStream) : Prop :=
  s.Leaving ∧ s.payloads <+: whole

theorem Sends.isPrefix_payloads (h : s.Sends whole) : s.payloads <+: whole := by
  rw [Sends] at h
  split at h
  · exact ⟨_, h.2.2⟩
  · exact ⟨_, h.2.2⟩
  · exact ⟨_, h.2.2⟩
  · exact h ▸ List.prefix_rfl
  · exact h ▸ List.prefix_rfl
  · exact h.2 ▸ List.prefix_rfl
  · exact h.2 ▸ List.prefix_rfl

theorem leaving_leave (s : EventStream) : s.leave.Leaving := by
  rw [leave]
  by_cases hpending : s.nextEvent.isPending
  · exact .inl (if_pos hpending)
  · exact .inr (.inl (if_neg hpending))

theorem abandons_leave (h : s.payloads <+: whole) : s.leave.Abandons whole :=
  ⟨s.leaving_leave, h⟩

theorem finish_disconnected (s : EventStream) (payload : AgentStreamEvent) :
    s.finish true payload = s.leave := by
  rw [finish, Bool.or_true, if_pos rfl]

/-- The client is found gone. -/
theorem Sends.abandons (h : s.Sends whole) (hconnected : e.connected = false)
    (hstep : s.step e = some s') : s'.Abandons whole := by
  have hprefix := h.isPrefix_payloads
  match e with
  | .enters | .agentAnswers | .taskCancelled | .resumes | .gathered | .closes => cases hconnected
  | .waitTimesOut false | .waitReturns false => cases hconnected
  | .waitTimesOut true =>
    simp only [EventStream.step] at hstep
    split at hstep
    · obtain rfl := Option.some.inj hstep
      exact abandons_leave hprefix
    · cases hstep
  | .waitReturns true =>
    simp only [EventStream.step] at hstep
    split at hstep
    · obtain rfl := Option.some.inj hstep
      exact abandons_leave hprefix
    · obtain rfl := Option.some.inj hstep
      rw [finish_disconnected]
      exact abandons_leave hprefix
    · obtain rfl := Option.some.inj hstep
      rw [finish_disconnected]
      exact abandons_leave hprefix
    · cases hstep

/-- In the `finally` block no frame is sent. -/
theorem Leaving.step (h : s.Leaving) (hstep : s.step e = some s') :
    s'.Leaving ∧ s'.frames = s.frames := by
  -- The stream has left the phases in which frames can still be sent.
  have hphase : s.phase ≠ .entering ∧ s.phase ≠ .waiting ∧ ∀ next, s.phase ≠ .emitting next := by
    rcases h with h | h | h
    · rw [h]
      exact ⟨nofun, nofun, nofun⟩
    · rw [h]
      exact ⟨nofun, nofun, nofun⟩
    · rw [h]
      exact ⟨nofun, nofun, nofun⟩
  cases e with
  | enters =>
    simp only [EventStream.step] at hstep
    split at hstep
    · exact absurd ‹_› hphase.1
    · cases hstep
  | agentAnswers =>
    simp only [EventStream.step] at hstep
    split at hstep
    · obtain rfl := Option.some.inj hstep
      exact ⟨h, rfl⟩
    · obtain rfl := Option.some.inj hstep
      exact ⟨h, rfl⟩
    · cases hstep
  | taskCancelled =>
    simp only [EventStream.step] at hstep
    split at hstep
    · obtain rfl := Option.some.inj hstep
      exact ⟨h, rfl⟩
    · cases hstep
  | waitTimesOut disconnected =>
    simp only [EventStream.step] at hstep
    split at hstep
    · exact absurd ‹_› hphase.2.1
    · cases hstep
  | waitReturns disconnected =>
    simp only [EventStream.step] at hstep
    split at hstep
    · exact absurd ‹_› hphase.2.1
    · exact absurd ‹_› hphase.2.1
    · exact absurd ‹_› hphase.2.1
    · cases hstep
  | resumes =>
    simp only [EventStream.step] at hstep
    split at hstep
    · exact absurd ‹_› (hphase.2.2 _)
    · exact absurd ‹_› (hphase.2.2 _)
    · cases hstep
  | gathered =>
    simp only [EventStream.step] at hstep
    split at hstep
    · split at hstep
      · cases hstep
      · obtain rfl := Option.some.inj hstep
        exact ⟨.inr (.inl rfl), rfl⟩
    · cases hstep
  | closes =>
    simp only [EventStream.step] at hstep
    split at hstep
    · obtain rfl := Option.some.inj hstep
      exact ⟨.inr (.inr rfl), rfl⟩
    · cases hstep

theorem Abandons.step (h : s.Abandons whole) (hstep : s.step e = some s') : s'.Abandons whole := by
  obtain ⟨hleaving, hframes⟩ := h.1.step hstep
  refine ⟨hleaving, ?_⟩
  rw [payloads, hframes]
  exact h.2

/-! ## Reading back -/

/-- What holds of a client that reads what has been sent. -/
structure ReadBack (whole : List AgentStreamEvent) (s : EventStream) : Prop where
  /-- In whatever pieces the bytes arrive, what is read is what was sent. -/
  all : ∀ pieces : List Bytes, pieces.flatten = s.wire → readEvents pieces = s.payloads.map some
  /-- Where the connection breaks off, the first events of the transcript have been read. -/
  cut : ∀ pieces : List Bytes, pieces.flatten <+: s.wire → readEvents pieces <+: whole.map some
  /-- A terminal event tells that all have been read. -/
  ended : ∀ pieces : List Bytes, pieces.flatten <+: s.wire → ∀ event : AgentStreamEvent,
    some event ∈ readEvents pieces → event.event.isTerminal = true →
      readEvents pieces = whole.map some

theorem readBack_of_prefix (h : s.payloads <+: transcript raises events) :
    s.ReadBack (transcript raises events) := by
  have hcut : ∀ pieces : List Bytes, pieces.flatten <+: s.wire →
      readEvents pieces <+: (transcript raises events).map some :=
    fun pieces hpieces ↦ (isPrefix_readEvents hpieces).trans (h.map some)
  exact ⟨fun pieces hpieces ↦ readEvents_of_eq hpieces, hcut,
    fun pieces hpieces event hmem ↦ eq_of_terminal_mem (hcut pieces hpieces) hmem⟩

end EventStream

/-- **The client reads the events back**, however the bytes are cut and whether it stays or not;
if it stays it reads them all. -/
theorem readBack_of_run {tr : List (StreamStep × Option Frame)}
    (hinit : (generateStream events raises).init s)
    (hrun : System.Run (generateStream events raises) anyStep s tr s') :
    s'.ReadBack (transcript raises events) ∧
      ((∀ r ∈ tr, r.1.connected = true) → s'.phase = .exited →
        ∀ pieces : List Bytes, pieces.flatten = s'.wire →
          readEvents pieces = (transcript raises events).map some) := by
  obtain rfl := hinit
  -- The invariant: all is sent as long as the client is there, and a beginning once it is gone.
  have hhistory : (s'.Sends (transcript raises events) ∨ s'.Abandons (transcript raises events)) ∧
      ((∀ r ∈ tr, r.1.connected = true) → s'.Sends (transcript raises events)) := by
    refine hrun.history (I := fun s tr ↦ (s.Sends (transcript raises events) ∨
      s.Abandons (transcript raises events)) ∧ ((∀ r ∈ tr, r.1.connected = true) →
        s.Sends (transcript raises events))) ?_ ?_
    · exact ⟨.inl (EventStream.sends_opened events raises),
        fun _ ↦ EventStream.sends_opened events raises⟩
    · rintro s tr e t o ⟨hstate, hstays⟩ - hstep
      obtain ⟨t', ht, heq⟩ := Option.map_eq_some_iff.mp hstep
      obtain ⟨rfl, -⟩ := Prod.mk.inj heq
      refine ⟨?_, fun hconnected ↦ ?_⟩
      · rcases hstate with hsends | habandons
        · rcases hconnected : e.connected with _ | _
          · exact .inr (hsends.abandons hconnected ht)
          · exact .inl (hsends.step hconnected ht)
        · exact .inr (habandons.step ht)
      · obtain ⟨hbefore, hlast⟩ := List.forall_mem_append.mp hconnected
        exact (hstays hbefore).step (hlast _ (List.mem_singleton_self _)) ht
  obtain ⟨hstate, hstays⟩ := hhistory
  have hprefix : s'.payloads <+: transcript raises events :=
    hstate.elim EventStream.Sends.isPrefix_payloads And.right
  refine ⟨EventStream.readBack_of_prefix hprefix, fun hconnected hphase pieces hpieces ↦ ?_⟩
  have hsends := hstays hconnected
  rw [EventStream.Sends, hphase] at hsends
  rw [readEvents_of_eq hpieces, ← hsends.2]
  rfl

theorem readBack_of_run_calling : ∃ s : EventStream,
    s.ReadBack (transcript false callingEvents) ∧ s.frames.length = 4 ∧
      ∀ pieces : List Bytes, pieces.flatten = s.wire →
        readEvents pieces = (transcript false callingEvents).map some :=
  have hreplay : (generateStream callingEvents false).replay (.opened callingEvents false)
      callingSteps = some (_, _) := rfl
  have hrun := System.run_of_replay hreplay
  have hinit : (generateStream callingEvents false).init (.opened callingEvents false) := rfl
  have hread := readBack_of_run hinit hrun
  have hconnected : callingSteps.all StreamStep.connected = true := rfl
  ⟨_, hread.1, rfl, hread.2 (fun r hr ↦ List.all_eq_true.mp hconnected r.1 (List.of_mem_zip hr).1)
    rfl⟩

end Onebox.Agents
