import Mathlib.Data.List.Basic
import Mathlib.Data.List.Infix
import Mathlib.Tactic.Common

/-!
# Event streams

The format `text/event-stream`. A reader takes the text character by character, so it does not
matter in which pieces the text arrives; a message is dispatched at the blank line after it, so a
text that is cut off gives the messages before the cut. A writer puts comments and messages into
blocks of lines, and the reader gets back the messages that were written.

The reconnection time is left out: no message depends on it.
-/

namespace EventSource

/-- A message event. -/
structure Message where
  eventType : List Char
  data : List Char
  lastEventId : List Char

/-! ## Reading -/

/-- What a reader has read so far. -/
structure Reader where
  /-- A byte order mark would no longer be the first character. -/
  begun : Bool
  /-- The line, as far as it has come. -/
  line : List Char
  /-- The last character was a carriage return. -/
  afterReturn : Bool
  data : List Char
  eventType : List Char
  lastEventId : List Char
  messages : List Message

def byteOrderMark : Char := Char.ofNat 0xFEFF

namespace Reader

/-- Between two blocks. -/
def between (begun : Bool) (messages : List Message) : Reader :=
  ⟨begun, [], false, [], [], [], messages⟩

/-- A blank line. -/
def dispatch (r : Reader) : Reader :=
  if r.data = [] then { r with eventType := [] }
  else
    { r with
      data := []
      eventType := []
      messages := r.messages ++
        [⟨if r.eventType = [] then "message".toList else r.eventType, r.data.dropLast,
          r.lastEventId⟩] }

/-- A field. -/
def takeField (r : Reader) (name value : List Char) : Reader :=
  if name = "event".toList then { r with eventType := value }
  else if name = "data".toList then { r with data := r.data ++ (value ++ ['\n']) }
  else if name = "id".toList then
    if Char.ofNat 0 ∈ value then r else { r with lastEventId := value }
  else r

/-- One blank after the colon does not belong to the value. -/
def dropBlank : List Char → List Char
  | ' ' :: value => value
  | value => value

/-- A line. -/
def takeLine (r : Reader) (line : List Char) : Reader :=
  if line = [] then r.dispatch
  else if line.head? = some ':' then r
  else
    r.takeField (line.takeWhile (· ≠ ':')) (dropBlank (line.dropWhile (· ≠ ':')).tail)

/-- The end of the line. -/
def endLine (r : Reader) : Reader := { r with begun := true, line := [] }.takeLine r.line

/-- A character. -/
def feed (r : Reader) (c : Char) : Reader :=
  if c = '\r' then { r.endLine with afterReturn := true }
  else if c = '\n' then
    if r.afterReturn then { r with afterReturn := false } else r.endLine
  else if r.begun = false ∧ c = byteOrderMark then { r with begun := true }
  else { r with begun := true, afterReturn := false, line := r.line ++ [c] }

/-- A piece of the text. -/
def read (r : Reader) (text : List Char) : Reader := text.foldl feed r

end Reader

/-- The messages of a text that arrives in pieces. -/
def readPieces (pieces : List (List Char)) : List Message :=
  (pieces.foldl Reader.read (.between false [])).messages

section

variable {r : Reader} {begun : Bool} {messages : List Message}

namespace Reader

theorem read_append (r : Reader) (text rest : List Char) :
    r.read (text ++ rest) = (r.read text).read rest := List.foldl_append

theorem read_cons (r : Reader) (c : Char) (text : List Char) :
    r.read (c :: text) = (r.feed c).read text := rfl

theorem foldl_read (r : Reader) (pieces : List (List Char)) :
    pieces.foldl read r = r.read pieces.flatten := by
  induction pieces generalizing r with
  | nil => rfl
  | cons piece pieces ih => rw [List.foldl_cons, ih, List.flatten_cons, read_append]

/-! ### Nothing is taken back -/

theorem messages_dispatch (r : Reader) : r.messages <+: r.dispatch.messages := by
  rw [dispatch]
  split
  · exact List.prefix_refl _
  · exact List.prefix_append _ _

theorem messages_takeField (r : Reader) (name value : List Char) :
    (r.takeField name value).messages = r.messages := by
  rw [takeField]
  split
  · rfl
  split
  · rfl
  split
  · split
    · rfl
    · rfl
  · rfl

theorem messages_takeLine (r : Reader) (line : List Char) :
    r.messages <+: (r.takeLine line).messages := by
  rw [takeLine]
  split
  · exact r.messages_dispatch
  split
  · exact List.prefix_refl _
  · rw [messages_takeField]

theorem messages_feed (r : Reader) (c : Char) : r.messages <+: (r.feed c).messages := by
  have hline : r.messages <+: r.endLine.messages :=
    messages_takeLine { r with begun := true, line := [] } r.line
  rw [feed]
  split
  · exact hline
  split
  · split
    · exact List.prefix_refl _
    · exact hline
  split
  · exact List.prefix_refl _
  · exact List.prefix_refl _

theorem messages_read (r : Reader) (text : List Char) : r.messages <+: (r.read text).messages := by
  induction text generalizing r with
  | nil => exact List.prefix_refl _
  | cons c text ih => exact (r.messages_feed c).trans (ih (r.feed c))

end Reader

/-- **The pieces do not matter.** -/
theorem readPieces_eq (pieces : List (List Char)) :
    readPieces pieces = ((Reader.between false []).read pieces.flatten).messages := by
  rw [readPieces, Reader.foldl_read]

/-- **A text that is cut off** gives a part of the messages, from the first one on. -/
theorem isPrefix_readPieces {pieces : List (List Char)} {text : List Char}
    (h : pieces.flatten <+: text) :
    readPieces pieces <+: ((Reader.between false []).read text).messages := by
  obtain ⟨rest, rfl⟩ := h
  rw [readPieces_eq, Reader.read_append]
  exact Reader.messages_read _ _

/-! ## Writing -/

/-- A block of lines: a comment, or a message with the lines of its data. -/
inductive Block
  | comment (text : List Char)
  | message (lines : List (List Char))

namespace Block

/-- The lines of a message, before the blank one. -/
def writeLines (lines : List (List Char)) : List Char :=
  lines.flatMap fun line ↦ "data: ".toList ++ (line ++ ['\n'])

def write : Block → List Char
  | comment text => ':' :: (text ++ ['\n', '\n'])
  | message lines => writeLines lines ++ ['\n']

/-- The message that a block stands for. -/
def message? : Block → Option Message
  | comment _ => none
  | message lines =>
    if lines = [] then none
    else some ⟨"message".toList, (lines.flatMap (· ++ ['\n'])).dropLast, []⟩

theorem write_singleton (line : List Char) :
    (message [line]).write = "data: ".toList ++ line ++ ['\n', '\n'] := by
  rw [write, writeLines, List.flatMap_singleton, ← List.append_assoc, List.append_assoc]
  rfl

theorem message?_singleton (line : List Char) :
    (message [line]).message? = some ⟨"message".toList, line, []⟩ := by
  rw [message?, if_neg (List.cons_ne_nil _ _), List.flatMap_singleton, List.dropLast_concat]

end Block

/-- No character ends a line. -/
def OneLine (text : List Char) : Prop := ∀ c ∈ text, c ≠ '\r' ∧ c ≠ '\n'

/-- The texts of a block stay within their lines. -/
def Block.WellFormed : Block → Prop
  | comment text => OneLine text
  | message lines => ∀ line ∈ lines, OneLine line

/-! ## Reading what was written -/

namespace Reader

/-- The characters of a line are collected. -/
theorem read_oneLine {text : List Char} (hbegun : r.begun = true)
    (hreturn : r.afterReturn = false) (h : OneLine text) :
    r.read text = { r with line := r.line ++ text } := by
  induction text generalizing r with
  | nil =>
    rw [List.append_nil]
    rfl
  | cons c text ih =>
    obtain ⟨hc, htext⟩ := List.forall_mem_cons.mp h
    have hfeed : r.feed c = { r with line := r.line ++ [c] } := by
      rw [feed, if_neg hc.1, if_neg hc.2, if_neg (fun hmark ↦ Bool.false_ne_true
        (hmark.1.symm.trans hbegun)), hbegun.symm, hreturn.symm]
    have hrest := ih (r := { r with line := r.line ++ [c] }) hbegun hreturn htext
    rw [read_cons, hfeed, hrest, List.append_assoc]
    rfl

/-- A line, and its end. -/
theorem read_line {text : List Char} (hbegun : r.begun = true) (hreturn : r.afterReturn = false)
    (hline : r.line = []) (h : OneLine text) : r.read (text ++ ['\n']) = r.takeLine text := by
  have hend : ∀ r' : Reader, r'.afterReturn = false → r'.read ['\n'] = r'.endLine := by
    intro r' hr'
    rw [read_cons, feed, if_neg (by decide), if_pos rfl, hr', if_neg Bool.false_ne_true]
    rfl
  rw [read_append, read_oneLine hbegun hreturn h, hend { r with line := r.line ++ text } hreturn,
    endLine, hline, List.nil_append]
  congr 1
  rcases r with ⟨_, _, _, _, _, _, _⟩
  obtain rfl : _ = true := hbegun
  obtain rfl : _ = [] := hline
  rfl

/-- The first character is no byte order mark. -/
theorem read_between_cons {c : Char} (hc : c ≠ byteOrderMark) (text : List Char) :
    (between begun messages).read (c :: text) = (between true messages).read (c :: text) := by
  have hmark : ∀ begun, ¬((between begun messages).begun = false ∧ c = byteOrderMark) :=
    fun _ hmark ↦ hc hmark.2
  rw [read_cons, read_cons, feed, feed, if_neg (hmark begun), if_neg (hmark true)]
  rfl

theorem takeLine_comment (r : Reader) (text : List Char) : r.takeLine (':' :: text) = r := by
  have hcolon : (':' :: text).head? = some ':' := rfl
  rw [takeLine, if_neg (List.cons_ne_nil _ _), if_pos hcolon]

theorem takeLine_data (r : Reader) (line : List Char) :
    r.takeLine ("data: ".toList ++ line) = { r with data := r.data ++ (line ++ ['\n']) } := by
  have hfield : r.takeLine ("data: ".toList ++ line) = r.takeField "data".toList line := rfl
  rw [hfield, takeField, if_neg (by decide), if_pos rfl]

theorem oneLine_data {line : List Char} (h : OneLine line) : OneLine ("data: ".toList ++ line) := by
  intro c hc
  rcases List.mem_append.mp hc with hname | hline
  · have hall : ("data: ".toList.all fun d ↦ d ≠ '\r' ∧ d ≠ '\n') = true := rfl
    exact of_decide_eq_true (List.all_eq_true.mp hall c hname)
  · exact h c hline

theorem read_writeLines {lines : List (List Char)} (hbegun : r.begun = true)
    (hreturn : r.afterReturn = false) (hline : r.line = []) (h : ∀ line ∈ lines, OneLine line) :
    r.read (Block.writeLines lines) = { r with data := r.data ++ lines.flatMap (· ++ ['\n']) } := by
  induction lines generalizing r with
  | nil =>
    rw [List.flatMap_nil, List.append_nil]
    rfl
  | cons line lines ih =>
    obtain ⟨hfirst, hrest⟩ := List.forall_mem_cons.mp h
    have hread : r.read ("data: ".toList ++ (line ++ ['\n'])) =
        { r with data := r.data ++ (line ++ ['\n']) } := by
      rw [← List.append_assoc, read_line hbegun hreturn hline (oneLine_data hfirst), takeLine_data]
    have hlines := ih (r := { r with data := r.data ++ (line ++ ['\n']) }) hbegun hreturn hline
      hrest
    rw [Block.writeLines] at hlines ⊢
    rw [List.flatMap_cons, read_append, hread, hlines, List.flatMap_cons, List.append_assoc]

theorem dispatch_lines (messages : List Message) (lines : List (List Char)) :
    (Reader.mk true [] false (lines.flatMap (· ++ ['\n'])) [] [] messages).dispatch =
      between true (messages ++ (Block.message lines).message?.toList) := by
  rcases lines with _ | ⟨line, lines⟩
  · exact congrArg (between true) (List.append_nil messages).symm
  · have hne : (line :: lines).flatMap (· ++ ['\n']) ≠ [] := by
      rw [List.flatMap_cons, List.append_assoc]
      exact List.append_ne_nil_of_right_ne_nil _ (List.cons_ne_nil _ _)
    rw [dispatch, if_neg hne]
    rfl

/-- **A block is read back.** -/
theorem read_block {block : Block} (h : block.WellFormed) :
    (between begun messages).read block.write =
      between true (messages ++ block.message?.toList) := by
  rcases block with text | lines
  · have hcolon : OneLine (':' :: text) :=
      List.forall_mem_cons.mpr ⟨by decide, h⟩
    have hwrite : (Block.comment text).write = (':' :: text ++ ['\n']) ++ ['\n'] := by
      rw [Block.write, List.append_assoc]
      rfl
    have hlast : (between true messages).read ['\n'] = between true messages := rfl
    rw [Block.write, read_between_cons (by decide), ← Block.write, hwrite, read_append,
      read_line rfl rfl rfl hcolon, takeLine_comment, hlast]
    exact congrArg (between true) (List.append_nil messages).symm
  · have hbegin : (between begun messages).read (Block.message lines).write =
        (between true messages).read (Block.message lines).write := by
      rcases lines with _ | ⟨line, lines⟩
      · exact read_between_cons (by decide) []
      · exact read_between_cons (by decide) _
    have hend : ∀ r' : Reader, r'.afterReturn = false → r'.begun = true → r'.line = [] →
        r'.read ['\n'] = r'.dispatch := by
      intro r' hreturn hbegun hline
      exact read_line hbegun hreturn hline (List.forall_mem_nil _)
    rw [hbegin, Block.write, read_append, read_writeLines rfl rfl rfl h, hend _ rfl rfl rfl]
    exact dispatch_lines messages lines

/-- **Blocks are read back**: the messages that were written, in order, and no others. -/
theorem messages_read_blocks {blocks : List Block} (h : ∀ block ∈ blocks, block.WellFormed) :
    ((between begun messages).read (blocks.flatMap Block.write)).messages =
      messages ++ blocks.filterMap Block.message? := by
  induction blocks generalizing begun messages with
  | nil => exact (List.append_nil messages).symm
  | cons block blocks ih =>
    obtain ⟨hfirst, hrest⟩ := List.forall_mem_cons.mp h
    rw [List.flatMap_cons, read_append, read_block hfirst, ih hrest, List.append_assoc]
    congr 1
    rcases hmessage : block.message? with _ | message
    · rw [List.filterMap_cons_none hmessage]
      rfl
    · rw [List.filterMap_cons_some hmessage]
      rfl

end Reader

end

end EventSource
