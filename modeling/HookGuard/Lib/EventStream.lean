import HookGuard.Lib.Text

/- How an `EventSource` reads an event stream, one character at a time, as the HTML standard
   has it, but for the field `retry`.

   What was dispatched stays dispatched (`messages_initial`), so that of a stream that is cut
   off anywhere the messages are the first of the whole stream's. A frame of one `data` line
   is one message, and a frame of a comment is none (`read_data`, `read_comment`). -/
namespace EventStream
open Py

structure Message where
  type : Str
  data : Str
  lastEventId : Str
  deriving DecidableEq, Repr

/-- The line that is read, whether a carriage return was before it, the buffers, and what was
    dispatched. -/
structure Reader where
  line : Str := []
  afterReturn : Bool := false
  data : Str := []
  type : Str := []
  lastEventId : Str := []
  messages : List Message := []

namespace Reader

/-- A blank line: the event is dispatched, unless it has no data. -/
def dispatch (r : Reader) : Reader :=
  if r.data = [] then { r with type := [] }
  else
    { r with
      data := []
      type := []
      messages := r.messages ++
        [⟨if r.type = [] then lit "message" else r.type, r.data.dropLast, r.lastEventId⟩] }

def field (r : Reader) (name value : Str) : Reader :=
  if name = lit "data" then { r with data := r.data ++ value ++ [10] }
  else if name = lit "event" then { r with type := value }
  else if name = lit "id" then if 0 ∈ value then r else { r with lastEventId := value }
  else r

/-- The value of a field, without one space before it. -/
def unspaced : Str → Str
  | 32 :: value => value
  | value => value

/-- The end of a line: blank, a comment, or a field. -/
def endLine (r : Reader) : Reader :=
  match r.line with
  | [] => r.dispatch
  | 58 :: _ => { r with line := [] }
  | line =>
    let name := line.takeWhile (· ≠ 58)
    Reader.field { r with line := [] } name (unspaced (line.drop (name.length + 1)))

/-- A line ends with a line feed, a carriage return, or both. -/
def feed (r : Reader) (c : Nat) : Reader :=
  if c = 10 then if r.afterReturn then { r with afterReturn := false } else r.endLine
  else if c = 13 then { r.endLine with afterReturn := true }
  else { r with line := r.line ++ [c], afterReturn := false }

end Reader

/-- What is read of a stream, after a byte order mark. -/
def read : Str → Reader
  | 0xFEFF :: s => s.foldl Reader.feed {}
  | s => s.foldl Reader.feed {}

section Read
variable {r : Reader} {s t : Str}

theorem dispatch_messages (r : Reader) : r.messages <+: r.dispatch.messages := by
  unfold Reader.dispatch
  split
  · exact List.prefix_rfl
  · exact List.prefix_append _ _

theorem field_messages (r : Reader) (name value : Str) :
    (r.field name value).messages = r.messages := by
  unfold Reader.field
  repeat' split
  all_goals rfl

theorem endLine_messages (r : Reader) : r.messages <+: r.endLine.messages := by
  unfold Reader.endLine
  split
  · exact dispatch_messages r
  · exact List.prefix_rfl
  · rw [field_messages]

theorem feed_messages (r : Reader) (c : Nat) : r.messages <+: (r.feed c).messages := by
  unfold Reader.feed
  split
  · split
    · exact List.prefix_rfl
    · exact endLine_messages r
  · split
    · exact endLine_messages r
    · exact List.prefix_rfl

theorem foldl_messages (s : Str) (r : Reader) :
    r.messages <+: (s.foldl Reader.feed r).messages := by
  induction s generalizing r with
  | nil => exact List.prefix_rfl
  | cons c s ih => exact (feed_messages r c).trans (ih (r.feed c))

theorem read_unmarked (h : s.head? ≠ some 0xFEFF) : read s = s.foldl Reader.feed {} := by
  unfold read
  split
  · exact absurd rfl h
  · rfl

/-- Of the first part of a stream, the first messages of the stream are dispatched. -/
theorem messages_initial (h : s <+: t) : (read s).messages <+: (read t).messages := by
  obtain ⟨rest, rfl⟩ := h
  cases s with
  | nil => exact List.nil_prefix
  | cons c s =>
    by_cases hmark : c = 0xFEFF
    · subst hmark
      show (s.foldl Reader.feed {}).messages <+: ((s ++ rest).foldl Reader.feed {}).messages
      rw [List.foldl_append]
      exact foldl_messages rest _
    · have hhead : ∀ s : Str, (c :: s).head? ≠ some 0xFEFF := fun s h =>
        hmark (Option.some.inj h)
      rw [List.cons_append, read_unmarked (hhead _), read_unmarked (hhead _),
        ← List.cons_append, List.foldl_append]
      exact foldl_messages rest _

theorem foldl_text (hs : ∀ c ∈ s, c ≠ 10 ∧ c ≠ 13) (hreturn : r.afterReturn = false) :
    s.foldl Reader.feed r = { r with line := r.line ++ s } := by
  induction s generalizing r with
  | nil => rw [List.append_nil]; rfl
  | cons c s ih =>
    rw [List.forall_mem_cons] at hs
    have hfeed : r.feed c = { r with line := r.line ++ [c] } := by
      rw [Reader.feed, if_neg hs.1.1, if_neg hs.1.2, ← hreturn]
    have hrest := ih (r := { r with line := r.line ++ [c] }) hs.2 hreturn
    rw [List.foldl_cons, hfeed, hrest]
    simp

/-- The reader is between two events. -/
structure Between (r : Reader) : Prop where
  line : r.line = []
  afterReturn : r.afterReturn = false
  data : r.data = []
  type : r.type = []

/-- The reader, with more messages dispatched. -/
def Reader.after (r : Reader) (messages : List Message) : Reader :=
  { r with messages := r.messages ++ messages }

theorem after_nil (r : Reader) : r.after [] = r := by
  rw [Reader.after, List.append_nil]

theorem after_append (r : Reader) (ms ms' : List Message) :
    r.after (ms ++ ms') = (r.after ms).after ms' := by
  simp only [Reader.after, List.append_assoc]

theorem Between.after (h : Between r) (ms : List Message) : Between (r.after ms) :=
  ⟨h.line, h.afterReturn, h.data, h.type⟩

theorem feed_newline (hreturn : r.afterReturn = false) : r.feed 10 = r.endLine := by
  rw [Reader.feed, if_pos rfl, hreturn]
  rfl

/-- A frame of one line of data, and a blank line after it. -/
def dataFrame (text : Str) : Str := lit "data: " ++ text ++ lit "\n\n"

theorem read_data (hr : Between r) {text : Str} (htext : ∀ c ∈ text, c ≠ 10 ∧ c ≠ 13) :
    (dataFrame text).foldl Reader.feed r =
      r.after [⟨lit "message", text, r.lastEventId⟩] := by
  have hline : ∀ c ∈ lit "data: " ++ text, c ≠ 10 ∧ c ≠ 13 := by
    rw [List.forall_mem_append]
    exact ⟨by decide, htext⟩
  have hend : lit "\n\n" = [10, 10] := rfl
  rw [dataFrame, hend, List.foldl_append, foldl_text hline hr.afterReturn, hr.line,
    List.nil_append, List.foldl_cons,
    feed_newline (r := { r with line := lit "data: " ++ text }) hr.afterReturn]
  have hfield : Reader.endLine { r with line := lit "data: " ++ text } =
      { r with line := [], data := text ++ [10] } := by
    show Reader.field { r with line := [] } (lit "data") text = _
    rw [Reader.field, if_pos rfl, hr.data, List.nil_append]
  rw [hfield, List.foldl_cons, List.foldl_nil,
    feed_newline (r := { r with line := [], data := text ++ [10] }) hr.afterReturn]
  show Reader.dispatch { r with line := [], data := text ++ [10] } = _
  rw [Reader.dispatch, if_neg (by simp)]
  simp [Reader.after, hr.line, hr.type, hr.data]

/-- A frame of a comment, and a blank line after it. -/
def commentFrame (text : Str) : Str := lit ":" ++ text ++ lit "\n\n"

theorem read_comment (hr : Between r) {text : Str} (htext : ∀ c ∈ text, c ≠ 10 ∧ c ≠ 13) :
    (commentFrame text).foldl Reader.feed r = r := by
  have hline : ∀ c ∈ lit ":" ++ text, c ≠ 10 ∧ c ≠ 13 := by
    rw [List.forall_mem_append]
    exact ⟨by decide, htext⟩
  have hend : lit "\n\n" = [10, 10] := rfl
  rw [commentFrame, hend, List.foldl_append, foldl_text hline hr.afterReturn, hr.line,
    List.nil_append, List.foldl_cons,
    feed_newline (r := { r with line := lit ":" ++ text }) hr.afterReturn]
  have hcomment : Reader.endLine { r with line := lit ":" ++ text } = { r with line := [] } := rfl
  rw [hcomment, List.foldl_cons, List.foldl_nil,
    feed_newline (r := { r with line := [] }) hr.afterReturn]
  show Reader.dispatch { r with line := [] } = _
  rw [Reader.dispatch, if_pos hr.data]
  obtain ⟨line, afterReturn, data, type, lastEventId, messages⟩ := r
  obtain ⟨rfl, rfl, rfl, rfl⟩ := hr
  rfl

end Read

end EventStream
