import HookGuard.Console.LiveTail
import HookGuard.Core.JsonText
import HookGuard.Lib.EventStream
import HookGuard.Lib.Isoformat
import HookGuard.Lib.Timestamp

/- The live tail from the table to the page: what `handle_logs_stream` writes to its
   connection (`hookguard_console/routes/logs.py`), what an `EventSource` reads of it, and
   what the page makes of that (`ui/static/js/logs.js`).

   Each batch with a row to send is one frame, and any other poll is a comment. However the
   stream is cut off, what is dispatched of it are the first batches (`stream_read`). A page
   that is paused keeps the rows it gets, so that those it has shown and those it keeps are
   all it got (`View.Holds`); together: in every run of writers and polls, behind every cut,
   and with every click in between, the page has shown or keeps the first of the rows that
   were sent, each once (`stream_shown`).

   What is shown is HTML: `rowHTML` sets the fields between tags as they are, and what the
   browser makes of one that holds markup itself is left out. So what is said of the page is
   said of the texts that it hands to `insertAdjacentHTML`. -/
namespace HookGuard
open Py Json Runs

namespace tail
open store

/-! ## The stream -/

/-- A column as Python has it. -/
def pyValue : Sqlite.Value → Value
  | .null => .none
  | .integer n => .int n
  | .real x => .float x
  | .text s => .str s

/-- `strftime("%Y-%m-%d %H:%M:%S")`. -/
def displayTime (fields : Fields) : Str :=
  fields.date.isoformat ++ 32 :: (padded 2 fields.hour ++ 58 :: (padded 2 fields.minute ++
    58 :: padded 2 fields.second))

/-- `format_timestamp_ms`; `none` is the `ValueError` of a time out of the range of years. -/
def formatTimestampMs (unixMs : Int) : Option Str :=
  if unixMs = 0 then some []
  else (Datetime.fromUnixMs unixMs).map fun d => displayTime (.ofDatetime d)

section Stream
variable (fl : Floats)

/-- `asdict(_to_row(event))`, of an event whose time can be formatted. -/
def logRow (event : EventRow) : Value :=
  .dict [(lit "id", .int event.id),
    (lit "time", .str ((formatTimestampMs event.receivedAt).getD [])),
    (lit "provider", pyValue event.provider), (lit "path", pyValue event.path),
    (lit "verdict", pyValue event.verdict), (lit "reason", pyValue event.reason),
    (lit "upstream_status", pyValue event.upstreamStatus),
    (lit "latency_ms", pyValue event.latencyMs), (lit "body_bytes", pyValue event.bodyBytes),
    (lit "body_sha256", pyValue event.bodySha256), (lit "remote_ip", pyValue event.remoteIp)]

def KEEPALIVE : Str := lit ": keepalive\n\n"

/-- `json.dumps(payload)`. -/
def payloadText (payload : List EventRow) : Str :=
  dumps fl .plain (.list (payload.map logRow))

/-- Whether a time can be formatted. -/
def formats (receivedAt : Int) : Bool := (formatTimestampMs receivedAt).isSome

variable (f : EventFilter)

/-- The payload of a poll, where it is sent. -/
def payloads (σ : State) (a : Action) : List (List EventRow) :=
  match a, σ.phase with
  | .deliver, .holding _ batch =>
    let payload := batch.filter fun e => eventMatches e f
    if batch ≠ [] ∧ payload ≠ [] ∧ payload.all fun e => formats e.receivedAt
    then [payload] else []
  | _, _ => []

/-- What the generator yields with a step: a frame, a comment, or nothing. -/
def yielded (σ : State) (a : Action) : Str :=
  match a, σ.phase with
  | .deliver, .holding _ batch =>
    let payload := batch.filter fun e => eventMatches e f
    if batch = [] then KEEPALIVE
    else if !payload.all fun e => formats e.receivedAt then []
    else if payload = [] then KEEPALIVE
    else lit "data: " ++ payloadText fl payload ++ lit "\n\n"
  | _, _ => []

end Stream

/-! ## The page -/

/-- The items of an array; of any other document, `onmessage` makes nothing. -/
def itemsOf (parsed : Except Fail Value) : List Value :=
  match parsed with
  | .ok (.list events) => events
  | _ => []

section Rows
variable (other : Value → Str)

/-- What JavaScript makes of a value in a text; `other` is what it makes of a number that is
    no integer, of an array and of an object. -/
def jsText : Value → Str
  | .none => lit "null"
  | .bool b => if b then lit "true" else lit "false"
  | .int n => intStr n
  | .str s => s
  | v => other v

/-- `ev[name]`; only objects have any of the names. -/
def property (ev : Value) (name : Str) : Option Value :=
  match ev with
  | .dict members => dictItem members name
  | _ => none

def verdictCell (ev : Value) : Str :=
  match property ev (lit "verdict") with
  | some (.str verdict) =>
    if verdict = lit "accepted" then
      lit "<span style=\"color:var(--ok)\">&#10003; accepted</span>"
    else lit "<span style=\"color:var(--reject)\">&#10007; rejected</span>"
  | _ => lit "<span style=\"color:var(--reject)\">&#10007; rejected</span>"

/-- `rowHTML`; of `null` it raises the `TypeError`. -/
def rowHTML (ev : Value) : Option Str :=
  let field := fun name : String =>
    ((property ev (lit name)).map (jsText other)).getD (lit "undefined")
  match ev with
  | .none => none
  | _ => some (List.flatten
    [lit "<tr class=\"log-row\" tabindex=\"0\" data-id=\"", field "id", lit "\"",
     lit " data-time=\"", field "time", lit "\" data-provider=\"", field "provider",
     lit "\" data-path=\"", field "path", lit "\"",
     lit " data-verdict=\"", field "verdict", lit "\" data-reason=\"", field "reason", lit "\"",
     lit " data-upstream-status=\"", field "upstream_status", lit "\" data-latency-ms=\"",
     field "latency_ms", lit "\"",
     lit " data-body-bytes=\"", field "body_bytes", lit "\" data-body-sha256=\"",
     field "body_sha256", lit "\"",
     lit " data-remote-ip=\"", field "remote_ip", lit "\">",
     lit "<td>", field "time", lit "</td>",
     lit "<td><span class=\"badge badge-provider-", field "provider", lit "\">",
     field "provider", lit "</span></td>",
     lit "<td><code>", field "path", lit "</code></td>",
     lit "<td>", verdictCell ev, lit "</td>",
     lit "<td>", field "reason", lit "</td>",
     lit "<td>", field "upstream_status", lit "</td>",
     lit "<td>", field "latency_ms", lit "ms</td>",
     lit "<td>", field "body_bytes", lit "</td>",
     lit "<td><code>", field "remote_ip", lit "</code></td>",
     lit "</tr>"])

/-- `html += rowHTML(events[i])`, for each. -/
def rowsHTML : List Value → Option Str
  | [] => some []
  | ev :: events => (rowHTML other ev).bind fun html => (rowsHTML events).map (html ++ ·)

variable {other}

theorem rowsHTML_append (events more : List Value) {html html' : Str}
    (h : rowsHTML other events = some html) (h' : rowsHTML other more = some html') :
    rowsHTML other (events ++ more) = some (html ++ html') := by
  induction events generalizing html with
  | nil =>
    obtain rfl := Option.some.inj h
    exact h'
  | cons ev events ih =>
    obtain ⟨first, hfirst, hrest⟩ := Option.bind_eq_some_iff.mp h
    obtain ⟨rest, hevents, rfl⟩ := Option.map_eq_some_iff.mp hrest
    rw [List.cons_append, rowsHTML, hfirst, Option.bind_some, ih hevents, Option.map_some,
      List.append_assoc]

theorem rowsHTML_some {events : List Value} (h : ∀ ev ∈ events, ev ≠ .none) :
    ∃ html, rowsHTML other events = some html := by
  induction events with
  | nil => exact ⟨[], rfl⟩
  | cons ev events ih =>
    rw [List.forall_mem_cons] at h
    obtain ⟨rest, hrest⟩ := ih h.2
    have hfirst : ∃ html, rowHTML other ev = some html := by
      cases ev with
      | none => exact absurd rfl h.1
      | _ => exact ⟨_, rfl⟩
    obtain ⟨first, hfirst⟩ := hfirst
    exact ⟨first ++ rest, by rw [rowsHTML, hfirst, hrest]; rfl⟩

end Rows

/-- `logs.js`: its variables, and what it has made of the page. -/
structure View where
  paused : Bool := false
  pendingCount : Nat := 0
  buffered : List Value := []
  /-- What was handed to `insertAdjacentHTML`, which puts it in front; the last first. -/
  inserted : List Str := []
  tableHidden : Bool
  pauseBtn : Str := lit "Pause"
  counter : Str := []
  counterHidden : Bool := true

/-- The button, or a message of the stream. -/
inductive ViewAction where
  | click
  | message (m : EventStream.Message)

section Page
variable (other : Value → Str) (parse : Str → Except Fail Value)

namespace View

def updateCounter (v : View) : View :=
  if 0 < v.pendingCount then
    { v with counterHidden := false, counter := natStr v.pendingCount ++ lit " new" }
  else { v with counterHidden := true }

/-- `prependRows`, and whether it returns. -/
def prependRows (v : View) (events : List Value) : View × Bool :=
  match rowsHTML other events with
  | none => ({ v with tableHidden := false }, false)
  | some html => ({ v with tableHidden := false, inserted := html :: v.inserted }, true)

def onclick (v : View) : View :=
  let v :=
    { v with paused := !v.paused, pauseBtn := if v.paused then lit "Pause" else lit "Resume" }
  if v.paused then v
  else
    let r := if v.buffered.isEmpty then (v, true) else v.prependRows other v.buffered
    if r.2 then ({ r.1 with buffered := [], pendingCount := 0 } : View).updateCounter else r.1

/-- `onmessage`, of the events it has read. -/
def onmessage (v : View) (events : List Value) : View :=
  if events.isEmpty then v
  else if v.paused then
    ({ v with
      buffered := events.reverse ++ v.buffered
      pendingCount := v.pendingCount + events.length } : View).updateCounter
  else (v.prependRows other events.reverse).1

def step (v : View) : ViewAction → View
  | .click => v.onclick other
  | .message m => if m.type ≠ lit "message" then v else v.onmessage other (itemsOf (parse m.data))

end View

/-- The messages among what the page sees. -/
def ViewAction.message? : ViewAction → Option EventStream.Message
  | .click => none
  | .message m => some m

/-- The page has what it got: it has handed over the HTML of the first of it, newest in front,
    and shows the table then; and keeps the others, which it counts, and of which there are
    none unless it is paused. -/
structure View.Holds (v : View) (got : List Value) : Prop where
  rows : ∃ shown kept, got = shown ++ kept ∧ v.buffered = kept.reverse ∧
    rowsHTML other shown.reverse = some v.inserted.flatten
  counted : v.pendingCount = v.buffered.length
  live : v.paused = false → v.buffered = []
  counter : if 0 < v.pendingCount then
      v.counterHidden = false ∧ v.counter = natStr v.pendingCount ++ lit " new"
    else v.counterHidden = true
  button : v.pauseBtn = if v.paused then lit "Resume" else lit "Pause"
  table : v.inserted ≠ [] → v.tableHidden = false

variable {other parse} {v : View} {got : List Value}

theorem prependRows_eq {events shown : List Value} (hevents : ∀ ev ∈ events, ev ≠ .none)
    (hshown : rowsHTML other shown.reverse = some v.inserted.flatten) :
    ∃ html, v.prependRows other events.reverse =
        ({ v with tableHidden := false, inserted := html :: v.inserted }, true) ∧
      rowsHTML other (shown ++ events).reverse = some (html :: v.inserted).flatten := by
  obtain ⟨html, hhtml⟩ := @rowsHTML_some other events.reverse fun ev hev =>
    hevents ev (List.mem_reverse.mp hev)
  refine ⟨html, by rw [View.prependRows, hhtml], ?_⟩
  rw [List.reverse_append, List.flatten_cons]
  exact rowsHTML_append _ _ hhtml hshown

theorem holds_updateCounter (hrows : ∃ shown kept, got = shown ++ kept ∧
      v.buffered = kept.reverse ∧ rowsHTML other shown.reverse = some v.inserted.flatten)
    (hcounted : v.pendingCount = v.buffered.length) (hlive : v.paused = false → v.buffered = [])
    (hbutton : v.pauseBtn = if v.paused then lit "Resume" else lit "Pause")
    (htable : v.inserted ≠ [] → v.tableHidden = false) :
    v.updateCounter.Holds other got := by
  unfold View.updateCounter
  by_cases hpos : 0 < v.pendingCount
  · rw [if_pos hpos]
    exact ⟨hrows, hcounted, hlive, by rw [if_pos hpos]; exact ⟨rfl, rfl⟩, hbutton, htable⟩
  · rw [if_neg hpos]
    exact ⟨hrows, hcounted, hlive, by rw [if_neg hpos], hbutton, htable⟩

theorem View.Holds.onclick (h : v.Holds other got) (hgot : ∀ ev ∈ got, ev ≠ .none) :
    (v.onclick other).Holds other got := by
  obtain ⟨shown, kept, rfl, hbuffered, hshown⟩ := h.rows
  cases hpaused : v.paused with
  | false =>
    have hstep : v.onclick other = { v with paused := true, pauseBtn := lit "Resume" } := by
      simp [View.onclick, hpaused]
    rw [hstep]
    exact ⟨⟨shown, kept, rfl, hbuffered, hshown⟩, h.counted, nofun, h.counter, rfl, h.table⟩
  | true =>
    by_cases hempty : kept = []
    · subst hempty
      have hstep : v.onclick other =
          ({ v with
            paused := false
            pauseBtn := lit "Pause"
            buffered := []
            pendingCount := 0 } : View).updateCounter := by
        simp [View.onclick, hpaused, hbuffered]
      rw [hstep]
      exact holds_updateCounter ⟨shown, [], rfl, rfl, hshown⟩ rfl (fun _ => rfl) rfl h.table
    · -- what was kept is handed over
      obtain ⟨html, hprepend, hall⟩ := @prependRows_eq other
        { v with paused := false, pauseBtn := lit "Pause", buffered := kept.reverse } kept shown
        (fun ev hev => hgot ev (List.mem_append_right _ hev)) hshown
      have hstep : v.onclick other =
          ({ v with
            paused := false
            pauseBtn := lit "Pause"
            tableHidden := false
            inserted := html :: v.inserted
            buffered := []
            pendingCount := 0 } : View).updateCounter := by
        simp only [View.onclick, hpaused, hbuffered, Bool.not_true, Bool.false_eq_true, if_true,
          if_false, List.isEmpty_reverse, List.isEmpty_iff, hempty, hprepend]
      rw [hstep]
      refine holds_updateCounter ⟨shown ++ kept, [], (List.append_nil _).symm, rfl, hall⟩ rfl
        (fun _ => rfl) rfl fun _ => rfl

theorem View.Holds.onmessage (h : v.Holds other got) {events : List Value}
    (hevents : ∀ ev ∈ events, ev ≠ .none) :
    (v.onmessage other events).Holds other (got ++ events) := by
  obtain ⟨shown, kept, rfl, hbuffered, hshown⟩ := h.rows
  unfold View.onmessage
  by_cases hempty : events = []
  · subst hempty
    rw [List.isEmpty_nil, if_pos rfl, List.append_nil]
    exact h
  · rw [if_neg (by simpa using hempty)]
    rcases Bool.eq_false_or_eq_true v.paused with hpaused | hpaused
    · rw [if_pos hpaused]
      refine holds_updateCounter ⟨shown, kept ++ events, by simp, ?_, hshown⟩ ?_ ?_ h.button
        h.table
      · simp [hbuffered]
      · simp only [h.counted, List.length_append, List.length_reverse]
        omega
      · intro hlive
        exact absurd (hpaused.symm.trans hlive) (by decide)
    · rw [if_neg (by simp [hpaused])]
      have hnone := h.live hpaused
      obtain rfl : kept = [] := List.reverse_eq_nil_iff.mp (hbuffered.symm.trans hnone)
      obtain ⟨html, hprepend, hall⟩ := prependRows_eq hevents hshown
      rw [hprepend, List.append_nil]
      exact ⟨⟨shown ++ events, [], (List.append_nil _).symm, hnone, hall⟩, h.counted,
        fun _ => hnone, h.counter, h.button, fun _ => rfl⟩

/-- However the button is clicked in between, the page has the items of its messages. -/
theorem View.Holds.run (h : v.Holds other got) (hgot : ∀ ev ∈ got, ev ≠ .none)
    {actions : List ViewAction}
    (hactions : ∀ m ∈ actions.filterMap ViewAction.message?, m.type = lit "message" ∧
      ∀ ev ∈ itemsOf (parse m.data), ev ≠ .none) :
    (actions.foldl (View.step other parse) v).Holds other
      (got ++ (actions.filterMap ViewAction.message?).flatMap fun m => itemsOf (parse m.data)) := by
  induction actions generalizing v got with
  | nil => simpa using h
  | cons a actions ih =>
    rw [List.foldl_cons]
    cases a with
    | click =>
      rw [List.filterMap_cons_none rfl] at hactions ⊢
      exact ih (h.onclick hgot) hgot hactions
    | message m =>
      have hfirst : (ViewAction.message m).message? = some m := rfl
      rw [List.filterMap_cons_some hfirst] at hactions ⊢
      rw [List.forall_mem_cons] at hactions
      obtain ⟨⟨htype, hitems⟩, hrest⟩ := hactions
      have hstep : v.step other parse (.message m) =
          v.onmessage other (itemsOf (parse m.data)) := if_neg (not_not_intro htype)
      rw [hstep, List.flatMap_cons, ← List.append_assoc]
      exact ih (h.onmessage hitems) (List.forall_mem_append.mpr ⟨hgot, hitems⟩) hrest

end Page

/-! ## What is sent is read -/

/-- A column that every reader of JSON reads alike: a text, or an integer that a double
    is exact at. -/
def PlainValue : Sqlite.Value → Prop
  | .null => True
  | .integer n => n.natAbs ≤ 2 ^ 53
  | .real _ => False
  | .text s => s.all isScalar = true

instance : DecidablePred PlainValue
  | .null => inferInstanceAs (Decidable True)
  | .integer n => inferInstanceAs (Decidable (n.natAbs ≤ 2 ^ 53))
  | .real _ => inferInstanceAs (Decidable False)
  | .text s => inferInstanceAs (Decidable (s.all isScalar = true))

/-- A row of such columns. -/
structure PlainRow (r : EventRow) : Prop where
  id : r.id ≤ 2 ^ 53
  columns : ∀ c ∈ r.columns, PlainValue c.2

instance : DecidablePred PlainRow := fun r =>
  decidable_of_iff (r.id ≤ 2 ^ 53 ∧ ∀ c ∈ r.columns, PlainValue c.2)
    ⟨fun h => ⟨h.1, h.2⟩, fun h => ⟨h.id, h.columns⟩⟩

section Rows
variable {fl : Floats}

theorem exact_readable {n : Int} (h : n.natAbs ≤ 2 ^ 53) (d : Nat) : Readable d (.int n) := by
  refine .int (Nat.le_trans (natStr_length_le (k := 16) (by decide) ?_) (by decide))
  exact Nat.lt_of_le_of_lt h (by decide)

theorem plainValue_readable {v : Sqlite.Value} (h : PlainValue v) (d : Nat) :
    Readable d (pyValue v) ∧ paired (pyValue v) = pyValue v := by
  cases v with
  | null => exact ⟨.none, rfl⟩
  | integer n => exact ⟨exact_readable h d, rfl⟩
  | real x => exact h.elim
  | text s => exact scalar_readable h d

theorem formatTimestampMs_ascii (unixMs : Int) :
    ∀ c ∈ (formatTimestampMs unixMs).getD [], c < 0x80 := by
  have hpadded : ∀ width n, ∀ c ∈ padded width n, c < 0x80 := by
    intro width n c hc
    have hdigit := padded_digits width n c hc
    simp only [isAsciiDigit, Bool.and_eq_true, decide_eq_true_eq] at hdigit
    omega
  unfold formatTimestampMs
  split
  · exact List.forall_mem_nil _
  · cases Datetime.fromUnixMs unixMs with
    | none => exact List.forall_mem_nil _
    | some d =>
      simp only [Option.map_some, Option.getD_some, displayTime, Date.isoformat,
        List.forall_mem_append, List.forall_mem_cons]
      exact ⟨⟨hpadded _ _, by decide, hpadded _ _, by decide, hpadded _ _⟩, by decide,
        hpadded _ _, by decide, hpadded _ _, by decide, hpadded _ _⟩

theorem logRow_readable {r : EventRow} (h : PlainRow r) :
    Readable 1 (logRow r) ∧
      paired (logRow r) = logRow r := by
  have htime := formatTimestampMs_ascii r.receivedAt
  have htimeReadable : Readable 0 (.str ((formatTimestampMs r.receivedAt).getD [])) :=
    .str fun c hc => Nat.lt_trans (htime c hc) (by decide)
  have htimeSame : pairUp ((formatTimestampMs r.receivedAt).getD []) =
      (formatTimestampMs r.receivedAt).getD [] := by
    refine pairUp_of_not_high fun c hc => eq_false_of_ne_true ?_
    have hascii := htime c hc
    rw [isHigh_iff]
    omega
  have hid := @exact_readable r.id h.id 0
  have hcolumns := h.columns
  simp only [EventRow.columns, List.forall_mem_cons] at hcolumns
  obtain ⟨hpath, hprovider, hverdict, hreason, hstatus, hlatency, hbytes, hsha, hip, -⟩ := hcolumns
  have hname : ∀ s : String, (∀ c ∈ lit s, c < 0x110000) → (∀ c ∈ lit s, isHigh c = false) →
      (∀ c ∈ lit s, c < 0x110000) ∧ pairUp (lit s) = lit s :=
    fun s hpoints hlow => ⟨hpoints, pairUp_of_not_high hlow⟩
  unfold logRow
  refine ⟨.dict ?_ ?_, ?_⟩
  · simp only [List.forall_mem_cons]
    refine ⟨?_, ?_, ?_, ?_, ?_, ?_, ?_, ?_, ?_, ?_, ?_, List.forall_mem_nil _⟩
    all_goals exact (hname _ (by decide) (by decide)).1
  · simp only [List.forall_mem_cons]
    exact ⟨hid, htimeReadable, (plainValue_readable hprovider 0).1, (plainValue_readable hpath 0).1,
      (plainValue_readable hverdict 0).1, (plainValue_readable hreason 0).1,
      (plainValue_readable hstatus 0).1, (plainValue_readable hlatency 0).1,
      (plainValue_readable hbytes 0).1, (plainValue_readable hsha 0).1,
      (plainValue_readable hip 0).1, List.forall_mem_nil _⟩
  · simp only [paired, pairedMembers, htimeSame, (plainValue_readable hprovider 0).2,
      (plainValue_readable hpath 0).2, (plainValue_readable hverdict 0).2,
      (plainValue_readable hreason 0).2, (plainValue_readable hstatus 0).2,
      (plainValue_readable hlatency 0).2, (plainValue_readable hbytes 0).2,
      (plainValue_readable hsha 0).2, (plainValue_readable hip 0).2]
    repeat rw [(hname _ (by decide) (by decide)).2]

/-- A payload is read as its rows, and its text is one line. -/
theorem payload_read {payload : List EventRow}
    (h : ∀ r ∈ payload, PlainRow r) {depth : Nat} (hdepth : 2 ≤ depth) :
    itemsOf (scan fl depth (payloadText fl payload)) =
        payload.map logRow ∧
      ∀ c ∈ payloadText fl payload, c ≠ 10 ∧ c ≠ 13 := by
  have hrows : ∀ v ∈ payload.map logRow, Readable 1 v ∧ paired v = v := by
    intro v hv
    obtain ⟨r, hr, rfl⟩ := List.mem_map.mp hv
    exact logRow_readable (h r hr)
  have hitems : ∀ items : List Value, (∀ v ∈ items, Readable 1 v ∧ paired v = v) →
      pairedItems items = items := by
    intro items h
    induction items with
    | nil => rfl
    | cons v items ih =>
      rw [List.forall_mem_cons] at h
      rw [pairedItems, h.1.2, ih h.2]
  have hreadable : Readable 2 (.list (payload.map logRow)) :=
    .list fun v hv => (hrows v hv).1
  refine ⟨?_, ?_⟩
  · have hscan := @scan_dumps fl .plain depth _ (hreadable.mono hdepth) [] nofun
    rw [List.append_nil, paired, hitems _ hrows] at hscan
    rw [payloadText, hscan]
    rfl
  · intro c hc
    refine encode_all (P := fun c => c ≠ 10 ∧ c ≠ 13) hreadable ?_ (by decide) ?_ 0 c hc
    · intro c hlow hhigh
      omega
    · exact fun level => nofun

end Rows

section Read
variable {eng : Engine} {fl : Floats} {f : EventFilter}

/-- The message of a payload. -/
def messageOf (fl : Floats) (payload : List EventRow) : EventStream.Message :=
  ⟨lit "message", payloadText fl payload, []⟩

theorem step_sent (σ : State) (a : Action) :
    (step eng formats f σ a).sent =
      σ.sent ++ (payloads f σ a).flatten := by
  cases a with
  | deliver =>
    cases hphase : σ.phase with
    | holding cursor batch =>
      simp only [step, hphase, State.deliver, payloads]
      cases hlast : batch.getLast? with
      | none => simp [List.getLast?_eq_none_iff.mp hlast]
      | some last =>
        have hne : batch ≠ [] := by
          rintro rfl
          cases hlast
        by_cases hall : (batch.filter fun e => eventMatches e f).all
            (fun e => formats e.receivedAt) = true
        · by_cases hempty : (batch.filter fun e => eventMatches e f) = []
          · simp [hempty]
          · simp [hne, hempty, hall]
        · simp [hall]
    | _ => simp [step, payloads, hphase]
  | insert busy events => simp [step, payloads]
  | sweep busy cutoffMs => simp [step, payloads]
  | connect => simp only [step, payloads]; split <;> simp
  | query => simp only [step, payloads]; split <;> simp
  | leave => simp [step, payloads]

theorem yielded_read {σ : State} {a : Action}
    (hplain : ∀ payload ∈ payloads f σ a, ∀ r ∈ payload, PlainRow r)
    {r : EventStream.Reader} (hr : EventStream.Between r) (hid : r.lastEventId = []) :
    (yielded fl f σ a).foldl EventStream.Reader.feed r =
      r.after ((payloads f σ a).map (messageOf fl)) := by
  have hkeep : KEEPALIVE.foldl EventStream.Reader.feed r = r :=
    @EventStream.read_comment r hr (lit " keepalive") (by decide)
  have hsame : r = r.after (([] : List (List EventRow)).map (messageOf fl)) :=
    (EventStream.after_nil r).symm
  cases a with
  | deliver =>
    cases hphase : σ.phase with
    | holding cursor batch =>
      simp only [yielded, payloads, hphase] at hplain ⊢
      by_cases hbatch : batch = []
      · rw [if_pos hbatch, if_neg fun h => h.1 hbatch, hkeep]
        exact hsame
      · by_cases hall : (batch.filter fun e => eventMatches e f).all
            (fun e => formats e.receivedAt) = true
        · by_cases hempty : (batch.filter fun e => eventMatches e f) = []
          · rw [if_neg hbatch, if_neg (by simp [hall]), if_pos hempty,
              if_neg fun h => h.2.1 hempty, hkeep]
            exact hsame
          · rw [if_pos ⟨hbatch, hempty, hall⟩, List.forall_mem_singleton] at hplain
            obtain ⟨-, hline⟩ := @payload_read fl _ hplain 2 (Nat.le_refl 2)
            rw [if_neg hbatch, if_neg (by simp [hall]), if_neg hempty,
              if_pos ⟨hbatch, hempty, hall⟩]
            have hread := EventStream.read_data hr hline
            rw [hid] at hread
            exact hread
        · rw [if_neg hbatch, if_pos (by simp [hall]), if_neg fun h => hall h.2.2]
          exact hsame
    | _ =>
      simp only [yielded, payloads, hphase]
      exact hsame
  | _ => exact hsame

theorem foldl_sent (σ : State) (actions : List Action) :
    (actions.foldl (step eng formats f) σ).sent = σ.sent ++
      (collect (step eng formats f) (payloads f) σ
        actions).flatten := by
  induction actions generalizing σ with
  | nil => simp [collect]
  | cons a actions ih =>
    rw [List.foldl_cons, ih, step_sent, collect, List.flatten_append, List.append_assoc]

theorem collect_read {σ : State} {actions : List Action}
    (hplain : ∀ payload ∈ collect (step eng formats f)
      (payloads f) σ actions, ∀ r ∈ payload, PlainRow r)
    {r : EventStream.Reader} (hr : EventStream.Between r) (hid : r.lastEventId = []) :
    (collect (step eng formats f) (yielded fl f) σ
      actions).foldl EventStream.Reader.feed r =
      r.after ((collect (step eng formats f) (payloads f) σ
        actions).map (messageOf fl)) := by
  induction actions generalizing σ r with
  | nil => exact (EventStream.after_nil r).symm
  | cons a actions ih =>
    rw [collect, List.forall_mem_append] at hplain
    have hfirst := @yielded_read fl f σ a hplain.1 r hr hid
    rw [collect, List.foldl_append, hfirst, ih hplain.2 (hr.after _) hid, collect,
      List.map_append, EventStream.after_append]

theorem yielded_unmarked (fl : Floats) (f : EventFilter) (σ : State) (a : Action) :
    (yielded fl f σ a).head? ≠ some 0xFEFF := by
  have hkeep : KEEPALIVE.head? ≠ some 0xFEFF := by decide
  unfold yielded
  dsimp only
  repeat' split
  all_goals first
    | exact hkeep
    | exact nofun

theorem collect_unmarked (σ : State) (actions : List Action) :
    (collect (step eng formats f) (yielded fl f) σ
      actions).head? ≠ some 0xFEFF := by
  induction actions generalizing σ with
  | nil => exact nofun
  | cons a actions ih =>
    have hfirst := yielded_unmarked fl f σ a
    rw [collect, List.head?_append]
    cases hhead : (yielded fl f σ a).head? with
    | none => exact ih _
    | some c =>
      rw [hhead] at hfirst
      exact hfirst

/-- What is read of the first part of what a run yields are the first payloads of the run,
    one message each. -/
theorem stream_read {actions : List Action}
    (hplain : ∀ payload ∈ collect (step eng formats f)
      (payloads f) {} actions, ∀ r ∈ payload, PlainRow r)
    {received : Str} (hreceived : received <+:
      collect (step eng formats f) (yielded fl f) {} actions) :
    (EventStream.read received).messages <+: (collect (step eng formats f)
      (payloads f) {} actions).map (messageOf fl) := by
  have hall := @collect_read eng fl f {} actions hplain {} ⟨rfl, rfl, rfl, rfl⟩ rfl
  have hread := EventStream.messages_initial hreceived
  rw [EventStream.read_unmarked (collect_unmarked {} actions), hall] at hread
  simpa [EventStream.Reader.after] using hread

end Read

/-- The row of one event. -/
def oneEvent : List Action :=
  [.connect, .insert (fun _ => none) [.ofVerdict (lit "accepted")], .query, .deliver]

/-- What the stream yields with it. -/
def oneFrame : Str :=
  collect (step .plain formats {})
    (yielded json.Interpreter.plain.floats {}) {} oneEvent

end tail
end HookGuard
