import HookGuard.Console.Wire
import HookGuard.Core.GoTimestamp
import HookGuard.Core.JsonText

/- A verdict on the wire as CPython writes and reads it: `json.dumps` and `isoformat` at the
   Gateway's end, `json.loads` and `fromisoformat` at the Console's.

   An event of texts and integers is answered 202 and queued with the instant it had and
   its fields, but for one thing: a high surrogate before a low one is two code points of a
   text, and comes out as one (`event_delivered`). -/
namespace HookGuard
open Py Json

/-- The fields of an event after its time. -/
def VerifyEvent.fields (e : VerifyEvent) : List Value :=
  [e.path, e.provider, e.verdict, e.reason, e.upstreamStatus, e.latencyMs, e.bodyBytes,
   e.bodySha256, e.remoteIp]

/-- A text of code points, or an integer that `json` reads. -/
def Sendable : Value → Prop
  | .str s => ∀ c ∈ s, c < 0x110000
  | .int n => (natStr n.natAbs).length ≤ intMaxStrDigits
  | _ => False

instance : DecidablePred Sendable
  | .str s => inferInstanceAs (Decidable (∀ c ∈ s, c < 0x110000))
  | .int n => inferInstanceAs (Decidable ((natStr n.natAbs).length ≤ intMaxStrDigits))
  | .none | .bool _ | .float _ | .list _ | .dict _ => isFalse not_false

/-- The surrogates of a pair, one after the other in a text. -/
def Split : Value → Prop
  | .str s => ∃ a h l b, s = a ++ h :: l :: b ∧ isHigh h = true ∧ isLow l = true
  | _ => False

namespace VerifyEvent

/-- The event that is read, of a time in UTC. -/
def received (e : VerifyEvent) (timestamp : ReadDatetime) : VerifyEvent where
  timestamp
  path := paired e.path
  provider := paired e.provider
  verdict := paired e.verdict
  reason := paired e.reason
  upstreamStatus := paired e.upstreamStatus
  latencyMs := paired e.latencyMs
  bodyBytes := paired e.bodyBytes
  bodySha256 := paired e.bodySha256
  remoteIp := paired e.remoteIp

/-- The row that is made of it. -/
def sentRow (e : VerifyEvent) (instant : Datetime) : store.Event where
  receivedAt := instant.unixMs
  path := paired e.path
  provider := paired e.provider
  verdict := paired e.verdict
  reason := paired e.reason
  upstreamStatus := paired e.upstreamStatus
  latencyMs := paired e.latencyMs
  bodyBytes := paired e.bodyBytes
  bodySha256 := paired e.bodySha256
  remoteIp := paired e.remoteIp

theorem sentRow_fields (e : VerifyEvent) (instant : Datetime) :
    (e.sentRow instant).fields = e.fields.map paired := rfl

end VerifyEvent

/-- The library of the Console's end. -/
def decoding (py : json.Interpreter) (other : Str → Except Exc ReadDatetime)
    (mktime : Int → Except Exc Int) : Decoding where
  loads := json.loads py
  fromisoformat := fromisoformat other
  mktime

section Values
variable {v : Value}

theorem Sendable.readable (h : Sendable v) (d : Nat) : Readable d v := by
  cases v with
  | str s => exact .str h
  | int n => exact .int h
  | _ => exact h.elim

/-- What is sent is read as it was exactly where no pair of surrogates is split. -/
theorem Sendable.paired_eq_self_iff (h : Sendable v) : paired v = v ↔ ¬ Split v := by
  cases v with
  | str s =>
    rw [paired, Value.str.injEq]
    exact pairUp_eq_self_iff
  | int n => exact iff_of_true rfl not_false
  | _ => exact h.elim

theorem map_paired_eq_self_iff {values : List Value} (h : ∀ v ∈ values, Sendable v) :
    values.map paired = values ↔ ∀ v ∈ values, ¬ Split v := by
  have hsame : values.map paired = values.map id ↔ ∀ v ∈ values, paired v = id v :=
    List.map_inj_left
  rw [List.map_id] at hsame
  rw [hsame]
  refine forall₂_congr ?_
  intro v hv
  exact (h v hv).paired_eq_self_iff

end Values

namespace ingest

section Ends
variable {py : json.Interpreter} {other : Str → Except Exc ReadDatetime}
  {mktime : Int → Except Exc Int} {event : VerifyEvent} {instant : Datetime}

theorem wireTime_ascii (d : Datetime) : ∀ c ∈ (Fields.ofDatetime d).clock ++
    isoFraction (Fields.ofDatetime d).microsecond ++ lit "Z", c < 0x80 := by
  have hdigits : ∀ width n, ∀ c ∈ padded width n, c < 0x80 := by
    intro width n c hc
    have := padded_digits width n c hc
    simp only [isAsciiDigit, Bool.and_eq_true, decide_eq_true_eq] at this
    omega
  have hfraction : ∀ n, ∀ c ∈ isoFraction n, c < 0x80 := by
    intro n
    unfold isoFraction
    split
    · exact List.forall_mem_nil _
    · rw [List.forall_mem_cons]
      exact ⟨by decide, hdigits _ _⟩
  simp only [Fields.clock, Date.isoformat, List.forall_mem_append, List.forall_mem_cons]
  exact ⟨⟨⟨⟨hdigits _ _, by decide, hdigits _ _, by decide, hdigits _ _⟩, by decide,
    hdigits _ _, by decide, hdigits _ _, by decide, hdigits _ _⟩, hfraction _⟩, by decide⟩

theorem jsonDict_readable {ts : Str} (hts : ∀ c ∈ ts, c < 0x80)
    (h : ∀ v ∈ event.fields, Sendable v) : Readable 1 (.dict (event.jsonDict ts)) := by
  have hnames : ∀ m ∈ event.jsonDict ts, ∀ c ∈ m.1, c < 0x110000 := by
    unfold VerifyEvent.jsonDict
    simp only [List.forall_mem_cons]
    refine ⟨?_, ?_, ?_, ?_, ?_, ?_, ?_, ?_, ?_, ?_, List.forall_mem_nil _⟩
    all_goals decide
  refine .dict hnames ?_
  simp only [VerifyEvent.fields, List.forall_mem_cons] at h
  simp only [VerifyEvent.jsonDict, List.forall_mem_cons]
  obtain ⟨hpath, hprovider, hverdict, hreason, hstatus, hlatency, hbytes, hsha, hip, -⟩ := h
  exact ⟨.str fun c hc => Nat.lt_trans (hts c hc) (by decide), hpath.readable 0,
    hprovider.readable 0, hverdict.readable 0, hreason.readable 0, hstatus.readable 0,
    hlatency.readable 0, hbytes.readable 0, hsha.readable 0, hip.readable 0, List.forall_mem_nil _⟩

theorem paired_jsonDict {ts : Str} (hts : ∀ c ∈ ts, c < 0x80) (t : ReadDatetime) :
    paired (.dict (event.jsonDict ts)) = .dict ((event.received t).jsonDict ts) := by
  have htime : pairUp ts = ts := by
    refine pairUp_of_not_high fun c hc => eq_false_of_ne_true ?_
    have hascii := hts c hc
    rw [isHigh_iff]
    omega
  have hnames : ∀ s : String, (∀ c ∈ lit s, isHigh c = false) → pairUp (lit s) = lit s :=
    fun s => pairUp_of_not_high
  unfold paired VerifyEvent.jsonDict
  simp only [pairedMembers, paired, htime, VerifyEvent.received]
  repeat rw [hnames _ (by decide)]

theorem toJsonBytes_eq (fl : Floats) (h : utc event.timestamp = some instant)
    (hsend : ∀ v ∈ event.fields, Sendable v) :
    ∃ ts : Str, (∀ c ∈ ts, c < 0x80) ∧
      fromisoformat other ts = .ok (.ofUtc instant) ∧
      toJsonBytes Datetime.isoformat (dumps fl .compact) event =
        .ok ((dumps fl .compact (.dict (event.jsonDict ts))).map UInt8.ofNat) := by
  refine ⟨_, wireTime_ascii instant, ?_, ?_⟩
  · exact fromisoformat_fields other
      (readFraction_iso (Fields.ofDatetime_inRange instant).microsecond)
  · have hreadable := jsonDict_readable (wireTime_ascii instant) hsend
    have hascii : isAscii (dumps fl .compact (.dict (event.jsonDict
        ((Fields.ofDatetime instant).clock ++ isoFraction (Fields.ofDatetime instant).microsecond ++
          lit "Z")))) = true := by
      rw [isAscii, List.all_eq_true]
      intro c hc
      have hc := encode_all (P := (· < 0x80)) hreadable (fun c _ hhigh => by omega) (by decide)
        (fun _ => List.forall_mem_nil _) 0 c hc
      exact decide_eq_true hc
    unfold toJsonBytes toJsonDict
    simp only [formatTimestamp_eq h, Except.map, encodeUtf8_ascii hascii]

/-- The row of what the emitter writes of an event. -/
theorem rowOf_payload (hdepth : 0 < py.depth) (h : utc event.timestamp = some instant)
    (hsend : ∀ v ∈ event.fields, Sendable v) :
    ∃ payload, toJsonBytes Datetime.isoformat (dumps py.floats .compact) event = .ok payload ∧
      decode (decoding py other mktime) payload = .ok (event.received (.ofUtc instant)) ∧
      toRow (decoding py other mktime) (event.received (.ofUtc instant)) =
        .ok (event.sentRow instant) := by
  obtain ⟨ts, hascii, hread, hpayload⟩ := @toJsonBytes_eq other event instant py.floats h hsend
  refine ⟨_, hpayload, ?_, ?_⟩
  · have hloads := @json.loads_dumps py .compact 1 _ (jsonDict_readable hascii hsend) hdepth
    rw [paired_jsonDict hascii (.ofUtc instant)] at hloads
    unfold decode decoding
    simp only [hloads, fromJsonDict_jsonDict hread]
    rfl
  · unfold toRow timestampSeconds
    simp only [VerifyEvent.received, ReadDatetime.ofUtc, Int.sub_zero]
    rfl

end Ends

/-- **A verdict on the wire.** An event of texts and integers, at an instant of the years 1 to
    9999: what the emitter posts of it is answered 202, and queued last is a row of that
    instant with the event's fields. They are what they were exactly where no text of them
    has a high surrogate before a low one. -/
theorem event_delivered (hmac : Bytes → Bytes → Bytes) (py : json.Interpreter)
    (other : Str → Except Exc ReadDatetime) (mktime : Int → Except Exc Int) (url : Str)
    (secret : Bytes) (b : batcher.Batcher) (event : VerifyEvent) (instant : Datetime)
    (hdepth : 0 < py.depth) (hinstant : utc event.timestamp = some instant)
    (hsend : ∀ v ∈ event.fields, Sendable v) :
    ∃ request row, emitter.post hmac Datetime.isoformat (dumps py.floats .compact) url secret
        event = .ok request ∧
      handleIngest hmac (decoding py other mktime) ⟨secret, some b⟩ request.headers
          request.content =
        (.ok (plainText 202 ""), ⟨secret, some (b.enqueue row)⟩) ∧
      (b.enqueue row).queue.getLast? = some row ∧ row.receivedAt = instant.unixMs ∧
      row.fields = event.fields.map paired ∧
      (row.fields = event.fields ↔ ∀ v ∈ event.fields, ¬ Split v) := by
  obtain ⟨payload, hpayload, hdecode, hrow⟩ :=
    @rowOf_payload py other mktime event instant hdepth hinstant hsend
  refine ⟨_, event.sentRow instant, post_eq hpayload, ?_, enqueue_getLast _ _, rfl, rfl,
    map_paired_eq_self_iff hsend⟩
  unfold handleIngest
  rw [authorize_ok_iff.mpr (forwardedHeaders_signed hmac secret payload)]
  simp only [hdecode, hrow]

/-- An accepted event of the epoch. -/
def epochEvent : VerifyEvent where
  timestamp := ⟨.epoch, none, by decide⟩
  path := .str []
  provider := .str []
  verdict := .str (lit "accepted")
  reason := .str []
  upstreamStatus := .int 0
  latencyMs := .int 0
  bodyBytes := .int 0
  bodySha256 := .str []
  remoteIp := .str []

/-- An event whose path is the two halves of one character. -/
def halvesEvent : VerifyEvent := { epochEvent with path := .str [0xD83D, 0xDE00] }

/-- It is answered 202, and queued with the character for its path. -/
theorem event_delivered_halves :
    ∃ request row, emitter.post (fun _ message => message) Datetime.isoformat
        (dumps json.Interpreter.plain.floats .compact) (lit "http://c/ingest") (bytesLit "k")
        halvesEvent = .ok request ∧
      handleIngest (fun _ message => message)
          (decoding .plain (fun _ => .error .overflowError) (fun seconds => .ok seconds))
          ⟨bytesLit "k", some {}⟩ request.headers request.content =
        (.ok (plainText 202 ""), ⟨bytesLit "k", some (batcher.Batcher.enqueue {} row)⟩) ∧
      row.fields.head? = some (.str [0x1F600]) ∧ row.fields ≠ halvesEvent.fields := by
  have hsend : ∀ v ∈ halvesEvent.fields, Sendable v := by decide
  obtain ⟨request, row, hpost, hingest, -, -, hfields, hsame⟩ := event_delivered
    (fun _ message => message) .plain (fun _ => .error .overflowError) (fun seconds => .ok seconds)
    (lit "http://c/ingest") (bytesLit "k") {} halvesEvent .epoch (by decide) rfl hsend
  refine ⟨request, row, hpost, hingest, by rw [hfields]; rfl, ?_⟩
  rw [ne_eq, hsame]
  intro hwhole
  exact hwhole _ List.mem_cons_self ⟨[], _, _, [], rfl, by decide, by decide⟩

end ingest
end HookGuard
