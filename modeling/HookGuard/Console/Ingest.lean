import HookGuard.Console.Batcher
import HookGuard.Core.Events
import HookGuard.Core.GatewaySig
import HookGuard.Core.Http

/- The ingest route (`hookguard_console/ingest.py`, `routes/api.py`): the claimed
   identity, the signature, the document, and then the queue.

   `authorize_ok_iff` says which requests pass the first two, for whatever secret;
   every other request is answered 401 and leaves the Console as it was. Nothing
   in this looks at the secret being empty: with none set, the requests refused
   are those not signed under the empty key (`unset_secret_refuses_iff`). A request that
   passes is answered as long as reading the document, and the time of its row, raise
   nothing else than what the route catches (`handleIngest_answered_iff`). -/
namespace HookGuard
open Py

/-- What the route takes from the standard library. -/
structure Decoding where
  /-- `json.loads(body)`. -/
  loads : Bytes → Except Exc Value
  fromisoformat : Str → Except Exc ReadDatetime
  mktime : Int → Except Exc Int

/-- `deps.Console`, as far as the route reads it. -/
structure Console where
  internalSecret : Bytes := []
  batcher : Option batcher.Batcher := none

namespace ingest

section Route
variable (hmac : Bytes → Bytes → Bytes) (dec : Decoding)

/-- `check_provider_header`. -/
def checkProviderHeader (got : Str) : Except Exc Unit :=
  if got ≠ INGEST_PROVIDER_LABEL then .error (.ingestError (msg "unexpected provider header"))
  else .ok ()

/-- `verify`. -/
def verify (secret body : Bytes) (signature : Str) : Except Exc Unit :=
  match gatewaysig.verify hmac secret INGEST_PROVIDER_LABEL body signature with
  | .error (.gatewaySignatureError m) => .error (.ingestError m)
  | r => r

/-- `decode`: what `from_json_dict` raises is caught more widely than what `loads` does. -/
def decode (body : Bytes) : Except Exc VerifyEvent :=
  match dec.loads body with
  | .error (.jsonDecodeError m) | .error (.unicodeDecodeError m) =>
    .error (.ingestError (.text (lit "malformed event JSON: ") :: m))
  | .error e => .error e
  | .ok (.dict data) =>
    match fromJsonDict dec.fromisoformat data with
    | .ok event => .ok event
    | .error (.keyError m) | .error (.typeError m) =>
      .error (.ingestError (.text (lit "malformed event: ") :: m))
    | .error e =>
      if e.isValueError then .error (.ingestError (.text (lit "malformed event: ") :: e.text))
      else .error e
  | .ok _ => .error (.ingestError (msg "event must be a JSON object"))

/-- `to_row`. -/
def toRow (event : VerifyEvent) : Except Exc store.Event :=
  match timestampSeconds dec.mktime event.timestamp with
  | .error e => .error e
  | .ok seconds => .ok
    { receivedAt := truncate (nearestDouble (seconds * 1000))
      path := event.path
      provider := event.provider
      verdict := event.verdict
      reason := event.reason
      upstreamStatus := event.upstreamStatus
      latencyMs := event.latencyMs
      bodyBytes := event.bodyBytes
      bodySha256 := event.bodySha256
      remoteIp := event.remoteIp }

/-- The checks before the body is decoded. -/
def authorize (secret : Bytes) (headers : Headers) (body : Bytes) : Except Exc Unit :=
  match checkProviderHeader ((headers.get gatewaysig.PROVIDER_HEADER).getD []) with
  | .error e => .error e
  | .ok () => verify hmac secret body ((headers.get gatewaysig.HEADER).getD [])

/-- `handle_ingest`: the answer, or what it raises, and the Console after it. -/
def handleIngest (console : Console) (headers : Headers) (body : Bytes) :
    Except Exc Response × Console :=
  match authorize hmac console.internalSecret headers body with
  | .error (.ingestError _) => (.ok (plainText 401 "unauthorized"), console)
  | .error e => (.error e, console)
  | .ok () =>
    match decode dec body with
    | .error (.ingestError _) => (.ok (plainText 400 "malformed event"), console)
    | .error e => (.error e, console)
    | .ok event =>
      match console.batcher with
      | none => (.ok (plainText 202 ""), console)
      | some b =>
        match toRow dec event with
        | .error e => (.error e, console)
        | .ok row => (.ok (plainText 202 ""), { console with batcher := some (b.enqueue row) })

/-- A request of the event feed, signed under a key. -/
def SignedUnder (secret : Bytes) (headers : Headers) (body : Bytes) : Prop :=
  (headers.get gatewaysig.PROVIDER_HEADER).getD [] = INGEST_PROVIDER_LABEL ∧
    decodeHex ((headers.get gatewaysig.HEADER).getD []) =
      .ok (hmac secret (gatewaysig.preimage (bytesLit "console-ingest") body))

instance (secret : Bytes) (headers : Headers) (body : Bytes) :
    Decidable (SignedUnder hmac secret headers body) := inferInstanceAs (Decidable (_ ∧ _))

/-- The row a body stands for, where it is a well-formed event. -/
def rowOf (body : Bytes) : Option store.Event :=
  match decode dec body with
  | .error _ => none
  | .ok event => (toRow dec event).toOption

end Route

/-! ## Who passes -/

section Authorize
variable {hmac : Bytes → Bytes → Bytes} {dec : Decoding} {secret : Bytes} {headers : Headers}
  {body : Bytes}

theorem encodeUtf8_label :
    encodeUtf8 INGEST_PROVIDER_LABEL = some (bytesLit "console-ingest") := by decide

theorem verify_ok_iff {signature : Str} :
    verify hmac secret body signature = .ok () ↔
      decodeHex signature =
        .ok (hmac secret (gatewaysig.preimage (bytesLit "console-ingest") body)) := by
  have hsig : gatewaysig.verify hmac secret INGEST_PROVIDER_LABEL body signature = .ok () ↔
      ∃ p, encodeUtf8 INGEST_PROVIDER_LABEL = some p ∧
        decodeHex signature = .ok (hmac secret (gatewaysig.preimage p body)) :=
    gatewaysig.verify_ok_iff
  rw [encodeUtf8_label] at hsig
  simp only [Option.some.injEq, exists_eq_left'] at hsig
  rw [← hsig]
  unfold verify
  cases hv : gatewaysig.verify hmac secret INGEST_PROVIDER_LABEL body signature with
  | ok u => simp
  | error e =>
    obtain ⟨m, rfl⟩ := gatewaysig.verify_error encodeUtf8_label hv
    simp

theorem verify_error {signature : Str} {e : Exc}
    (h : verify hmac secret body signature = .error e) : ∃ m, e = .ingestError m := by
  unfold verify at h
  cases hv : gatewaysig.verify hmac secret INGEST_PROVIDER_LABEL body signature with
  | ok u => simp [hv] at h
  | error e' =>
    obtain ⟨m, rfl⟩ := gatewaysig.verify_error encodeUtf8_label hv
    simp only [hv, Except.error.injEq] at h
    exact ⟨m, h.symm⟩

/-- A request passes the checks exactly when it is the feed's, signed under the secret. -/
theorem authorize_ok_iff :
    authorize hmac secret headers body = .ok () ↔ SignedUnder hmac secret headers body := by
  unfold authorize checkProviderHeader SignedUnder
  by_cases hp : (headers.get gatewaysig.PROVIDER_HEADER).getD [] = INGEST_PROVIDER_LABEL
  · simp only [hp, ne_eq, not_true_eq_false, if_false, true_and]
    exact verify_ok_iff
  · simp [hp]

theorem authorize_error {e : Exc} (h : authorize hmac secret headers body = .error e) :
    ∃ m, e = .ingestError m := by
  unfold authorize checkProviderHeader at h
  by_cases hp : (headers.get gatewaysig.PROVIDER_HEADER).getD [] = INGEST_PROVIDER_LABEL
  · simp only [hp, ne_eq, not_true_eq_false, if_false] at h
    exact verify_error h
  · simp only [ne_eq, hp, not_false_eq_true, if_true, Except.error.injEq] at h
    exact ⟨_, h.symm⟩

end Authorize

/-! ## What the route does -/

section Handle
variable {hmac : Bytes → Bytes → Bytes} {dec : Decoding} {console : Console} {headers : Headers}
  {body : Bytes}

theorem handleIngest_unsigned (h : ¬ SignedUnder hmac console.internalSecret headers body) :
    handleIngest hmac dec console headers body =
      (.ok (plainText 401 "unauthorized"), console) := by
  unfold handleIngest
  cases ha : authorize hmac console.internalSecret headers body with
  | ok u => exact absurd (authorize_ok_iff.mp ha) h
  | error e =>
    obtain ⟨m, rfl⟩ := authorize_error ha
    rfl

/-- A signed request is answered 202 and its row queued, or it leaves the Console as it
    was: answered 400, or the handler raises. -/
theorem handleIngest_signed {secret : Bytes} (dec : Decoding) (b : batcher.Batcher)
    (h : SignedUnder hmac secret headers body) :
    (∃ row, rowOf dec body = some row ∧ handleIngest hmac dec ⟨secret, some b⟩ headers body =
      (.ok (plainText 202 ""), ⟨secret, some (b.enqueue row)⟩)) ∨
    (rowOf dec body = none ∧ ∃ answer,
      handleIngest hmac dec ⟨secret, some b⟩ headers body = (answer, ⟨secret, some b⟩) ∧
      (answer = .ok (plainText 400 "malformed event") ∨ ∃ e, answer = .error e)) := by
  unfold handleIngest rowOf
  rw [authorize_ok_iff.mpr h]
  cases hd : decode dec body with
  | error e =>
    right
    cases e <;> simp
  | ok event =>
    cases hr : toRow dec event with
    | error e => exact .inr ⟨by simp only [hr]; rfl, .error e, by simp only [hr], .inr ⟨e, rfl⟩⟩
    | ok row => exact .inl ⟨row, by simp only [hr]; rfl, by simp only [hr]⟩

theorem handleIngest_signed_status (h : SignedUnder hmac console.internalSecret headers body)
    {r : Response} (hr : (handleIngest hmac dec console headers body).1 = .ok r) :
    r.statusCode ≠ 401 := by
  unfold handleIngest at hr
  rw [authorize_ok_iff.mpr h] at hr
  split at hr
  · next heq => cases heq
  · next heq => cases heq
  · split at hr
    · obtain rfl := Except.ok.inj hr
      decide
    · cases hr
    · split at hr
      · obtain rfl := Except.ok.inj hr
        decide
      · split at hr
        · cases hr
        · obtain rfl := Except.ok.inj hr
          decide

end Handle

/-- With no secret set, the requests that are answered 401 and queue nothing are those
    that are not signed under the empty key, which anyone can do. -/
theorem unset_secret_refuses_iff (hmac : Bytes → Bytes → Bytes) (dec : Decoding)
    (batcher : Option batcher.Batcher) (headers : Headers) (body : Bytes) :
    (∃ r, handleIngest hmac dec { batcher } headers body = (.ok r, { batcher }) ∧
        r.statusCode = 401) ↔
      ¬ SignedUnder hmac [] headers body := by
  refine ⟨?_, ?_⟩
  · intro h hsigned
    obtain ⟨r, hr, hstatus⟩ := h
    have hanswer : (handleIngest hmac dec { batcher } headers body).1 = .ok r := by rw [hr]
    exact handleIngest_signed_status hsigned hanswer hstatus
  · intro hunsigned
    exact ⟨_, handleIngest_unsigned hunsigned, rfl⟩

/-- `{"ts":"1970-01-01T00:00:00Z","verdict":"accepted"}`. -/
def verdictBody : Bytes :=
  bytesLit "\x7b\"ts\":\"1970-01-01T00:00:00Z\",\"verdict\":\"accepted\"\x7d"

/-- `{"ts":"1970-01-01T00:00:00Z"}`, an event with no verdict. -/
def bareBody : Bytes := bytesLit "\x7b\"ts\":\"1970-01-01T00:00:00Z\"\x7d"

/-- The two bodies decoded. -/
def epochDecoding : Decoding where
  loads body := .ok (.dict ((lit "ts", .str (lit "1970-01-01T00:00:00Z")) ::
    if body = verdictBody then [(lit "verdict", .str (lit "accepted"))] else []))
  fromisoformat _ := .ok ⟨.epoch, some 0, by decide⟩
  mktime seconds := .ok seconds

def feedHeaders (signature : String) : Headers :=
  [(bytesLit "x-hookguard-provider", bytesLit "console-ingest"),
   (bytesLit "x-hookguard-signature", bytesLit signature)]

/-- HMAC-SHA256 at the empty key and the preimage of the first body. -/
def emptyKeyMac : Bytes :=
  [86, 26, 50, 65, 205, 43, 191, 91, 168, 17, 53, 67, 9, 135, 210, 154, 153, 176, 27, 99, 234,
   216, 39, 30, 89, 93, 73, 244, 222, 154, 147, 241]

/-- With no secret set, an event signed under the empty key is answered 202, and queued. -/
theorem unset_secret_accepts :
    let r := handleIngest (fun _ _ => emptyKeyMac) epochDecoding { batcher := some {} }
      (feedHeaders "561a3241cd2bbf5ba81135430987d29a99b01b63ead8271e595d49f4de9a93f1") verdictBody
    r.1 = .ok (plainText 202 "") ∧ r.2.batcher.map (·.queue.length) = some 1 :=
  ⟨rfl, rfl⟩

/-! ## What the route raises -/

/-- The library raises as it is documented to: `fromisoformat` a `ValueError`, and `loads`
    nothing of the program's own. -/
structure Documented (dec : Decoding) : Prop where
  fromisoformat : ∀ s e, dec.fromisoformat s = .error e → e.isValueError = true
  loads : ∀ body m, dec.loads body ≠ .error (.ingestError m)

/-- The route answers 202, or it answers 401 or 400 and leaves the Console as it was. -/
def Answered (console : Console) (r : Except Exc Response × Console) : Prop :=
  ∃ response, r.1 = .ok response ∧ (response.statusCode = 202 ∨
    (response.statusCode = 401 ∨ response.statusCode = 400) ∧ r.2 = console)

/-- The errors of `loads` that are caught. -/
def isDecodeError : Exc → Bool
  | .jsonDecodeError _ | .unicodeDecodeError _ => true
  | _ => false

/-- The time of an event's body. -/
def eventTime (dec : Decoding) (body : Bytes) : Option ReadDatetime :=
  match dec.loads body with
  | .ok (.dict data) =>
    match dictItem data (lit "ts") with
    | some (.str s) => (dec.fromisoformat s).toOption
    | _ => none
  | _ => none

section Raises
variable {hmac : Bytes → Bytes → Bytes} {dec : Decoding} {console : Console} {headers : Headers}
  {body : Bytes}

theorem decode_loads_error {e : Exc} (h : dec.loads body = .error e) :
    (isDecodeError e = true → ∃ m, decode dec body = .error (.ingestError m)) ∧
      (isDecodeError e = false → decode dec body = .error e) := by
  unfold decode
  rw [h]
  cases e with
  | jsonDecodeError m => exact ⟨fun _ => ⟨_, rfl⟩, nofun⟩
  | unicodeDecodeError m => exact ⟨fun _ => ⟨_, rfl⟩, nofun⟩
  | _ => exact ⟨nofun, fun _ => rfl⟩

theorem decode_loaded (hdec : Documented dec) {value : Value} (h : dec.loads body = .ok value) :
    (eventTime dec body = none ∧ ∃ m, decode dec body = .error (.ingestError m)) ∨
      ∃ event, eventTime dec body = some event.timestamp ∧ decode dec body = .ok event := by
  unfold eventTime decode
  rw [h]
  cases value with
  | dict data =>
    simp only [fromJsonDict]
    cases hts : dictItem data (lit "ts") with
    | none => exact .inl ⟨rfl, _, rfl⟩
    | some ts =>
      cases ts with
      | str s =>
        simp only [parseTimestamp]
        cases hiso : dec.fromisoformat s with
        | ok t => exact .inr ⟨_, rfl, rfl⟩
        | error e =>
          -- every `ValueError` is caught
          have hvalue := hdec.fromisoformat s e hiso
          cases e <;> first | exact .inl ⟨rfl, _, rfl⟩ | cases hvalue
      | _ => exact .inl ⟨rfl, _, rfl⟩
  | _ => exact .inl ⟨rfl, _, rfl⟩

theorem timestampSeconds_ok_iff {mktime : Int → Except Exc Int} {t : ReadDatetime} :
    (∃ seconds, timestampSeconds mktime t = .ok seconds) ↔
      (t.offset = none → ∃ seconds, mktime (t.reading.us / 10 ^ 6) = .ok seconds) := by
  unfold timestampSeconds
  cases t.offset with
  | some offset => simp
  | none => cases mktime (t.reading.us / 10 ^ 6) <;> simp

theorem answered_refused {m : Msg} (hsigned : SignedUnder hmac console.internalSecret headers body)
    (h : decode dec body = .error (.ingestError m)) :
    Answered console (handleIngest hmac dec console headers body) := by
  unfold handleIngest
  rw [authorize_ok_iff.mpr hsigned, h]
  exact ⟨plainText 400 "malformed event", rfl, .inr ⟨.inr rfl, rfl⟩⟩

theorem not_answered_raised {e : Exc}
    (hsigned : SignedUnder hmac console.internalSecret headers body)
    (h : decode dec body = .error e) (he : ∀ m, e ≠ .ingestError m) :
    ¬ Answered console (handleIngest hmac dec console headers body) := by
  rintro ⟨response, hresponse, -⟩
  unfold handleIngest at hresponse
  rw [authorize_ok_iff.mpr hsigned, h] at hresponse
  cases e with
  | ingestError m => exact he m rfl
  | _ => cases hresponse

/-- An event is answered 202 where its row is made, if there is a queue for it. -/
theorem answered_event_iff {event : VerifyEvent}
    (hsigned : SignedUnder hmac console.internalSecret headers body)
    (h : decode dec body = .ok event) :
    Answered console (handleIngest hmac dec console headers body) ↔
      (console.batcher.isSome = true →
        ∃ seconds, timestampSeconds dec.mktime event.timestamp = .ok seconds) := by
  unfold handleIngest
  rw [authorize_ok_iff.mpr hsigned, h]
  cases hbatcher : console.batcher with
  | none => exact iff_of_true ⟨plainText 202 "", rfl, .inl rfl⟩ nofun
  | some b =>
    simp only [Option.isSome_some, forall_const, toRow]
    cases timestampSeconds dec.mktime event.timestamp with
    | error e => exact iff_of_false (by rintro ⟨_, h, _⟩; cases h) (by rintro ⟨_, h⟩; cases h)
    | ok seconds => exact iff_of_true ⟨plainText 202 "", rfl, .inl rfl⟩ ⟨seconds, rfl⟩

/-- **The route and what is not caught.** A signed body is answered exactly where `loads`
    raises, if it does, one of the two errors that are caught, and, with a batcher there,
    an event's time that has no offset is one that local time knows. -/
theorem handleIngest_answered_iff (hdec : Documented dec) :
    Answered console (handleIngest hmac dec console headers body) ↔
      (SignedUnder hmac console.internalSecret headers body →
        (∀ e, dec.loads body = .error e → isDecodeError e = true) ∧
        (console.batcher.isSome = true → ∀ t, eventTime dec body = some t → t.offset = none →
          ∃ seconds, dec.mktime (t.reading.us / 10 ^ 6) = .ok seconds)) := by
  by_cases hsigned : SignedUnder hmac console.internalSecret headers body
  · rw [forall_prop_of_true hsigned]
    cases hloads : dec.loads body with
    | error e =>
      have hnone : eventTime dec body = none := by
        unfold eventTime
        rw [hloads]
      simp only [hnone, Except.error.injEq, forall_eq', reduceCtorEq, false_implies,
        implies_true, and_true]
      obtain ⟨hcaught, hraised⟩ := decode_loads_error hloads
      by_cases hdecode : isDecodeError e = true
      · obtain ⟨m, hm⟩ := hcaught hdecode
        exact iff_of_true (answered_refused hsigned hm) hdecode
      · refine iff_of_false ?_ hdecode
        apply not_answered_raised hsigned (hraised (eq_false_of_ne_true hdecode))
        rintro m rfl
        exact hdec.loads body m hloads
    | ok value =>
      simp only [reduceCtorEq, false_implies, implies_true, true_and]
      rcases decode_loaded hdec hloads with ⟨hnone, m, hm⟩ | ⟨event, htime, hevent⟩
      · exact iff_of_true (answered_refused hsigned hm) (by simp [hnone])
      · rw [answered_event_iff hsigned hevent, timestampSeconds_ok_iff, htime]
        simp only [Option.some.injEq, forall_eq']
  · refine iff_of_true ?_ fun h => absurd h hsigned
    rw [handleIngest_unsigned hsigned]
    exact ⟨plainText 401 "unauthorized", rfl, .inr ⟨.inl rfl, rfl⟩⟩

end Raises

/-! ## Three bodies -/

/-- An integer of one digit more than `int` reads. -/
def longInteger : Bytes := List.replicate 4301 49

/-- `{"ts":"0001-01-01T00:00:00"}`, a local time of the first day there is. -/
def firstDayBody : Bytes := bytesLit "\x7b\"ts\":\"0001-01-01T00:00:00\"\x7d"

/-- The two bodies decoded, and the first day of local time out of range. -/
def strictDecoding : Decoding where
  loads body :=
    if body = firstDayBody then
      .ok (.dict [(lit "ts", .str (lit "0001-01-01T00:00:00"))])
    else .error (.valueError (msg "Exceeds the limit (4300 digits) for integer string conversion"))
  fromisoformat _ := .ok ⟨⟨-62135596800000000, by decide, by decide⟩, none, local_within⟩
  mktime seconds :=
    if seconds < -62135510400 then .error (.valueError (msg "year 0 is out of range"))
    else .ok seconds

/-- HMAC-SHA256 under the key `k` of the preimages of the two bodies. -/
def strictMac (_ message : Bytes) : Bytes :=
  if message = gatewaysig.preimage (bytesLit "console-ingest") firstDayBody then
    [194, 131, 51, 107, 223, 196, 104, 64, 139, 149, 22, 243, 6, 129, 55, 110, 235, 211, 161, 134,
     53, 6, 22, 43, 178, 192, 183, 238, 175, 247, 96, 43]
  else
    [168, 38, 55, 221, 80, 29, 38, 228, 56, 83, 117, 186, 89, 48, 112, 122, 67, 234, 68, 38, 191,
     209, 194, 124, 179, 227, 23, 206, 66, 3, 75, 108]

/-- Signed under the key, the route raises on both. -/
theorem handleIngest_raises :
    ¬ Answered ⟨bytesLit "k", none⟩ (handleIngest strictMac strictDecoding ⟨bytesLit "k", none⟩
      (feedHeaders "a82637dd501d26e4385375ba5930707a43ea4426bfd1c27cb3e317ce42034b6c")
      longInteger) ∧
    ¬ Answered ⟨bytesLit "k", some {}⟩
      (handleIngest strictMac strictDecoding ⟨bytesLit "k", some {}⟩
        (feedHeaders "c283336bdfc468408b9516f30681376eebd3a1863506162bb2c0b7eeaff7602b")
        firstDayBody) := by
  refine ⟨?_, ?_⟩
  · apply not_answered_raised ⟨by decide +kernel, by decide +kernel⟩ rfl
    exact fun m => nofun
  · rw [answered_event_iff ⟨by decide +kernel, by decide +kernel⟩ rfl]
    intro h
    obtain ⟨seconds, hseconds⟩ := h rfl
    cases hseconds

/-- An event signed under the empty key is answered, as the one in UTC it is. -/
theorem handleIngest_answered_epoch :
    Answered { batcher := some {} } (handleIngest (fun _ _ => emptyKeyMac) epochDecoding
      { batcher := some {} }
      (feedHeaders "561a3241cd2bbf5ba81135430987d29a99b01b63ead8271e595d49f4de9a93f1")
      verdictBody) := by
  have hdec : Documented epochDecoding := ⟨nofun, nofun⟩
  rw [handleIngest_answered_iff hdec]
  refine fun _ => ⟨nofun, fun _ t ht hlocal => ?_⟩
  have htime : eventTime epochDecoding verdictBody = some ⟨.epoch, some 0, utc_within⟩ := rfl
  rw [htime] at ht
  rw [← Option.some.inj ht] at hlocal
  cases hlocal

end ingest
end HookGuard
