import HookGuard.Console.Ingest
import HookGuard.Gateway.App

/- An event on its way from the Gateway's emitter (`_post` of `hookguard_gateway/emitter.py`)
   to the Console's queue (`hookguard_console/ingest.py`).

   The one end names the ten fields, signs the octets it sends and rewrites the offset of
   the timestamp; the other end checks, decodes and fills a row. Of the two libraries in
   between, only that they take this one event there and back is assumed
   (`verdict_survives`). -/
namespace HookGuard
open Py

namespace emitter

/-- The request `_post` makes. -/
def post (hmac : Bytes → Bytes → Bytes) (isoformat : Datetime → Str) (dumps : Value → Str)
    (url : Str) (secret : Bytes) (event : VerifyEvent) : Except Exc app.UpstreamRequest :=
  match toJsonBytes isoformat dumps event with
  | .error e => .error e
  | .ok payload =>
    match gatewaysig.sign hmac secret INGEST_PROVIDER_LABEL payload with
    | .error e => .error e
    | .ok signature =>
      match app.wireHeaders [(lit "Content-Type", lit "application/json"),
          (gatewaysig.PROVIDER_HEADER, INGEST_PROVIDER_LABEL),
          (gatewaysig.HEADER, signature)] with
      | none => .error .unicodeEncodeError
      | some headers => .ok ⟨url, payload, headers⟩

end emitter

namespace ingest

section Ends
variable {hmac : Bytes → Bytes → Bytes} {dec : Decoding} {secret payload : Bytes}
  {isoformat : Datetime → Str} {dumps : Value → Str} {event : VerifyEvent} {instant : Datetime}

theorem isAscii_label : isAscii INGEST_PROVIDER_LABEL = true := by decide

/-- What is signed for the event feed is accepted as the feed's. -/
theorem forwardedHeaders_signed (hmac : Bytes → Bytes → Bytes) (secret payload : Bytes) :
    SignedUnder hmac secret
      (app.forwardedHeaders hmac secret INGEST_PROVIDER_LABEL payload) payload := by
  refine ⟨rfl, ?_⟩
  have hsignature : (app.forwardedHeaders hmac secret INGEST_PROVIDER_LABEL payload).get
      gatewaysig.HEADER = some (decodeLatin1 ((hex (hmac secret
        (gatewaysig.preimage (bytesLit "console-ingest") payload))).map UInt8.ofNat)) := rfl
  rw [hsignature, Option.getD_some,
    decodeLatin1_map_ofNat (isLatin1_of_isAscii (isAscii_hex _)), decodeHex_hex]

theorem post_eq {url : Str} (h : toJsonBytes isoformat dumps event = .ok payload) :
    emitter.post hmac isoformat dumps url secret event =
      .ok ⟨url, payload, app.forwardedHeaders hmac secret INGEST_PROVIDER_LABEL payload⟩ := by
  have hsign : gatewaysig.sign hmac secret INGEST_PROVIDER_LABEL payload = .ok _ :=
    gatewaysig.sign_ok_iff.mpr ⟨_, encodeUtf8_ascii isAscii_label, rfl⟩
  have hwire := app.wireHeaders_signed hmac secret isAscii_label payload
  unfold emitter.post
  simp only [h, hsign, hwire]

theorem fromJsonDict_jsonDict {fromisoformat : Str → Except Exc ReadDatetime} {ts : Str}
    {timestamp : ReadDatetime} (h : fromisoformat ts = .ok timestamp) :
    fromJsonDict fromisoformat (event.jsonDict ts) = .ok { event with timestamp } := by
  have hts : dictItem (event.jsonDict ts) (lit "ts") = some (.str ts) := rfl
  unfold fromJsonDict
  simp only [hts, parseTimestamp, h]
  rfl

theorem enqueue_getLast (b : batcher.Batcher) (row : store.Event) :
    (b.enqueue row).queue.getLast? = some row := by
  unfold batcher.Batcher.enqueue
  split <;> simp

end Ends

/-- An event whose time is an instant of the years 1 to 9999, under whatever secret the two
    ends share: what the emitter posts is answered 202, and queued last, with the fields and
    the instant it had. -/
theorem verdict_survives (hmac : Bytes → Bytes → Bytes) (dec : Decoding)
    (isoformat : Datetime → Str) (dumps : Value → Str) (url : Str) (secret : Bytes)
    (b : batcher.Batcher) (event : VerifyEvent) (instant : Datetime) (day : Str)
    (payload : Bytes) (hinstant : utc event.timestamp = some instant)
    -- what is formatted is read back, with `Z` for the offset
    (hformat : isoformat instant = day ++ lit "+00:00") (hday : 43 ∉ day)
    (hread : dec.fromisoformat (day ++ lit "Z") = .ok (ReadDatetime.ofUtc instant))
    -- what is dumped is loaded
    (hdumps : encodeUtf8 (dumps (.dict (event.jsonDict (day ++ lit "Z")))) = some payload)
    (hloads : dec.loads payload = .ok (.dict (event.jsonDict (day ++ lit "Z")))) :
    ∃ request row, emitter.post hmac isoformat dumps url secret event = .ok request ∧
      handleIngest hmac dec ⟨secret, some b⟩ request.headers request.content =
        (.ok (plainText 202 ""), ⟨secret, some (b.enqueue row)⟩) ∧
      (b.enqueue row).queue.getLast? = some row ∧
      decode dec request.content =
        .ok { event with timestamp := ReadDatetime.ofUtc instant } ∧
      row = ⟨instant.unixMs, event.path, event.provider, event.verdict, event.reason,
        event.upstreamStatus, event.latencyMs, event.bodyBytes, event.bodySha256,
        event.remoteIp⟩ := by
  have hpayload : toJsonBytes isoformat dumps event = .ok payload := by
    have hts : formatTimestamp isoformat event.timestamp = .ok (day ++ lit "Z") := by
      unfold formatTimestamp
      simp only [hinstant, hformat]
      exact congrArg Except.ok (replace_suffix hday (lit "00:00") (lit "Z"))
    unfold toJsonBytes toJsonDict
    simp only [hts, Except.map, hdumps]
  have hdecode : decode dec payload =
      .ok { event with timestamp := ReadDatetime.ofUtc instant } := by
    unfold decode
    simp only [hloads, fromJsonDict_jsonDict hread]
  refine ⟨_, _, post_eq hpayload, ?_, enqueue_getLast _ _, hdecode, rfl⟩
  unfold handleIngest
  rw [authorize_ok_iff.mpr (forwardedHeaders_signed hmac secret payload)]
  simp only [hdecode]
  unfold toRow timestampSeconds
  simp only [ReadDatetime.ofUtc, Int.sub_zero]
  rfl

/-- A webhook the upstream failed on, at half past two in the afternoon, five and a half
    hours ahead of UTC. -/
def forwardedEvent : VerifyEvent where
  timestamp := ⟨⟨1772375400250000, by decide, by decide⟩, some 19800000000, by decide⟩
  path := .str (lit "/webhooks/stripe")
  provider := .str (lit "stripe")
  verdict := .str (lit "accepted")
  reason := .str (lit "upstream error")
  upstreamStatus := .int 502
  latencyMs := .int 31
  bodyBytes := .int 27
  bodySha256 := .str (lit "99881f332ac392f911294279ff1de29110121a186703f4486a4b827a318b51ef")
  remoteIp := .str (lit "203.0.113.9")

/-- Its time in UTC. -/
def forwardedInstant : Datetime := ⟨1772355600250000, by decide, by decide⟩

/-- What it is dumped as. -/
def forwardedText : Str :=
  lit "\x7b\"ts\":\"2026-03-01T09:00:00.250000Z\",\"path\":\"/webhooks/stripe\"," ++
  lit "\"provider\":\"stripe\",\"verdict\":\"accepted\",\"reason\":\"upstream error\"," ++
  lit "\"upstream_status\":502,\"latency_ms\":31,\"body_bytes\":27,\"body_sha256\":" ++
  lit "\"99881f332ac392f911294279ff1de29110121a186703f4486a4b827a318b51ef\"," ++
  lit "\"remote_ip\":\"203.0.113.9\"\x7d"

def forwardedPayload : Bytes := forwardedText.map UInt8.ofNat

/-- HMAC-SHA256 at the key `k` and the preimage of that text. -/
def forwardedMac : Bytes :=
  [221, 189, 94, 222, 113, 248, 245, 53, 101, 0, 177, 69, 137, 89, 77, 187, 19, 220, 244, 112,
   208, 51, 250, 118, 235, 33, 93, 142, 239, 170, 70, 218]

def wireDecoding : Decoding where
  loads body :=
    if body = forwardedPayload then
      .ok (.dict (forwardedEvent.jsonDict (lit "2026-03-01T09:00:00.250000Z")))
    else .error (.jsonDecodeError (msg "Expecting value: line 1 column 1 (char 0)"))
  fromisoformat s :=
    if s = lit "2026-03-01T09:00:00.250000Z" then .ok (ReadDatetime.ofUtc forwardedInstant)
    else .error (.valueError (msg "Invalid isoformat string"))
  mktime seconds := .ok seconds

/-- The row is queued behind another, with the ten fields. -/
theorem verdict_survives_forwarded :
    ∃ request row, emitter.post (fun _ _ => forwardedMac)
        (fun _ => lit "2026-03-01T09:00:00.250000+00:00") (fun _ => forwardedText)
        (lit "http://c/ingest") (bytesLit "k") forwardedEvent = .ok request ∧
      handleIngest (fun _ _ => forwardedMac) wireDecoding
        ⟨bytesLit "k", some { queue := [.ofVerdict (lit "rejected")] }⟩
        request.headers request.content = (.ok (plainText 202 ""), ⟨bytesLit "k",
          some { queue := [.ofVerdict (lit "rejected"), row] }⟩) ∧
      row = ⟨1772355600250, .str (lit "/webhooks/stripe"), .str (lit "stripe"),
        .str (lit "accepted"), .str (lit "upstream error"), .int 502, .int 31, .int 27,
        .str (lit "99881f332ac392f911294279ff1de29110121a186703f4486a4b827a318b51ef"),
        .str (lit "203.0.113.9")⟩ := by
  have hday : lit "2026-03-01T09:00:00.250000" ++ lit "Z" = lit "2026-03-01T09:00:00.250000Z" := by
    decide
  have hread : wireDecoding.fromisoformat (lit "2026-03-01T09:00:00.250000" ++ lit "Z") =
      .ok (ReadDatetime.ofUtc forwardedInstant) := by
    rw [hday]
    simp only [wireDecoding, if_true]
  have hdumps : encodeUtf8 forwardedText = some forwardedPayload :=
    encodeUtf8_ascii (by decide +kernel)
  have hloads : wireDecoding.loads forwardedPayload = .ok (.dict (forwardedEvent.jsonDict
      (lit "2026-03-01T09:00:00.250000" ++ lit "Z"))) := by
    rw [hday]
    simp only [wireDecoding, if_true]
  have hunixMs : forwardedInstant.unixMs = 1772355600250 := by decide +kernel
  obtain ⟨request, row, hpost, hingest, -, -, hrow⟩ := verdict_survives (fun _ _ => forwardedMac)
    wireDecoding (fun _ => lit "2026-03-01T09:00:00.250000+00:00") (fun _ => forwardedText)
    (lit "http://c/ingest") (bytesLit "k") { queue := [.ofVerdict (lit "rejected")] }
    forwardedEvent forwardedInstant (lit "2026-03-01T09:00:00.250000") forwardedPayload rfl rfl
    (by decide) hread hdumps hloads
  rw [hunixMs] at hrow
  exact ⟨request, row, hpost, hingest, hrow⟩

end ingest
end HookGuard
