import HookGuard.Core.Exceptions
import HookGuard.Lib.Timestamp
import HookGuard.Lib.Utf8
import HookGuard.Lib.Value

/- The verdict event (`hookguard_core/events.py`), as the Gateway writes it on the wire
   and the Console reads it off. A field is whatever the JSON document held; only the
   timestamp is parsed.

   `fromisoformat` and `mktime`, the seconds since the epoch of a local time, are
   parameters: one varies with the version of Python, the other with the time zone
   of the host. So are `isoformat`, of a time in UTC, and `dumps`. -/
namespace HookGuard
open Py

/-- The `X-HookGuard-Provider` value of the event feed. -/
def INGEST_PROVIDER_LABEL : Str := lit "console-ingest"

structure VerifyEvent where
  timestamp : ReadDatetime
  path : Value
  provider : Value
  verdict : Value
  reason : Value
  upstreamStatus : Value
  latencyMs : Value
  bodyBytes : Value
  bodySha256 : Value
  remoteIp : Value

section Parse
variable (fromisoformat : Str → Except Exc ReadDatetime)

/-- `parse_timestamp`. -/
def parseTimestamp : Value → Except Exc ReadDatetime
  | .str s => fromisoformat s
  | _ => .error (.typeError (msg "fromisoformat: argument must be str"))

/-- `VerifyEvent.from_json_dict`: only `ts` is required. -/
def fromJsonDict (data : List (Str × Value)) : Except Exc VerifyEvent :=
  match dictItem data (lit "ts") with
  | none => .error (.keyError (msg "'ts'"))
  | some ts =>
    match parseTimestamp fromisoformat ts with
    | .error e => .error e
    | .ok timestamp => .ok
      { timestamp
        path := dictGet data (lit "path") (.str [])
        provider := dictGet data (lit "provider") (.str [])
        verdict := dictGet data (lit "verdict") (.str [])
        reason := dictGet data (lit "reason") (.str [])
        upstreamStatus := dictGet data (lit "upstream_status") (.int 0)
        latencyMs := dictGet data (lit "latency_ms") (.int 0)
        bodyBytes := dictGet data (lit "body_bytes") (.int 0)
        bodySha256 := dictGet data (lit "body_sha256") (.str [])
        remoteIp := dictGet data (lit "remote_ip") (.str []) }

end Parse

/-- `value.astimezone(UTC)`, with a naive time read as UTC; `none` is the `OverflowError`. -/
def utc (value : ReadDatetime) : Option Datetime :=
  Datetime.ofMicroseconds (value.reading.us - value.offset.getD 0)

/-- The JSON object of an event, with its timestamp formatted. -/
def VerifyEvent.jsonDict (event : VerifyEvent) (ts : Str) : List (Str × Value) :=
  [(lit "ts", .str ts), (lit "path", event.path), (lit "provider", event.provider),
   (lit "verdict", event.verdict), (lit "reason", event.reason),
   (lit "upstream_status", event.upstreamStatus), (lit "latency_ms", event.latencyMs),
   (lit "body_bytes", event.bodyBytes), (lit "body_sha256", event.bodySha256),
   (lit "remote_ip", event.remoteIp)]

section Render
variable (isoformat : Datetime → Str) (dumps : Value → Str)

/-- `format_timestamp`. -/
def formatTimestamp (value : ReadDatetime) : Except Exc Str :=
  match utc value with
  | none => .error .overflowError
  | some d => .ok (replace (isoformat d) (lit "+00:00") (lit "Z"))

/-- `to_json_dict`. -/
def toJsonDict (event : VerifyEvent) : Except Exc (List (Str × Value)) :=
  (formatTimestamp isoformat event.timestamp).map event.jsonDict

/-- `to_json_bytes`. -/
def toJsonBytes (event : VerifyEvent) : Except Exc Bytes :=
  match toJsonDict isoformat event with
  | .error e => .error e
  | .ok data =>
    match encodeUtf8 (dumps (.dict data)) with
    | none => .error .unicodeEncodeError
    | some payload => .ok payload

end Render

/-- `timestamp.timestamp()`: exact for an aware time, up to one rounding; a naive one is
    local time. -/
def timestampSeconds (mktime : Int → Except Exc Int) (t : ReadDatetime) : Except Exc ℚ :=
  match t.offset with
  | some offset => .ok (nearestDouble ((t.reading.us - offset : Int) / 10 ^ 6))
  | none =>
    match mktime (t.reading.us / 10 ^ 6) with
    | .error e => .error e
    | .ok seconds =>
      .ok (nearestDouble (seconds + nearestDouble ((t.reading.us % 10 ^ 6 : Int) / 10 ^ 6)))

end HookGuard
