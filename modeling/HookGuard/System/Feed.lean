import HookGuard.Console.Delivery
import HookGuard.Console.Flush
import HookGuard.Console.Pipeline
import HookGuard.Gateway.Emitter

/- The Gateway, the network and the Console as one system.

   The Gateway's half are its handlers (`app.handler`), the emitter with its task
   (`emitter.step`) and the events it builds (`verdictEvent`); the Console's half is the
   ingest route before the batcher, its workers and the table (`flush.step`). In between are
   the requests that are under way: each arrives once, in any order, or is lost; and anyone
   may send any request to the ingest route, those that were seen before among them.

   A call of a handler is two steps, since it waits for the upstream before it records its
   verdict. A `State` keeps, beside the two halves, what was forwarded and recorded;
   `State.Signed` is what the secret that the two share was used for. -/
namespace HookGuard
open Py Json Runs

namespace feed
open store

/-- What a Gateway and a Console run with. -/
structure Deployment (Certificate PublicKey : Type) where
  lib : Libraries Certificate PublicKey
  /-- `hashlib.sha256(body).digest()`. -/
  sha256 : Bytes → Bytes
  py : json.Interpreter
  depth : 0 < py.depth
  fromisoformat : Str → Except Exc ReadDatetime
  mktime : Int → Except Exc Int
  eng : Engine
  internalSecret : Bytes
  eventsUrl : Str

/-- What `record` takes from the clock and from the connection. -/
structure Seen where
  started : Datetime
  ended : Datetime
  now : Datetime
  remoteIp : Str
  scalar : remoteIp.all isScalar = true := by decide

/-- `int(latency.total_seconds() * 1000)`, of a `timedelta` in microseconds. -/
def latencyMs (latency : Int) : Int :=
  truncate (nearestDouble (nearestDouble (latency / 10 ^ 6) * 1000))

/-- What the upstream answers a request; a status has three digits. -/
structure Answers where
  post : app.UpstreamRequest → Except FetchFailure Response
  status : ∀ request response, post request = .ok response → response.statusCode < 1000

/-- The two halves, what is between them, and what was forwarded and recorded so far. -/
structure State (Certificate : Type) where
  routes : List (Route × Verifier Certificate)
  /-- The verdicts of the calls that have not recorded them yet. -/
  calls : List app.Record := []
  emitter : emitter.State VerifyEvent
  /-- The requests of the emitter that are under way. -/
  inFlight : List app.UpstreamRequest := []
  console : flush.State := {}
  forwarded : List (Str × Bytes) := []
  recorded : List (app.Record × Seen) := []
  lost : List app.UpstreamRequest := []

/-- A call of the handler of a route, up to its verdict; the rest of a call; the emitter
    and the Console on their own; a request that arrives, or does not; anyone's request to
    the ingest route, and to the upstream; and a prune. -/
inductive Action where
  | hook (i : Nat) (stream : List Bytes) (headers : Headers) (moment : Moment) (answers : Answers)
  | record (j : Nat) (seen : Seen)
  | emit (a : emitter.Action VerifyEvent)
  | arrive (j : Nat)
  | lose (j : Nat)
  | ingest (headers : Headers) (body : Bytes)
  | upstream (headers : Headers) (body : Bytes)
  | console (a : flush.Action)
  | sweep (busy : Option Msg) (cutoffMs : Int)

section System
variable {Certificate PublicKey : Type} (d : Deployment Certificate PublicKey)

def Deployment.decoding : Decoding := HookGuard.decoding d.py d.fromisoformat d.mktime

/-- The event that `record` builds. -/
def verdictEvent (record : app.Record) (seen : Seen) : VerifyEvent where
  timestamp := .ofUtc seen.now
  path := .str record.route
  provider := .str record.provider
  verdict := .str record.verdict
  reason := .str record.reason
  upstreamStatus := .int record.upstreamStatus
  latencyMs := .int (latencyMs (seen.ended.us - seen.started.us))
  bodyBytes := .int record.body.length
  bodySha256 := .str (hex (d.sha256 record.body))
  remoteIp := .str seen.remoteIp

/-- `event.to_json_bytes()`. -/
def payload (event : VerifyEvent) : Except Exc Bytes :=
  toJsonBytes Datetime.isoformat (dumps d.py.floats .compact) event

/-- The request `_post` makes of an event. -/
def requestOf (event : VerifyEvent) : Except Exc app.UpstreamRequest :=
  emitter.post d.lib.hmac Datetime.isoformat (dumps d.py.floats .compact) d.eventsUrl
    d.internalSecret event

variable (σ : State Certificate)

/-- The outcome of a call, where there is a route for it. -/
def outcome (i : Nat) (stream : List Bytes) (headers : Headers) (moment : Moment)
    (answers : Answers) : Option (Route × app.Outcome Certificate) :=
  (σ.routes[i]?).map fun rv =>
    (rv.1, app.handler d.lib rv.1 d.internalSecret answers.post rv.2 stream headers moment)

def State.hook (i : Nat) (stream : List Bytes) (headers : Headers) (moment : Moment)
    (answers : Answers) : State Certificate :=
  match outcome d σ i stream headers moment answers with
  | none => σ
  | some (route, result) =>
    { σ with
      routes := σ.routes.set i (route, result.verifier)
      calls := σ.calls ++ result.records
      forwarded := σ.forwarded ++
        result.posts.map fun request => (route.provider, request.content) }

def State.record (j : Nat) (seen : Seen) : State Certificate :=
  match σ.calls[j]? with
  | none => σ
  | some record =>
    { σ with
      calls := σ.calls.eraseIdx j
      emitter := σ.emitter.record (verdictEvent d record seen)
      recorded := σ.recorded ++ [(record, seen)] }

/-- The emitter takes a step: an event that it attempts is a request under way. -/
def State.emit (a : emitter.Action VerifyEvent) : State Certificate :=
  match a with
  | .record _ => σ
  | a =>
    let attempted := (emitter.step σ.emitter a).attempted.drop σ.emitter.attempted.length
    { σ with
      emitter := emitter.step σ.emitter a
      inFlight := σ.inFlight ++ attempted.filterMap fun event => (requestOf d event).toOption }

/-- The ingest route, with the batcher behind it. -/
def ingested (console : flush.State) (headers : Headers) (body : Bytes) : flush.State :=
  match (pipeline.Action.ingest headers body).event d.lib.hmac d.decoding d.internalSecret with
  | none => console
  | some row => flush.step d.eng console ⟨.enqueue row, {}⟩

def State.arrive (j : Nat) : State Certificate :=
  match σ.inFlight[j]? with
  | none => σ
  | some request =>
    { σ with
      inFlight := σ.inFlight.eraseIdx j
      console := ingested d σ.console request.headers request.content }

def State.lose (j : Nat) : State Certificate :=
  match σ.inFlight[j]? with
  | none => σ
  | some request => { σ with inFlight := σ.inFlight.eraseIdx j, lost := σ.lost ++ [request] }

/-- The batcher or one of its workers takes a step. -/
def State.work (a : flush.Action) : State Certificate :=
  match a.act with
  | .enqueue _ => σ
  | _ => { σ with console := flush.step d.eng σ.console a }

def State.sweep (busy : Option Msg) (cutoffMs : Int) : State Certificate :=
  { σ with
    console := { σ.console with
      store := (deleteEventsOlderThan busy σ.console.store cutoffMs).1 } }

/-- One step; the sample upstream keeps nothing. -/
def step : Action → State Certificate
  | .hook i stream headers moment answers => σ.hook d i stream headers moment answers
  | .record j seen => σ.record d j seen
  | .emit a => σ.emit d a
  | .arrive j => σ.arrive d j
  | .lose j => σ.lose j
  | .ingest headers body => { σ with console := ingested d σ.console headers body }
  | .upstream _ _ => σ
  | .console a => σ.work d a
  | .sweep busy cutoffMs => σ.sweep busy cutoffMs

/-- Both halves are started. -/
def start (routes : List (Route × Verifier Certificate)) : State Certificate :=
  { routes, emitter := emitter.State.start { url := d.eventsUrl } }

/-- The state after a run. -/
def run (routes : List (Route × Verifier Certificate)) (actions : List Action) :
    State Certificate :=
  actions.foldl (step d) (start d routes)

/-- The verdicts of the calls that a step makes. -/
def judged : Action → List app.Record
  | .hook i stream headers moment answers =>
    ((outcome d σ i stream headers moment answers).map fun r => r.2.records).getD []
  | _ => []

/-- The bodies that a step forwards, each under its provider. -/
def forwards : Action → List (Str × Bytes)
  | .hook i stream headers moment answers =>
    ((outcome d σ i stream headers moment answers).map fun r =>
      r.2.posts.map fun request => (r.1.provider, request.content)).getD []
  | _ => []

/-- What the secret was used to sign: the bodies that were forwarded, under the provider,
    and the payloads of events, under the label. -/
def State.Signed (message : Bytes) : Prop :=
  (∃ x ∈ σ.forwarded, message = gatewaysig.preimage (x.1.map UInt8.ofNat) x.2) ∨
    ∃ event ∈ σ.emitter.attempted, ∃ content, payload d event = .ok content ∧
      message = gatewaysig.preimage (bytesLit "console-ingest") content

/-- What was not signed with the secret is not accepted: by the ingest route, and by the
    upstream. -/
def Unforged : Action → Prop
  | .ingest headers body =>
    ingest.SignedUnder d.lib.hmac d.internalSecret headers body →
      σ.Signed d (gatewaysig.preimage (bytesLit "console-ingest") body)
  | .upstream headers body =>
    upstream.Accepts d.lib.hmac d.internalSecret headers body →
      ∀ provider, encodeUtf8 ((headers.get gatewaysig.PROVIDER_HEADER).getD []) = some provider →
        σ.Signed d (gatewaysig.preimage provider body)
  | _ => True

/-- The routes as an application has them: verifiers that were built, and any that they
    have become. -/
def Serving (routes : List (Route × Verifier Certificate)) : Prop :=
  ∀ rv ∈ routes, ∃ secret, app.Serves d.lib rv.1 secret rv.2

/-- The row of a verdict. -/
def verdictRow (x : app.Record × Seen) : Event where
  receivedAt := x.2.now.unixMs
  path := .str x.1.route
  provider := .str x.1.provider
  verdict := .str x.1.verdict
  reason := .str x.1.reason
  upstreamStatus := .int x.1.upstreamStatus
  latencyMs := .int (latencyMs (x.2.ended.us - x.2.started.us))
  bodyBytes := .int x.1.body.length
  bodySha256 := .str (hex (d.sha256 x.1.body))
  remoteIp := .str x.2.remoteIp

end System

section Ingest
variable {Certificate PublicKey : Type} {d : Deployment Certificate PublicKey}
  {console : flush.State}

theorem event_eq_some_iff {headers : Headers} {body : Bytes} {row : Event} :
    (pipeline.Action.ingest headers body).event d.lib.hmac d.decoding d.internalSecret =
        some row ↔
      ingest.SignedUnder d.lib.hmac d.internalSecret headers body ∧
        ingest.rowOf d.decoding body = some row := by
  simp only [pipeline.Action.event]
  split
  · next hsigned => exact (and_iff_right hsigned).symm
  · next hsigned => exact iff_of_false (Option.some_ne_none row).symm fun h => hsigned h.1

/-- The queue, as the route has it. -/
def queued (console : flush.State) : batcher.Batcher :=
  ⟨console.loop.queue.items, console.loop.dropped⟩

theorem queued_enqueue (eng : Engine) (console : flush.State) (row : Event) :
    queued (flush.step eng console ⟨.enqueue row, {}⟩) = (queued console).enqueue row :=
  (ticker.enqueue_batcher console.loop row).symm

theorem handleIngest_ingested (headers : Headers) (body : Bytes) :
    (ingest.handleIngest d.lib.hmac d.decoding ⟨d.internalSecret, some (queued console)⟩ headers
      body).2 = ⟨d.internalSecret, some (queued (ingested d console headers body))⟩ := by
  unfold ingested pipeline.Action.event
  by_cases hsigned : ingest.SignedUnder d.lib.hmac d.internalSecret headers body
  · simp only [if_pos hsigned]
    rcases ingest.handleIngest_signed d.decoding (queued console) hsigned with
      ⟨row, hrow, heq⟩ | ⟨hrow, answer, heq, -⟩
    · simp only [heq, hrow, queued_enqueue]
    · simp only [heq, hrow]
  · simp only [if_neg hsigned]
    have heq : ingest.handleIngest d.lib.hmac d.decoding
        ⟨d.internalSecret, some (queued console)⟩ headers body = _ :=
      ingest.handleIngest_unsigned hsigned
    rw [heq]

end Ingest

end feed
end HookGuard
