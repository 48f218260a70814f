import HookGuard.Gateway.Registry
import HookGuard.Gateway.Upstream

/- The Gateway's handler (`hookguard_gateway/app.py`) and the trust boundary it
   makes with the upstream.

   `readCappedBody` is the streaming loop, `forward` the signed request to the
   upstream, `handler` the two around `verify`; `Outcome` is all a call leaves:
   the answer, the requests made, the verdicts recorded, the verifier. The loop
   comes to the concatenated chunks and their length (`readCappedBody_eq`), so the
   outcome is a function of the body and not of its chunks (`handler_congr`), and
   the one request made carries the body, three headers of the Gateway's own, and
   a signature the sample upstream accepts (`handler_boundary`). A verdict is recorded once
   unless the forward raises what `forward` does not catch (`handler_recorded_iff`). -/
namespace HookGuard
open Py

/-- `classify_reason`, from the text of the rejection. -/
def classifyReason (text : Str) : Str :=
  let has := fun s => contains text (lit s)
  if has "missing" && has "header" then lit "missing header"
  else if has "outside replay window" then lit "stale timestamp"
  else if has "not a trusted PayPal host" || has "must be https" ||
      has "invalid paypal-cert-url" then lit "cert host rejected"
  else if has "certificate chain" then lit "cert chain invalid"
  else if has "unsupported paypal-auth-algo" then lit "unsupported algorithm"
  else if has "signature mismatch" || has "no matching signature" then lit "signature mismatch"
  else if has "encoding" || has "malformed" || has "invalid timestamp" ||
      has "parse certificate" || has "no certificate found" then lit "bad encoding"
  else lit "other"

namespace app

def MAX_BODY_BYTES : Nat := 5 * 2 ^ 20

/-- The loop of `_read_capped_body`: the chunks kept and the size so far. -/
def readLoop : List Bytes → List Bytes → Nat → Option Bytes
  | [], chunks, _ => some chunks.flatten
  | chunk :: stream, chunks, size =>
    if MAX_BODY_BYTES < size + chunk.length then none
    else readLoop stream (chunks ++ [chunk]) (size + chunk.length)

/-- `_read_capped_body`. -/
def readCappedBody (stream : List Bytes) : Option Bytes := readLoop stream [] 0

/-- A request to the upstream, its headers as the upstream receives them. -/
structure UpstreamRequest where
  url : Str
  content : Bytes
  headers : Headers

/-- Header names arrive in lower case; the client encodes values as ASCII. -/
def wireHeaders : List (Str × Str) → Option Headers
  | [] => some []
  | (name, value) :: rest =>
    match encodeAscii (lower name), encodeAscii value, wireHeaders rest with
    | some n, some v, some hs => some ((n, v) :: hs)
    | _, _, _ => none

/-- The `Response` made of the upstream's: its media type is encoded as Latin-1. -/
def relay (upstream : Response) : Except Exc Response :=
  if IsLatin1 (upstream.mediaType.getD []) then .ok upstream else .error .unicodeEncodeError

/-- A verdict handed to the emitter. -/
structure Record where
  route : Str
  provider : Str
  verdict : Str
  reason : Str
  upstreamStatus : Nat
  body : Bytes

/-- What one call of the handler leaves. -/
structure Outcome (Certificate : Type) where
  answer : Except Exc Response
  posts : List UpstreamRequest := []
  records : List Record := []
  verifier : Verifier Certificate

section Handler
variable {Certificate PublicKey : Type} (lib : Libraries Certificate PublicKey)
  (route : Route) (internalSecret : Bytes)
  (post : UpstreamRequest → Except FetchFailure Response)

/-- `_forward`: the request made, if any, and what becomes of it: the response and
    the upstream's status. -/
def forward (body : Bytes) : List UpstreamRequest × Except Exc (Response × Nat) :=
  match gatewaysig.sign lib.hmac internalSecret route.provider body with
  | .error e => ([], .error e)
  | .ok signature =>
    match wireHeaders [(lit "Content-Type", lit "application/json"),
        (gatewaysig.PROVIDER_HEADER, route.provider), (gatewaysig.HEADER, signature)] with
    | none => ([], .error .unicodeEncodeError)
    | some headers =>
      let request : UpstreamRequest := ⟨route.upstream, body, headers⟩
      match post request with
      | .error (.httpError _) => ([request], .ok (plainText 502 "upstream unreachable\n", 0))
      | .error (.invalidURL m) => ([request], .error (.invalidURL m))
      | .ok upstream =>
        match relay upstream with
        | .error e => ([request], .error e)
        | .ok response => ([request], .ok (response, upstream.statusCode))

/-- `handler`. -/
def handler (verifier : Verifier Certificate) (stream : List Bytes) (headers : Headers)
    (moment : Moment) : Outcome Certificate :=
  match readCappedBody stream with
  | none => { answer := .ok (plainText 413 "body too large\n"), verifier }
  | some body =>
    match verifier.verify lib body headers moment with
    | (.error (.verificationError m), verifier) =>
      { answer := .ok (plainText 401 "unauthorized\n")
        records := [⟨route.path, route.provider, lit "rejected",
          classifyReason (m.render lib.printable), 0, body⟩]
        verifier }
    | (.error e, verifier) => { answer := .error e, verifier }
    | (.ok (), verifier) =>
      match forward lib route internalSecret post body with
      | (posts, .error e) => { answer := .error e, posts, verifier }
      | (posts, .ok (response, status)) =>
        { answer := .ok response
          posts
          records := [⟨route.path, route.provider, lit "accepted", [], status, body⟩]
          verifier }

/-- The states the verifier of a route can be in: as built, and after any calls. -/
inductive Serves (lib : Libraries Certificate PublicKey) (route : Route) (secret : Str) :
    Verifier Certificate → Prop where
  | built {v} (h : buildVerifier route secret = .ok v) : Serves lib route secret v
  | verified {v} (h : Serves lib route secret v) (body : Bytes) (headers : Headers)
      (moment : Moment) : Serves lib route secret (v.verify lib body headers moment).2

/-! ## The body -/

/-- The loop from any point: the size is that of the chunks kept, and within the cap. -/
theorem readLoop_eq (stream chunks : List Bytes) (h : chunks.flatten.length ≤ MAX_BODY_BYTES) :
    readLoop stream chunks chunks.flatten.length =
      if (chunks ++ stream).flatten.length ≤ MAX_BODY_BYTES then some (chunks ++ stream).flatten
      else none := by
  induction stream generalizing chunks with
  | nil => simp only [readLoop, List.append_nil, if_pos h]
  | cons chunk stream ih =>
    have hsize : (chunks ++ [chunk]).flatten.length = chunks.flatten.length + chunk.length := by
      simp
    have hall : chunks ++ chunk :: stream = (chunks ++ [chunk]) ++ stream := by simp
    rw [readLoop, ← hsize, hall]
    by_cases hover : MAX_BODY_BYTES < (chunks ++ [chunk]).flatten.length
    · -- past the cap here is past it whatever follows
      have htotal : ¬ ((chunks ++ [chunk]) ++ stream).flatten.length ≤ MAX_BODY_BYTES := by
        rw [List.flatten_append, List.length_append]
        omega
      rw [if_pos hover, if_neg htotal]
    · rw [if_neg hover]
      apply ih
      omega

theorem readCappedBody_eq (stream : List Bytes) :
    readCappedBody stream =
      if stream.flatten.length ≤ MAX_BODY_BYTES then some stream.flatten else none :=
  readLoop_eq stream [] (Nat.zero_le _)

variable {lib route internalSecret post}

theorem handler_congr {v : Verifier Certificate} {stream stream' : List Bytes}
    {headers : Headers} {moment : Moment} (h : stream.flatten = stream'.flatten) :
    handler lib route internalSecret post v stream headers moment =
      handler lib route internalSecret post v stream' headers moment := by
  unfold handler
  rw [readCappedBody_eq, readCappedBody_eq, h]

/-! ## The request upstream -/

theorem buildVerifier_provider {secret : Str} {v : Verifier Certificate}
    (h : buildVerifier route secret = .ok v) :
    route.provider ∈ [lit "github", lit "paypal", lit "shopify", lit "stripe"] := by
  unfold buildVerifier at h
  split at h
  · cases h
  · next factory hf =>
    -- the name looked up is one of the names of the registry
    obtain ⟨before, after, heq, -⟩ := List.lookup_eq_some_iff.mp hf
    have hnames : (@REGISTRY Certificate).map Prod.fst =
      [lit "github", lit "paypal", lit "shopify", lit "stripe"] := rfl
    rw [← hnames, heq]
    simp

theorem serves_provider {secret : Str} {v : Verifier Certificate}
    (h : Serves lib route secret v) :
    route.provider ∈ [lit "github", lit "paypal", lit "shopify", lit "stripe"] := by
  induction h with
  | built h => exact buildVerifier_provider h
  | verified h body headers moment ih => exact ih

theorem serves_ascii {secret : Str} {v : Verifier Certificate} (h : Serves lib route secret v) :
    isAscii route.provider = true := by
  have known : ∀ p ∈ [lit "github", lit "paypal", lit "shopify", lit "stripe"],
    isAscii p = true := by decide
  exact known _ (serves_provider h)

/-- The headers of the forwarded request: the Gateway's own, whatever was received. -/
def forwardedHeaders (hmac : Bytes → Bytes → Bytes) (internalSecret : Bytes) (provider : Str)
    (body : Bytes) : Headers :=
  [(bytesLit "content-type", bytesLit "application/json"),
   (bytesLit "x-hookguard-provider", provider.map UInt8.ofNat),
   (bytesLit "x-hookguard-signature",
    (hex (hmac internalSecret (gatewaysig.preimage (provider.map UInt8.ofNat) body))).map
      UInt8.ofNat)]

theorem wireHeaders_signed (hmac : Bytes → Bytes → Bytes) (secret : Bytes) {provider : Str}
    (h : isAscii provider = true) (body : Bytes) :
    wireHeaders [(lit "Content-Type", lit "application/json"),
        (gatewaysig.PROVIDER_HEADER, provider), (gatewaysig.HEADER,
          hex (hmac secret (gatewaysig.preimage (provider.map UInt8.ofNat) body)))] =
      some (forwardedHeaders hmac secret provider body) := by
  simp only [wireHeaders, encodeAscii, h, isAscii_hex, if_true]
  rfl

/-- The request a body that verifies is forwarded in. -/
def forwardedRequest (hmac : Bytes → Bytes → Bytes) (route : Route) (internalSecret body : Bytes) :
    UpstreamRequest :=
  ⟨route.upstream, body, forwardedHeaders hmac internalSecret route.provider body⟩

theorem forward_eq (body : Bytes) (h : isAscii route.provider = true) :
    forward lib route internalSecret post body =
      ([forwardedRequest lib.hmac route internalSecret body],
        match post (forwardedRequest lib.hmac route internalSecret body) with
        | .error (.httpError _) => .ok (plainText 502 "upstream unreachable\n", 0)
        | .error (.invalidURL m) => .error (.invalidURL m)
        | .ok upstream =>
          (relay upstream).map fun response => (response, upstream.statusCode)) := by
  have hsign : gatewaysig.sign lib.hmac internalSecret route.provider body = .ok _ :=
    gatewaysig.sign_ok_iff.mpr ⟨_, encodeUtf8_ascii h, rfl⟩
  have hwire := wireHeaders_signed lib.hmac internalSecret h body
  unfold forward
  simp only [hsign, hwire, forwardedRequest]
  cases post ⟨route.upstream, body, _⟩ with
  | error e => cases e <;> rfl
  | ok upstream =>
    simp only
    cases relay upstream <;> rfl

/-- The forwarded headers are accepted with the body they were made for. -/
theorem forwardedHeaders_accepted {hmac : Bytes → Bytes → Bytes} {provider : Str} {body : Bytes}
    (h : isAscii provider = true) :
    upstream.Accepts hmac internalSecret
      (forwardedHeaders hmac internalSecret provider body) body := by
  have hprovider : (forwardedHeaders hmac internalSecret provider body).get
      gatewaysig.PROVIDER_HEADER = some (decodeLatin1 (provider.map UInt8.ofNat)) := rfl
  have hsignature : (forwardedHeaders hmac internalSecret provider body).get gatewaysig.HEADER =
      some (decodeLatin1 ((hex (hmac internalSecret
        (gatewaysig.preimage (provider.map UInt8.ofNat) body))).map UInt8.ofNat)) := rfl
  rw [upstream.accepts_iff, hprovider, hsignature, Option.getD_some, Option.getD_some,
    decodeLatin1_map_ofNat (isLatin1_of_isAscii h),
    decodeLatin1_map_ofNat (isLatin1_of_isAscii (isAscii_hex _))]
  apply gatewaysig.verify_sign
  exact gatewaysig.sign_ok_iff.mpr ⟨_, encodeUtf8_ascii h, rfl⟩

/-- The requests a call makes: the forward of the body, if it is within the cap and
    verifies. -/
theorem handler_posts {v : Verifier Certificate} {stream : List Bytes} {headers : Headers}
    {moment : Moment} :
    (handler lib route internalSecret post v stream headers moment).posts =
      if stream.flatten.length ≤ MAX_BODY_BYTES ∧
          (v.verify lib stream.flatten headers moment).1 = .ok () then
        (forward lib route internalSecret post stream.flatten).1
      else [] := by
  unfold handler
  rw [readCappedBody_eq]
  by_cases hcap : stream.flatten.length ≤ MAX_BODY_BYTES
  · simp only [hcap, if_true, true_and]
    cases hv : v.verify lib stream.flatten headers moment with
    | mk result v' =>
    cases result with
    | error e =>
      -- refused, or raised something else: nothing is sent either way
      cases e <;> simp only [reduceCtorEq, if_false]
    | ok u =>
      simp only [if_true]
      cases hf : forward lib route internalSecret post stream.flatten with
      | mk posts answer => cases answer <;> rfl
  · simp only [hcap, false_and, if_false]

/-- **The trust boundary.** A call of the handler makes at most one request upstream,
    and one exactly when the body is within the cap and verifies; that request is the
    body as received under the Gateway's own headers, and the upstream accepts it;
    and the chunks do not matter. -/
theorem handler_boundary {secret : Str} {v : Verifier Certificate}
    (serves : Serves lib route secret v) (stream : List Bytes) (headers : Headers)
    (moment : Moment) :
    (handler lib route internalSecret post v stream headers moment).posts.length ≤ 1 ∧
    ((handler lib route internalSecret post v stream headers moment).posts.length = 1 ↔
      stream.flatten.length ≤ MAX_BODY_BYTES ∧
        (v.verify lib stream.flatten headers moment).1 = .ok ()) ∧
    (∀ request ∈ (handler lib route internalSecret post v stream headers moment).posts,
      request.url = route.upstream ∧ request.content = stream.flatten ∧
      request.headers =
        forwardedHeaders lib.hmac internalSecret route.provider stream.flatten ∧
      upstream.Accepts lib.hmac internalSecret request.headers request.content) ∧
    ∀ stream' : List Bytes, stream'.flatten = stream.flatten →
      handler lib route internalSecret post v stream' headers moment =
        handler lib route internalSecret post v stream headers moment := by
  have hascii := serves_ascii serves
  rw [handler_posts, forward_eq _ hascii]
  refine ⟨?_, ?_, ?_, fun stream' h => handler_congr h⟩
  · split <;> simp
  · split
    · next h => exact iff_of_true rfl h
    · next h => exact iff_of_false (by simp) h
  · intro request hr
    split at hr
    · rw [List.mem_singleton.mp hr]
      exact ⟨rfl, rfl, rfl, forwardedHeaders_accepted hascii⟩
    · simp at hr

/-! ## The verdict -/

/-- The call answers, and records one verdict: whether the request verified, and the status
    that the upstream answered its forward with, if it did. -/
def VerdictRecorded (outcome : Outcome Certificate) (verified : Except Exc Unit)
    (posted : Except FetchFailure Response) : Prop :=
  (∃ response, outcome.answer = .ok response) ∧ ∃ record, outcome.records = [record] ∧
    match verified, posted with
    | .error _, _ => record.verdict = lit "rejected" ∧ record.upstreamStatus = 0
    | .ok (), .error _ => record.verdict = lit "accepted" ∧ record.upstreamStatus = 0
    | .ok (), .ok upstream =>
      record.verdict = lit "accepted" ∧ record.upstreamStatus = upstream.statusCode

/-- A post ends in an `HTTPError`, or in a response of a Latin-1 content type. -/
def Relays : Except FetchFailure Response → Prop
  | .error (.httpError _) => True
  | .error (.invalidURL _) => False
  | .ok upstream => IsLatin1 (upstream.mediaType.getD [])

theorem handler_verified {v : Verifier Certificate} {stream : List Bytes} {headers : Headers}
    {moment : Moment} (hcap : stream.flatten.length ≤ MAX_BODY_BYTES)
    (h : (v.verify lib stream.flatten headers moment).1 = .ok ()) :
    (handler lib route internalSecret post v stream headers moment).answer =
        (forward lib route internalSecret post stream.flatten).2.map Prod.fst ∧
    (handler lib route internalSecret post v stream headers moment).records =
      match (forward lib route internalSecret post stream.flatten).2 with
      | .error _ => []
      | .ok (_, status) =>
        [⟨route.path, route.provider, lit "accepted", [], status, stream.flatten⟩] := by
  unfold handler
  rw [readCappedBody_eq, if_pos hcap]
  cases hv : v.verify lib stream.flatten headers moment with
  | mk result v' =>
  rw [hv] at h
  obtain rfl : result = .ok () := h
  simp only [hv]
  cases forward lib route internalSecret post stream.flatten with
  | mk posts answer =>
  cases answer with
  | error e => exact ⟨rfl, rfl⟩
  | ok relayed => exact ⟨rfl, rfl⟩

theorem handler_refused {v : Verifier Certificate} {stream : List Bytes} {headers : Headers}
    {moment : Moment} {m : Msg} (hcap : stream.flatten.length ≤ MAX_BODY_BYTES)
    (h : (v.verify lib stream.flatten headers moment).1 = .error (.verificationError m)) :
    (handler lib route internalSecret post v stream headers moment).answer =
        .ok (plainText 401 "unauthorized\n") ∧
    (handler lib route internalSecret post v stream headers moment).records =
      [⟨route.path, route.provider, lit "rejected", classifyReason (m.render lib.printable), 0,
        stream.flatten⟩] := by
  unfold handler
  rw [readCappedBody_eq, if_pos hcap]
  cases hv : v.verify lib stream.flatten headers moment with
  | mk result v' =>
  rw [hv] at h
  obtain rfl : result = .error (.verificationError m) := h
  simp only [hv, and_self]

/-- **One verdict.** A call on a body within the cap, whose verifier keeps its contract,
    answers and records the verdict once exactly where the request is refused, or its
    forward ends in an `HTTPError` or in a response of a Latin-1 content type. -/
theorem handler_recorded_iff {secret : Str} {v : Verifier Certificate}
    (serves : Serves lib route secret v) {stream : List Bytes} {headers : Headers}
    {moment : Moment} (hcap : stream.flatten.length ≤ MAX_BODY_BYTES)
    (hcontract : VerifierContract (v.verify lib stream.flatten headers moment).1) :
    VerdictRecorded (handler lib route internalSecret post v stream headers moment)
        (v.verify lib stream.flatten headers moment).1
        (post (forwardedRequest lib.hmac route internalSecret stream.flatten)) ↔
      ((v.verify lib stream.flatten headers moment).1 = .ok () →
        Relays (post (forwardedRequest lib.hmac route internalSecret stream.flatten))) := by
  unfold VerdictRecorded
  rcases hcontract with hok | ⟨m, hrefused⟩
  · rw [(handler_verified hcap hok).1, (handler_verified hcap hok).2, hok,
      forward_eq _ (serves_ascii serves), forall_prop_of_true rfl]
    cases post (forwardedRequest lib.hmac route internalSecret stream.flatten) with
    | error e =>
      cases e with
      | httpError m => exact iff_of_true ⟨⟨_, rfl⟩, _, rfl, rfl, rfl⟩ trivial
      | invalidURL m =>
        refine iff_of_false ?_ not_false
        rintro ⟨⟨response, hresponse⟩, -⟩
        cases hresponse
    | ok upstream =>
      show _ ↔ IsLatin1 (upstream.mediaType.getD [])
      by_cases hlatin : IsLatin1 (upstream.mediaType.getD [])
      · have hrelay : relay upstream = .ok upstream := if_pos hlatin
        simp only [hrelay]
        exact iff_of_true ⟨⟨_, rfl⟩, _, rfl, rfl, rfl⟩ hlatin
      · have hrelay : relay upstream = .error .unicodeEncodeError := if_neg hlatin
        simp only [hrelay]
        refine iff_of_false ?_ hlatin
        rintro ⟨⟨response, hresponse⟩, -⟩
        cases hresponse
  · rw [(handler_refused hcap hrefused).1, (handler_refused hcap hrefused).2, hrefused]
    exact iff_of_true ⟨⟨_, rfl⟩, _, rfl, rfl, rfl⟩ nofun

end Handler

/-! ## A push -/

/-- HMAC-SHA256 of `ab` under the key `k`. -/
def pushMac : Bytes :=
  [116, 117, 187, 17, 159, 233, 183, 76, 192, 175, 80, 20, 164, 157, 128, 171, 35, 189, 26,
   200, 41, 135, 231, 105, 108, 220, 36, 34, 136, 101, 68, 54]

/-- HMAC-SHA256 of `github.ab` under the key `k`. -/
def forwardMac : Bytes :=
  [216, 255, 131, 196, 111, 82, 9, 176, 221, 221, 57, 207, 247, 55, 130, 192, 199, 219, 115,
   14, 180, 187, 182, 3, 127, 224, 221, 29, 247, 245, 171, 12]

def pushLibraries : Libraries Unit Unit :=
  { Libraries.bare with hmac := fun _ m => if m = bytesLit "ab" then pushMac else forwardMac }

def pushHeaders : Headers :=
  [(bytesLit "x-hub-signature-256", bytesLit "sha256=" ++ (hex pushMac).map UInt8.ofNat)]

/-- A push in two chunks, signed by GitHub, is forwarded. -/
theorem handler_boundary_push :
    ((Verifier.github ⟨bytesLit "k"⟩).verify pushLibraries [bytesLit "a", bytesLit "b"].flatten
        pushHeaders Moment.bare).1 = .ok () ∧
    (handler pushLibraries ⟨lit "/g", lit "github", lit "u", [], [], [], by decide⟩ (bytesLit "k")
      (fun _ => .ok ⟨200, [], none⟩) (.github ⟨bytesLit "k"⟩) [bytesLit "a", bytesLit "b"]
      pushHeaders Moment.bare).posts.length = 1 := by
  have hverified : ((Verifier.github ⟨bytesLit "k"⟩).verify pushLibraries
      [bytesLit "a", bytesLit "b"].flatten pushHeaders Moment.bare).1 = .ok () := rfl
  have serves : Serves pushLibraries ⟨lit "/g", lit "github", lit "u", [], [], [], by decide⟩
      (lit "k") (.github ⟨bytesLit "k"⟩) := .built rfl
  exact ⟨hverified, (handler_boundary serves _ _ _).2.1.mpr ⟨by decide, hverified⟩⟩

/-- A route whose upstream has a port that is no number. -/
def portRoute : Route := ⟨lit "/g", lit "github", lit "http://127.0.0.1:x", [], [], [], by decide⟩

def pushVerified : Except Exc Unit :=
  ((Verifier.github ⟨bytesLit "k"⟩).verify pushLibraries [bytesLit "a", bytesLit "b"].flatten
    pushHeaders Moment.bare).1

/-- The push on that route, where the post ends in `posted`. -/
def pushOutcome (posted : Except FetchFailure Response) : Outcome Unit :=
  handler pushLibraries portRoute (bytesLit "k") (fun _ => posted) (.github ⟨bytesLit "k"⟩)
    [bytesLit "a", bytesLit "b"] pushHeaders Moment.bare

/-- The URL raises and nothing is answered or recorded; nor is it where an upstream answers
    with a content type past Latin-1. -/
theorem handler_unrecorded :
    ¬ VerdictRecorded (pushOutcome (.error (.invalidURL (msg "Invalid port: 'x'"))))
        pushVerified (.error (.invalidURL (msg "Invalid port: 'x'"))) ∧
    ¬ VerdictRecorded (pushOutcome (.ok ⟨200, [], some [8364]⟩)) pushVerified
        (.ok ⟨200, [], some [8364]⟩) := by
  refine ⟨?_, ?_⟩
  · rintro ⟨⟨response, hresponse⟩, -⟩
    have hraises : (pushOutcome (.error (.invalidURL (msg "Invalid port: 'x'")))).answer =
        .error (.invalidURL (msg "Invalid port: 'x'")) := rfl
    rw [hraises] at hresponse
    cases hresponse
  · rintro ⟨⟨response, hresponse⟩, -⟩
    have hraises : (pushOutcome (.ok ⟨200, [], some [8364]⟩)).answer =
        .error .unicodeEncodeError := rfl
    rw [hraises] at hresponse
    cases hresponse

/-- An upstream that cannot be reached: the push is recorded, with no status. -/
theorem handler_recorded_push :
    pushVerified = .ok () ∧
    VerdictRecorded (pushOutcome (.error (.httpError []))) pushVerified
      (.error (.httpError [])) := by
  have hverified : pushVerified = .ok () := rfl
  have serves : Serves pushLibraries portRoute (lit "k") (.github ⟨bytesLit "k"⟩) := .built rfl
  have hcap : [bytesLit "a", bytesLit "b"].flatten.length ≤ MAX_BODY_BYTES := by decide
  exact ⟨hverified, (handler_recorded_iff serves hcap (.inl hverified)).mpr fun _ => trivial⟩

end app
end HookGuard
