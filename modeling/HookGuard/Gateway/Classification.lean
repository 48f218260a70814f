import HookGuard.Gateway.App

/- The buckets rejections are filed in (`classify_reason`), against the checks that reject.

   `failedCheck` is the check of a verifier that a request fails, with the text that its
   message quotes; what `verify` raises says the same (`verify_tells`). The classifier
   reads nothing but that message. A check that quotes nothing is filed in its own bucket
   (`fixed_filed`); one that quotes, exactly where the quoted text has no pattern of a
   bucket that is tried before (`quoting_filed_iff`). -/
namespace HookGuard
open Py

namespace taxonomy

/-- The providers that sign in one header. -/
inductive Signer where
  | github
  | shopify
  | stripe

def Signer.HEADER : Signer → Str
  | .github => github.HEADER
  | .shopify => shopify.HEADER
  | .stripe => stripe.HEADER

/-- The checks whose message is always the same. -/
inductive FixedCheck where
  | missingHeader (signer : Signer)
  | missingHeaders
  | malformedHeader (signer : Signer)
  | signatureEncoding
  | transmissionSigEncoding
  | timestamp
  | replayWindow
  | mismatch
  | noMatch
  | certUrlScheme
  | certUrlNoHost
  | noCertificate
  | keyType

/-- The checks whose message quotes a text. -/
inductive QuotingCheck where
  | authAlgo
  | certUrl
  | certHost
  | fetch
  | fetchStatus
  | parseCertificate
  | certificateChain

/-- The message. -/
def FixedCheck.text : FixedCheck → Str
  | .missingHeader signer => lit "missing " ++ signer.HEADER ++ lit " header"
  | .missingHeaders => lit "missing PayPal signature headers"
  | .malformedHeader signer => lit "malformed " ++ signer.HEADER ++ lit " header"
  | .signatureEncoding => lit "invalid signature encoding"
  | .transmissionSigEncoding => lit "invalid paypal-transmission-sig encoding"
  | .timestamp => lit "invalid timestamp"
  | .replayWindow => lit "timestamp outside replay window"
  | .mismatch => lit "signature mismatch"
  | .noMatch => lit "no matching signature"
  | .certUrlScheme => lit "paypal-cert-url must be https"
  | .certUrlNoHost => lit "invalid paypal-cert-url: no host"
  | .noCertificate => lit "paypal cert: no certificate found in response"
  | .keyType => lit "paypal cert: not an RSA key"

/-- The message, up to what it quotes. -/
def QuotingCheck.before : QuotingCheck → Str
  | .authAlgo => lit "unsupported paypal-auth-algo "
  | .certUrl => lit "invalid paypal-cert-url: "
  | .certHost => lit "paypal-cert-url host "
  | .fetch => lit "paypal cert: fetch failed: "
  | .fetchStatus => lit "paypal cert: fetch: status "
  | .parseCertificate => lit "paypal cert: parse certificate: "
  | .certificateChain => lit "paypal cert: certificate chain: "

/-- The message, past what it quotes. -/
def QuotingCheck.after : QuotingCheck → Str
  | .certHost => lit " is not a trusted PayPal host"
  | _ => []

/-- The buckets, in the order they are tried, each with its patterns; of a pattern, every
    needle is to occur. -/
def TAXONOMY : List (Str × List (List Str)) :=
  [(lit "missing header", [[lit "missing", lit "header"]]),
   (lit "stale timestamp", [[lit "outside replay window"]]),
   (lit "cert host rejected", [[lit "not a trusted PayPal host"], [lit "must be https"],
     [lit "invalid paypal-cert-url"]]),
   (lit "cert chain invalid", [[lit "certificate chain"]]),
   (lit "unsupported algorithm", [[lit "unsupported paypal-auth-algo"]]),
   (lit "signature mismatch", [[lit "signature mismatch"], [lit "no matching signature"]]),
   (lit "bad encoding", [[lit "encoding"], [lit "malformed"], [lit "invalid timestamp"],
     [lit "parse certificate"], [lit "no certificate found"]])]

/-- The bucket a check belongs in. -/
def FixedCheck.bucket : FixedCheck → Str
  | .missingHeader _ | .missingHeaders => lit "missing header"
  | .replayWindow => lit "stale timestamp"
  | .certUrlScheme | .certUrlNoHost => lit "cert host rejected"
  | .mismatch | .noMatch => lit "signature mismatch"
  | .malformedHeader _ | .signatureEncoding | .transmissionSigEncoding | .timestamp
  | .noCertificate => lit "bad encoding"
  | .keyType => lit "other"

def QuotingCheck.bucket : QuotingCheck → Str
  | .certUrl | .certHost => lit "cert host rejected"
  | .certificateChain => lit "cert chain invalid"
  | .authAlgo => lit "unsupported algorithm"
  | .parseCertificate => lit "bad encoding"
  | .fetch | .fetchStatus => lit "other"

/-- A failed check, and what it quotes. -/
inductive Rejection where
  | fixed (check : FixedCheck)
  | quoting (check : QuotingCheck) (quoted : Msg)

def Rejection.text (printable : Nat → Bool) : Rejection → Str
  | .fixed check => check.text
  | .quoting check quoted => check.before ++ quoted.render printable ++ check.after

def Rejection.bucket : Rejection → Str
  | .fixed check => check.bucket
  | .quoting check _ => check.bucket

/-- The text has one of the patterns. -/
def hits (text : Str) (patterns : List (List Str)) : Bool :=
  patterns.any fun needles => needles.all (contains text)

/-- The patterns of the buckets that are tried before one; of “other”, all of them. -/
def earlier (bucket : Str) : List (List (List Str)) :=
  (TAXONOMY.takeWhile fun b => b.1 != bucket).map Prod.snd

/-- What a rejection quotes, if anything, has no pattern of a bucket tried before its own. -/
def Rejection.Clear (printable : Nat → Bool) : Rejection → Prop
  | .fixed _ => True
  | .quoting check quoted =>
    ∀ patterns ∈ earlier check.bucket, hits (quoted.render printable) patterns = false

/-! ## The classifier -/

/-- The classifier gives the first bucket that is hit. -/
theorem classifyReason_eq (text : Str) :
    classifyReason text =
      ((TAXONOMY.find? fun b => hits text b.2).map Prod.fst).getD (lit "other") := by
  have hcons : ∀ (b : Str × List (List Str)) (rest : List (Str × List (List Str))),
      (((b :: rest).find? fun b => hits text b.2).map Prod.fst).getD (lit "other") =
        if hits text b.2 then b.1
        else ((rest.find? fun b => hits text b.2).map Prod.fst).getD (lit "other") := by
    intro b rest
    rw [List.find?_cons]
    cases hits text b.2 <;> rfl
  unfold classifyReason
  simp only [TAXONOMY, hcons, List.find?_nil, Option.map_none, Option.getD_none]
  simp only [hits, List.any_cons, List.any_nil, List.all_cons, List.all_nil, Bool.and_true,
    Bool.or_false, Bool.or_assoc]

/-- Of buckets under different names, the first that is hit has the name where that one is
    hit and none before it is. -/
theorem first_eq_iff {B : Type} {hit : B → Bool} {name other : Str} {buckets : List (Str × B)}
    (hown : ∀ b ∈ buckets, b.1 = name → hit b.2 = true)
    (hname : other = name ∨ ∃ b ∈ buckets, b.1 = name) :
    ((buckets.find? fun b => hit b.2).map Prod.fst).getD other = name ↔
      ∀ x ∈ (buckets.takeWhile fun b => b.1 != name).map Prod.snd, hit x = false := by
  induction buckets with
  | nil =>
    rcases hname with rfl | ⟨b, hb, -⟩
    · exact iff_of_true rfl nofun
    · exact absurd hb List.not_mem_nil
  | cons b buckets ih =>
    rw [List.forall_mem_cons] at hown
    rw [List.find?_cons]
    by_cases hb : b.1 = name
    · rw [List.takeWhile_cons_of_neg (by simp [hb]), hown.1 hb]
      exact iff_of_true hb nofun
    · rw [List.takeWhile_cons_of_pos (by simp [hb]), List.map_cons, List.forall_mem_cons]
      cases hhit : hit b.2 with
      | true => exact iff_of_false hb (fun h => Bool.noConfusion h.1)
      | false =>
        have hrest : other = name ∨ ∃ b ∈ buckets, b.1 = name := by
          rw [List.exists_mem_cons_iff, or_iff_right hb] at hname
          exact hname
        rw [← ih hown.2 hrest, and_iff_right rfl]

def FixedCheck.all : List FixedCheck :=
  [.missingHeader .github, .missingHeader .shopify, .missingHeader .stripe, .missingHeaders,
   .malformedHeader .github, .malformedHeader .shopify, .malformedHeader .stripe,
   .signatureEncoding, .transmissionSigEncoding, .timestamp, .replayWindow, .mismatch, .noMatch,
   .certUrlScheme, .certUrlNoHost, .noCertificate, .keyType]

theorem FixedCheck.mem_all (check : FixedCheck) : check ∈ FixedCheck.all := by
  cases check with
  | missingHeader signer => cases signer <;> simp [FixedCheck.all]
  | malformedHeader signer => cases signer <;> simp [FixedCheck.all]
  | _ => simp [FixedCheck.all]

theorem fixed_filed (check : FixedCheck) : classifyReason check.text = check.bucket := by
  have hall : ∀ c ∈ FixedCheck.all, classifyReason c.text = c.bucket := by decide +kernel
  exact hall check check.mem_all

def QuotingCheck.all : List QuotingCheck :=
  [.authAlgo, .certUrl, .certHost, .fetch, .fetchStatus, .parseCertificate, .certificateChain]

theorem QuotingCheck.mem_all (check : QuotingCheck) : check ∈ QuotingCheck.all := by
  cases check <;> simp [QuotingCheck.all]

/-- The message of a check that quotes has a pattern of its own bucket, and its words make
    no needle of one before it, alone or with what is quoted. -/
theorem quoting_words : ∀ check ∈ QuotingCheck.all,
    (∀ b ∈ TAXONOMY, b.1 = check.bucket → ∃ needles ∈ b.2, ∀ needle ∈ needles,
      contains check.before needle = true ∨ contains check.after needle = true) ∧
    (lit "other" = check.bucket ∨ ∃ b ∈ TAXONOMY, b.1 = check.bucket) ∧
    ∀ patterns ∈ earlier check.bucket, ∀ needles ∈ patterns, ∀ needle ∈ needles,
      apart check.before needle = true ∧
        apart check.after.reverse needle.reverse = true := by
  decide +kernel

/-- A check that quotes is filed in its bucket exactly where the quoted text has no pattern
    of one before. -/
theorem quoting_filed_iff (check : QuotingCheck) (quoted : Str) :
    classifyReason (check.before ++ quoted ++ check.after) = check.bucket ↔
      ∀ patterns ∈ earlier check.bucket, hits quoted patterns = false := by
  obtain ⟨hown, hname, hapart⟩ := quoting_words check check.mem_all
  have hhits : ∀ b ∈ TAXONOMY, b.1 = check.bucket →
      hits (check.before ++ quoted ++ check.after) b.2 = true := by
    intro b hb hbucket
    obtain ⟨needles, hneedles, hall⟩ := hown b hb hbucket
    rw [hits, List.any_eq_true]
    refine ⟨needles, hneedles, List.all_eq_true.mpr ?_⟩
    intro needle hneedle
    rw [contains_iff]
    rcases hall needle hneedle with hbefore | hafter
    · exact List.infix_append_of_infix_left
        (List.infix_append_of_infix_left (contains_iff.mp hbefore))
    · exact List.infix_append_of_infix_right (contains_iff.mp hafter)
  rw [classifyReason_eq, first_eq_iff hhits hname]
  refine forall₂_congr fun patterns hpatterns => ?_
  have hquoted : hits (check.before ++ quoted ++ check.after) patterns = hits quoted patterns := by
    unfold hits
    rw [Bool.eq_iff_iff, List.any_eq_true, List.any_eq_true]
    refine exists_congr fun needles => and_congr_right fun hneedles => ?_
    rw [List.all_eq_true, List.all_eq_true]
    refine forall₂_congr fun needle hneedle => ?_
    obtain ⟨hbefore, hafter⟩ := hapart patterns hpatterns needles hneedles needle hneedle
    rw [contains_append_of_apart_reverse hafter, contains_append_of_apart hbefore]
  rw [hquoted]

theorem filed_iff (printable : Nat → Bool) (r : Rejection) :
    classifyReason (r.text printable) = r.bucket ↔ r.Clear printable := by
  cases r with
  | fixed check => exact iff_of_true (fixed_filed check) trivial
  | quoting check quoted => exact quoting_filed_iff check (quoted.render printable)

theorem fetchStatus_clear (printable : Nat → Bool) (status : Int) :
    (Rejection.quoting .fetchStatus [.text (intStr status)]).Clear printable := by
  have hletter : ∀ patterns ∈ earlier QuotingCheck.fetchStatus.bucket, ∀ needles ∈ patterns,
      ∃ needle ∈ needles, ∃ c ∈ needle, 57 < c := by decide +kernel
  intro patterns hpatterns
  rw [hits, List.any_eq_false]
  intro needles hneedles hall
  obtain ⟨needle, hneedle, c, hc, hlarge⟩ := hletter patterns hpatterns needles hneedles
  have hinfix := contains_iff.mp (List.all_eq_true.mp hall needle hneedle)
  have hmem : c ∈ intStr status ++ [] := hinfix.subset hc
  rw [List.append_nil] at hmem
  have hdigit := intStr_le c hmem
  omega

/-! ## The check that fails -/

section Checks
variable {Certificate PublicKey : Type}

/-- Of one HMAC of the body. -/
def bodyCheck (hmac : Bytes → Bytes → Bytes) (signer : Signer) (PREFIX : Str)
    (decode : Str → Except Exc Bytes) (secret rawBody : Bytes) (headers : Headers) :
    Option Rejection :=
  let header := (headers.get signer.HEADER).getD []
  if header = [] then some (.fixed (.missingHeader signer))
  else if !startsWith header PREFIX then some (.fixed (.malformedHeader signer))
  else match decode (header.drop PREFIX.length) with
    | .error e => if e.isValueError then some (.fixed .signatureEncoding) else none
    | .ok got => if got = hmac secret rawBody then none else some (.fixed .mismatch)

/-- Of Stripe's timestamp and candidates. -/
def stripeCheck (hmac : Bytes → Bytes → Bytes) (round : ℚ → ℚ) (v : stripe.StripeVerifier)
    (rawBody : Bytes) (headers : Headers) (now : Datetime) : Option Rejection :=
  let header := (headers.get stripe.HEADER).getD []
  if header = [] then some (.fixed (.missingHeader .stripe))
  else
    let (timestamp, signatures) := stripe.parseHeader header
    if timestamp = [] ∨ signatures = [] then some (.fixed (.malformedHeader .stripe))
    else match pyInt timestamp with
      | none => some (.fixed .timestamp)
      | some ts =>
        match stripe.freshness round v.replayWindow now ts with
        | .error (.verificationError _) => some (.fixed .replayWindow)
        | .error _ => none
        | .ok () =>
          match encodeAscii timestamp with
          | none => none
          | some t =>
            match stripe.anyMatch (hmac v.secret (stripe.signedPayload t rawBody)) signatures with
            | .error (.verificationError _) => some (.fixed .noMatch)
            | _ => none

/-- Of the host of the certificate's URL. -/
def hostCheck (bracketedHost : Str → Option Msg) (rawUrl : Str) : Option Rejection :=
  match urlparse bracketedHost rawUrl with
  | .error m => some (.quoting .certUrl m)
  | .ok parsed =>
    if parsed.scheme ≠ lit "https" then some (.fixed .certUrlScheme)
    else
      let host := lower parsed.hostname
      if host = [] then some (.fixed .certUrlNoHost)
      else if paypal.trustedHost host then none
      else some (.quoting .certHost [.repr host])

variable (lib : Libraries Certificate PublicKey)

/-- Of the certificates a URL answers with. -/
def chainCheck (pemData : Bytes) : Option Rejection :=
  match lib.loadPem pemData with
  | .error m => some (.quoting .parseCertificate m)
  | .ok [] => some (.fixed .noCertificate)
  | .ok (leaf :: intermediates) =>
    match lib.verifyChain leaf intermediates with
    | .error m => some (.quoting .certificateChain m)
    | .ok () => none

/-- Of getting the certificate. -/
def certCheck (cache : paypal.CertCache Certificate) (certUrl : Str) (moment : Moment) :
    Option Rejection :=
  match cache.get certUrl moment.cacheRead with
  | some _ => none
  | none =>
    match hostCheck lib.bracketedHost certUrl with
    | some r => some r
    | none =>
      match moment.clientGet certUrl with
      | .error (.httpError m) => some (.quoting .fetch m)
      | .error (.invalidURL _) => none
      | .ok response =>
        if response.statusCode ≠ 200 then
          some (.quoting .fetchStatus [.text (intStr response.statusCode)])
        else chainCheck lib (response.content.take paypal.CERT_MAX_BYTES)

/-- Of the signature under the certificate's key. -/
def signatureCheck (publicKey : PublicKey) (transmissionId transmissionTime webhookId : Str)
    (body : Bytes) (signatureB64 : Str) : Option Rejection :=
  match b64decode signatureB64 with
  | none => some (.fixed .transmissionSigEncoding)
  | some signature =>
    match paypal.signedMessage transmissionId transmissionTime webhookId body with
    | .error _ => none
    | .ok message =>
      if lib.rsaVerify publicKey signature message then none else some (.fixed .mismatch)

/-- Of PayPal's headers, then of the certificate, then of the signature. -/
def paypalCheck (v : paypal.PayPalVerifier Certificate) (rawBody : Bytes) (headers : Headers)
    (moment : Moment) : Option Rejection :=
  let transmissionId := (headers.get (lit "paypal-transmission-id")).getD []
  let transmissionTime := (headers.get (lit "paypal-transmission-time")).getD []
  let signatureB64 := (headers.get (lit "paypal-transmission-sig")).getD []
  let certUrl := (headers.get (lit "paypal-cert-url")).getD []
  let authAlgo := headers.get (lit "paypal-auth-algo")
  if transmissionId = [] ∨ transmissionTime = [] ∨ signatureB64 = [] ∨ certUrl = [] then
    some (.fixed .missingHeaders)
  else if lower (authAlgo.getD []) ≠ lower paypal.AUTH_ALGO then
    some (.quoting .authAlgo
      [match authAlgo with
        | some algo => .repr algo
        | none => .text (lit "None")])
  else
    match (paypal.cert lib v.certs certUrl moment).1 with
    | .error _ => certCheck lib v.certs certUrl moment
    | .ok cert =>
      match lib.publicKey cert with
      | none => some (.fixed .keyType)
      | some publicKey =>
        signatureCheck lib publicKey transmissionId transmissionTime v.webhookId rawBody
          signatureB64

/-- The check of `verify` that a request fails. -/
def failedCheck (v : Verifier Certificate) (rawBody : Bytes) (headers : Headers)
    (moment : Moment) : Option Rejection :=
  match v with
  | .stripe s => stripeCheck lib.hmac lib.round s rawBody headers moment.now
  | .github g =>
    bodyCheck lib.hmac .github github.PREFIX decodeHex g.secret rawBody headers
  | .shopify s => bodyCheck lib.hmac .shopify [] shopify.decode s.secret rawBody headers
  | .paypal p => paypalCheck lib p rawBody headers moment

/-- What is raised is the message of the check that failed, or none did. -/
def Tells {α : Type} (printable : Nat → Bool) (result : Except Exc α) :
    Option Rejection → Prop
  | none => ∀ m, result ≠ .error (.verificationError m)
  | some r => ∃ m, result = .error (.verificationError m) ∧ m.render printable = r.text printable

variable {lib} {printable : Nat → Bool}

theorem Tells.ok {α : Type} {a : α} : Tells printable (.ok a : Except Exc α) none := by
  intro m hraised
  cases hraised

theorem Tells.other {α : Type} {e : Exc} (h : ∀ m, e ≠ .verificationError m) :
    Tells printable (.error e : Except Exc α) none :=
  fun m hraised => h m (Except.error.inj hraised)

theorem Tells.fixed {α : Type} {check : FixedCheck} {t : Str} (h : t = check.text) :
    Tells printable (.error (.verificationError [.text t]) : Except Exc α)
      (some (.fixed check)) := by
  refine ⟨_, rfl, ?_⟩
  rw [h]
  exact List.append_nil _

theorem Tells.quoting {α : Type} {check : QuotingCheck} {m quoted : Msg}
    (h : m.render printable = check.before ++ quoted.render printable ++ check.after) :
    Tells printable (.error (.verificationError m) : Except Exc α)
      (some (.quoting check quoted)) :=
  ⟨m, rfl, h⟩

theorem Tells.quotingLast {α : Type} (check : QuotingCheck) {quoted : Msg}
    (h : check.after = []) :
    Tells printable (.error (.verificationError (.text check.before :: quoted)) : Except Exc α)
      (some (.quoting check quoted)) := by
  apply Tells.quoting
  rw [h, List.append_nil]
  rfl

theorem Tells.raised {α β : Type} {e : Exc} {check : Option Rejection}
    (h : Tells printable (.error e : Except Exc α) check) :
    Tells printable (.error e : Except Exc β) check := by
  cases check with
  | none =>
    intro m hraised
    exact h m (congrArg Except.error (Except.error.inj hraised))
  | some r =>
    obtain ⟨m, hraised, hm⟩ := h
    exact ⟨m, congrArg Except.error (Except.error.inj hraised), hm⟩

theorem Tells.ite {α : Type} {c : Prop} [Decidable c] {result result' : Except Exc α}
    {check check' : Option Rejection} (h : c → Tells printable result check)
    (h' : ¬ c → Tells printable result' check') :
    Tells printable (if c then result else result') (if c then check else check') := by
  by_cases hc : c
  · rw [if_pos hc, if_pos hc]
    exact h hc
  · rw [if_neg hc, if_neg hc]
    exact h' hc

theorem bodyCheck_tells {hmac : Bytes → Bytes → Bytes} (signer : Signer) {PREFIX : Str}
    {decode : Str → Except Exc Bytes} {secret rawBody : Bytes} {headers : Headers}
    (hdecode : ∀ s e, decode s = .error e → e.isValueError = true) :
    Tells printable (verifyBody hmac signer.HEADER PREFIX decode secret rawBody headers)
      (bodyCheck hmac signer PREFIX decode secret rawBody headers) := by
  unfold verifyBody bodyCheck
  refine .ite (fun _ => .fixed rfl) fun _ => .ite (fun _ => .fixed rfl) fun _ => ?_
  cases hgot : decode (((headers.get signer.HEADER).getD []).drop PREFIX.length) with
  | error e =>
    simp only [hdecode _ e hgot, if_true]
    exact .fixed rfl
  | ok got => exact .ite (fun _ => .ok) fun _ => .fixed rfl

theorem stripeCheck_tells {hmac : Bytes → Bytes → Bytes} {round : ℚ → ℚ}
    {v : stripe.StripeVerifier} {rawBody : Bytes} {headers : Headers} {now : Datetime} :
    Tells printable (stripe.verify hmac round v rawBody headers now)
      (stripeCheck hmac round v rawBody headers now) := by
  unfold stripe.verify stripeCheck
  simp only
  generalize stripe.parseHeader ((headers.get stripe.HEADER).getD []) = parsed
  obtain ⟨timestamp, signatures⟩ := parsed
  refine .ite (fun _ => .fixed rfl) fun _ => .ite (fun _ => .fixed rfl) fun _ => ?_
  cases pyInt timestamp with
  | none => exact .fixed rfl
  | some ts =>
    simp only
    rcases stripe.freshness_cases round v.replayWindow now ts with
      ⟨-, -, hover⟩ | ⟨-, hfresh | hstale⟩
    · rw [hover]
      exact .other fun m => by simp
    · rw [hfresh]
      simp only
      cases encodeAscii timestamp with
      | none => exact .other fun m => by simp
      | some t =>
        simp only
        rcases stripe.anyMatch_cases (hmac v.secret (stripe.signedPayload t rawBody))
          signatures with hok | hnone
        · rw [hok]
          exact .ok
        · rw [hnone]
          exact .fixed rfl
    · rw [hstale]
      exact .fixed rfl

theorem hostCheck_tells (bracketedHost : Str → Option Msg) (rawUrl : Str) :
    Tells printable (paypal.checkCertHost bracketedHost rawUrl)
      (hostCheck bracketedHost rawUrl) := by
  unfold paypal.checkCertHost hostCheck
  cases urlparse bracketedHost rawUrl with
  | error m => exact .quotingLast .certUrl rfl
  | ok parsed =>
    refine .ite (fun _ => .fixed rfl) fun _ => .ite (fun _ => .fixed rfl) fun _ =>
      .ite (fun _ => .ok) fun _ => .quoting ?_
    simp [Msg.render, QuotingCheck.before, QuotingCheck.after]

theorem hostCheck_none {bracketedHost : Str → Option Msg} {rawUrl : Str}
    (h : hostCheck bracketedHost rawUrl = none) :
    paypal.checkCertHost bracketedHost rawUrl = .ok () := by
  have htells := @hostCheck_tells (fun _ => false) bracketedHost rawUrl
  rw [h] at htells
  rcases paypal.checkCertHost_contract bracketedHost rawUrl with hok | ⟨m, hraised⟩
  · exact hok
  · exact absurd hraised (htells m)

theorem chainCheck_tells (pemData : Bytes) :
    Tells printable (paypal.parseCertChain lib pemData) (chainCheck lib pemData) := by
  unfold paypal.parseCertChain chainCheck
  cases lib.loadPem pemData with
  | error m => exact .quotingLast .parseCertificate rfl
  | ok certificates =>
    cases certificates with
    | nil => exact .fixed rfl
    | cons leaf intermediates =>
      simp only
      cases lib.verifyChain leaf intermediates with
      | error m => exact .quotingLast .certificateChain rfl
      | ok u => exact .ok

theorem certCheck_tells (cache : paypal.CertCache Certificate) (certUrl : Str)
    (moment : Moment) :
    Tells printable (paypal.cert lib cache certUrl moment).1
      (certCheck lib cache certUrl moment) := by
  unfold paypal.cert paypal.certTraced certCheck
  cases cache.get certUrl moment.cacheRead with
  | some cached => exact .ok
  | none =>
    simp only
    cases hcheck : hostCheck lib.bracketedHost certUrl with
    | some r =>
      have hhost := @hostCheck_tells printable lib.bracketedHost certUrl
      rw [hcheck] at hhost
      obtain ⟨m, hraised, hm⟩ := hhost
      rw [hraised]
      exact ⟨m, rfl, hm⟩
    | none =>
      simp only [hostCheck_none hcheck]
      cases moment.clientGet certUrl with
      | error failure =>
        cases failure with
        | httpError m => exact .quotingLast .fetch rfl
        | invalidURL m => exact .other fun m => by simp
      | ok response =>
        simp only
        by_cases hstatus : response.statusCode ≠ 200
        · rw [if_pos hstatus, if_pos hstatus]
          apply Tells.quoting
          simp [Msg.render, QuotingCheck.before, QuotingCheck.after]
        · rw [if_neg hstatus, if_neg hstatus]
          have hchain := @chainCheck_tells _ _ lib printable
            (response.content.take paypal.CERT_MAX_BYTES)
          cases hparsed : paypal.parseCertChain lib
            (response.content.take paypal.CERT_MAX_BYTES) <;> rwa [hparsed] at hchain

theorem signatureCheck_tells {key : PublicKey} {id time webhookId : Str} {body : Bytes}
    {sig : Str} :
    Tells printable (paypal.verifySignature lib key id time webhookId body sig)
      (signatureCheck lib key id time webhookId body sig) := by
  unfold paypal.verifySignature signatureCheck
  cases b64decode sig with
  | none => exact .fixed rfl
  | some signature =>
    simp only
    cases hmessage : paypal.signedMessage id time webhookId body with
    | error e =>
      unfold paypal.signedMessage at hmessage
      split at hmessage
      · cases hmessage
      · rw [← Except.error.inj hmessage]
        exact .other fun m => by simp
    | ok message => exact .ite (fun _ => .ok) fun _ => .fixed rfl

theorem paypalCheck_tells {v : paypal.PayPalVerifier Certificate} {rawBody : Bytes}
    {headers : Headers} {moment : Moment} :
    Tells printable (paypal.verify lib v rawBody headers moment).1
      (paypalCheck lib v rawBody headers moment) := by
  unfold paypal.verify paypal.verifyTraced paypalCheck
  simp only
  by_cases hmissing : (headers.get (lit "paypal-transmission-id")).getD [] = [] ∨
      (headers.get (lit "paypal-transmission-time")).getD [] = [] ∨
      (headers.get (lit "paypal-transmission-sig")).getD [] = [] ∨
      (headers.get (lit "paypal-cert-url")).getD [] = []
  · rw [if_pos hmissing, if_pos hmissing]
    exact .fixed rfl
  · rw [if_neg hmissing, if_neg hmissing]
    by_cases halgo : lower ((headers.get (lit "paypal-auth-algo")).getD []) ≠
        lower paypal.AUTH_ALGO
    · rw [if_pos halgo, if_pos halgo]
      exact .quotingLast .authAlgo rfl
    · rw [if_neg halgo, if_neg halgo]
      have hcert := @certCheck_tells _ _ lib printable v.certs
        ((headers.get (lit "paypal-cert-url")).getD []) moment
      rw [paypal.cert] at hcert ⊢
      cases hresult : paypal.certTraced lib v.certs
        ((headers.get (lit "paypal-cert-url")).getD []) moment with
      | mk outcome rest =>
      obtain ⟨result, certs⟩ := outcome
      rw [hresult] at hcert
      cases result with
      | error e =>
        exact hcert.raised
      | ok cert =>
        simp only
        cases lib.publicKey cert with
        | none => exact .fixed rfl
        | some key => exact signatureCheck_tells

/-- What `verify` raises is the message of the check that failed. -/
theorem verify_tells (v : Verifier Certificate) (rawBody : Bytes) (headers : Headers)
    (moment : Moment) :
    Tells printable (v.verify lib rawBody headers moment).1
      (failedCheck lib v rawBody headers moment) := by
  cases v with
  | stripe s => exact stripeCheck_tells
  | github g => exact bodyCheck_tells .github fun _ _ => decodeHex_error
  | shopify s => exact bodyCheck_tells .shopify fun _ _ => shopify.decode_error
  | paypal p => exact paypalCheck_tells

/-! ## Where a rejection is filed -/

/-- A rejection is filed in the bucket of the check that failed. -/
def Filed (lib : Libraries Certificate PublicKey) (v : Verifier Certificate) (rawBody : Bytes)
    (headers : Headers) (moment : Moment) : Prop :=
  ∀ m, (v.verify lib rawBody headers moment).1 = .error (.verificationError m) →
    ∃ r, failedCheck lib v rawBody headers moment = some r ∧
      classifyReason (m.render lib.printable) = r.bucket

/-- **The buckets.** A rejection is filed under the check that made it exactly where that
    check quotes nothing, or a text without any pattern of a bucket that is tried before
    the check's own. -/
theorem classified_iff (lib : Libraries Certificate PublicKey) (v : Verifier Certificate)
    (rawBody : Bytes) (headers : Headers) (moment : Moment) :
    Filed lib v rawBody headers moment ↔
      ∀ r ∈ failedCheck lib v rawBody headers moment, r.Clear lib.printable := by
  have htells := @verify_tells _ _ lib lib.printable v rawBody headers moment
  unfold Filed
  cases hcheck : failedCheck lib v rawBody headers moment with
  | none =>
    rw [hcheck] at htells
    exact iff_of_true (fun m hraised => absurd hraised (htells m)) (by simp)
  | some r =>
    rw [hcheck] at htells
    obtain ⟨m, hraised, hm⟩ := htells
    simp only [Option.mem_some_iff, forall_eq', Option.some.injEq, exists_eq_left']
    rw [← filed_iff, ← hm]
    refine ⟨fun h => h m hraised, ?_⟩
    intro hfiled m' hraised'
    rw [hraised] at hraised'
    obtain rfl := Exc.verificationError.inj (Except.error.inj hraised')
    exact hfiled

end Checks

/-! ## A host and an algorithm -/

/-- A request that names a certificate and an algorithm. -/
def naming (certUrl algo : String) : Headers :=
  [(bytesLit "paypal-transmission-id", bytesLit "i"),
   (bytesLit "paypal-transmission-time", bytesLit "t"),
   (bytesLit "paypal-transmission-sig", bytesLit "AA=="),
   (bytesLit "paypal-cert-url", bytesLit certUrl),
   (bytesLit "paypal-auth-algo", bytesLit algo)]

def namingVerifier : Verifier Unit := .paypal ⟨lit "w", {}, by decide⟩

/-- A host that is not trusted, and an algorithm that is not supported, named so that they
    are filed as a missing header. -/
theorem classified_named :
    ¬ Filed Libraries.bare namingVerifier []
        (naming "https://missing-header.evil.com/c.pem" "SHA256withRSA") .bare ∧
    ¬ Filed Libraries.bare namingVerifier []
        (naming "https://api.paypal.com/c.pem" "missing header") .bare := by
  refine ⟨?_, ?_⟩
  · intro h
    obtain ⟨r, hr, hbucket⟩ := h [.text (lit "paypal-cert-url host "),
      .repr (lit "missing-header.evil.com"), .text (lit " is not a trusted PayPal host")]
      (by decide +kernel)
    obtain rfl : Rejection.quoting .certHost [.repr (lit "missing-header.evil.com")] = r :=
      Option.some.inj hr
    exact absurd hbucket (by decide +kernel)
  · intro h
    obtain ⟨r, hr, hbucket⟩ := h [.text (lit "unsupported paypal-auth-algo "),
      .repr (lit "missing header")] (by decide +kernel)
    obtain rfl : Rejection.quoting .authAlgo [.repr (lit "missing header")] = r :=
      Option.some.inj hr
    exact absurd hbucket (by decide +kernel)

end taxonomy
end HookGuard
