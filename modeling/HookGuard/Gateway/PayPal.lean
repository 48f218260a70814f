import HookGuard.Gateway.Verifier
import HookGuard.Lib.Base64
import HookGuard.Lib.Decimal
import HookGuard.Lib.Url

/- PayPal's signature shape (`hookguard_gateway/providers/paypal.py`): RSA over a
   message built from three headers, the webhook id and the CRC of the body, under
   a certificate fetched from the URL a header names. The URL is checked before
   anything is fetched (`checkCertHost`), and what is fetched is kept for an hour
   by its URL (`CertCache`). The message is of one webhook id and one CRC
   (`signedMessage_subscription`).

   The exceptions of the HTTP client are the one way out of the contract
   (`verify_contract_iff`): `verify` catches `httpx.HTTPError` and nothing else,
   so a URL that passes the host check and that the client cannot parse escapes as
   `InvalidURL`. -/
namespace HookGuard
open Py

namespace paypal

def AUTH_ALGO : Str := lit "SHA256withRSA"

/-- An hour, in microseconds. -/
def CERT_TTL : Int := 3600 * 10 ^ 6

def CERT_MAX_BYTES : Nat := 2 ^ 20

def CERT_HOST_ALLOWLIST : List Str := [lit "paypal.com"]

/-- One octet into the running CRC: eight steps of the reflected polynomial. -/
def crcStep (crc : UInt32) (x : UInt8) : UInt32 :=
  (List.range 8).foldl
    (fun c _ => if c &&& 1 = 1 then (c >>> 1) ^^^ 0xEDB88320 else c >>> 1)
    (crc ^^^ x.toUInt32)

/-- `zlib.crc32`. -/
def crc32 (body : Bytes) : UInt32 := body.foldl crcStep 0xFFFFFFFF ^^^ 0xFFFFFFFF

example : crc32 (bytesLit "123456789") = 0xCBF43926 := by decide +kernel

/-- `signed_message`. -/
def signedMessage (transmissionId transmissionTime webhookId : Str) (body : Bytes) :
    Except Exc Bytes :=
  match encodeUtf8 (transmissionId ++ [124] ++ transmissionTime ++ [124] ++ webhookId ++ [124] ++
    intStr (crc32 body).toNat) with
  | some m => .ok m
  | none => .error .unicodeEncodeError

theorem signedMessage_eq_ok {id time webhookId : Str} {body m : Bytes} :
    signedMessage id time webhookId body = .ok m ↔
      encodeUtf8 (id ++ [124] ++ time ++ [124] ++ webhookId ++ [124] ++
        intStr (crc32 body).toNat) = some m := by
  unfold signedMessage
  cases encodeUtf8 (id ++ [124] ++ time ++ [124] ++ webhookId ++ [124] ++
    intStr (crc32 body).toNat) <;> simp

/-- **One message, one subscription.** Whatever the two headers hold, the message
    says the webhook id and the CRC of the body: they are read back from its end,
    the digits first, then the id, which has no separator. -/
theorem signedMessage_subscription {id time w id' time' w' : Str} {body body' m : Bytes}
    (hw : 124 ∉ w) (hw' : 124 ∉ w') (h : signedMessage id time w body = .ok m)
    (h' : signedMessage id' time' w' body' = .ok m) : w = w' ∧ crc32 body = crc32 body' := by
  have hdigits : ∀ n : Int, 124 ∉ intStr n := by
    intro n hmem
    have := intStr_le 124 hmem
    omega
  have hjoined : id ++ [124] ++ time ++ [124] ++ w ++ [124] ++ intStr (crc32 body).toNat =
      id' ++ [124] ++ time' ++ [124] ++ w' ++ [124] ++ intStr (crc32 body').toNat :=
    encodeUtf8_injective (signedMessage_eq_ok.mp h) (signedMessage_eq_ok.mp h')
  obtain ⟨hrest, hcrc⟩ := last_separator (hdigits _) (hdigits _)
    (((List.append_cons ..).trans hjoined).trans (List.append_cons ..).symm)
  obtain ⟨-, hid⟩ := last_separator hw hw'
    (((List.append_cons ..).trans hrest).trans (List.append_cons ..).symm)
  refine ⟨hid, ?_⟩
  have hnat : ((crc32 body).toNat : Int) = (crc32 body').toNat := intStr_injective hcrc
  exact UInt32.toNat_inj.mp (Int.ofNat_inj.mp hnat)

/-- Two deliveries of one message: a separator moved, and bodies of one CRC. -/
theorem signedMessage_subscription_shifted :
    signedMessage (lit "a") (lit "b|c") (lit "W") (bytesLit "plumless") =
      .ok (bytesLit "a|b|c|W|1306201125") ∧
    signedMessage (lit "a|b") (lit "c") (lit "W") (bytesLit "buckeroo") =
      .ok (bytesLit "a|b|c|W|1306201125") ∧
    crc32 (bytesLit "plumless") = crc32 (bytesLit "buckeroo") := by
  have hfirst : signedMessage (lit "a") (lit "b|c") (lit "W") (bytesLit "plumless") =
      .ok (bytesLit "a|b|c|W|1306201125") := by decide +kernel
  have hsecond : signedMessage (lit "a|b") (lit "c") (lit "W") (bytesLit "buckeroo") =
      .ok (bytesLit "a|b|c|W|1306201125") := by decide +kernel
  have hid : 124 ∉ lit "W" := by decide
  exact ⟨hfirst, hsecond, (signedMessage_subscription hid hid hfirst hsecond).2⟩

/-- `host == domain or host.endswith("." + domain)`, for one of the domains. -/
def trustedHost (host : Str) : Bool :=
  CERT_HOST_ALLOWLIST.any (fun domain => host == domain || (46 :: domain).isSuffixOf host)

/-- `check_cert_host`. -/
def checkCertHost (bracketedHost : Str → Option Msg) (rawUrl : Str) : Except Exc Unit :=
  match urlparse bracketedHost rawUrl with
  | .error m => .error (.verificationError (.text (lit "invalid paypal-cert-url: ") :: m))
  | .ok parsed =>
    if parsed.scheme ≠ lit "https" then
      .error (verificationError "paypal-cert-url must be https")
    else
      let host := lower parsed.hostname
      if host = [] then .error (verificationError "invalid paypal-cert-url: no host")
      else if trustedHost host then .ok ()
      else .error (.verificationError
        [.text (lit "paypal-cert-url host "), .repr host,
          .text (lit " is not a trusted PayPal host")])

section Cache
variable {Certificate PublicKey : Type}

/-- `_CertCache`: certificates by their URL, each with the time it was fetched. -/
structure CertCache (Certificate : Type) where
  entries : List (Str × Certificate × Datetime) := []

/-- `get`, at the time the clock reads. -/
def CertCache.get (cache : CertCache Certificate) (url : Str) (now : Datetime) :
    Option Certificate :=
  match cache.entries.lookup url with
  | none => none
  | some (cert, fetchedAt) => if CERT_TTL < now.us - fetchedAt.us then none else some cert

def CertCache.set (cache : CertCache Certificate) (url : Str) (cert : Certificate)
    (now : Datetime) : CertCache Certificate :=
  ⟨(url, cert, now) :: cache.entries.filter (fun e => e.1 != url)⟩

/-- A request of the HTTP client, what it answered, and when that was in. -/
structure Fetch where
  url : Str
  answer : Except FetchFailure Response
  time : Datetime

/-- What a call does beside its answer. -/
structure Trace (Certificate PublicKey : Type) where
  asked : List Fetch := []
  /-- What `_cert` returned or raised, where it was called. -/
  obtained : Option (Except Exc Certificate) := none
  /-- The key the signature is checked with, the URL it is of, and when it was got. -/
  checked : Option (Str × PublicKey × Datetime) := none

structure PayPalVerifier (Certificate : Type) where
  webhookId : Str
  certs : CertCache Certificate := {}
  scalar : webhookId.all isScalar = true

/-- `_build`. -/
def build (route : Route) (_secret : Str) : Except Exc (PayPalVerifier Certificate) :=
  if route.webhookId = [] then .error (.valueError (msg "missing webhook_id"))
  else .ok ⟨route.webhookId, {}, by
    have h := route.scalar
    rw [List.all_append, Bool.and_eq_true] at h
    exact h.2⟩

variable (lib : Libraries Certificate PublicKey)

/-- `parse_cert_chain`. -/
def parseCertChain (pemData : Bytes) : Except Exc Certificate :=
  match lib.loadPem pemData with
  | .error m =>
    .error (.verificationError (.text (lit "paypal cert: parse certificate: ") :: m))
  | .ok [] => .error (verificationError "paypal cert: no certificate found in response")
  | .ok (leaf :: intermediates) =>
    match lib.verifyChain leaf intermediates with
    | .error m =>
      .error (.verificationError (.text (lit "paypal cert: certificate chain: ") :: m))
    | .ok () => .ok leaf

/-- `verify_signature`. -/
def verifySignature (publicKey : PublicKey) (transmissionId transmissionTime webhookId : Str)
    (body : Bytes) (signatureB64 : Str) : Except Exc Unit :=
  match b64decode signatureB64 with
  | none => .error (verificationError "invalid paypal-transmission-sig encoding")
  | some signature =>
    match signedMessage transmissionId transmissionTime webhookId body with
    | .error e => .error e
    | .ok message =>
      if lib.rsaVerify publicKey signature message then .ok ()
      else .error (verificationError "signature mismatch")

/-- `_cert`, with the URLs asked for and the last reading of the clock. -/
def certTraced (cache : CertCache Certificate) (certUrl : Str) (moment : Moment) :
    (Except Exc Certificate × CertCache Certificate) × List Fetch × Datetime :=
  match cache.get certUrl moment.cacheRead with
  | some cached => ((.ok cached, cache), [], moment.cacheRead)
  | none =>
    match checkCertHost lib.bracketedHost certUrl with
    | .error e => ((.error e, cache), [], moment.cacheRead)
    | .ok () =>
      let asked : List Fetch := [⟨certUrl, moment.clientGet certUrl, moment.cacheWrite⟩]
      match moment.clientGet certUrl with
      | .error (.httpError m) =>
        ((.error (.verificationError (.text (lit "paypal cert: fetch failed: ") :: m)), cache),
          asked, moment.cacheRead)
      | .error (.invalidURL m) => ((.error (.invalidURL m), cache), asked, moment.cacheRead)
      | .ok response =>
        if response.statusCode ≠ 200 then
          ((.error (.verificationError
            [.text (lit "paypal cert: fetch: status " ++ intStr response.statusCode)]), cache),
            asked, moment.cacheRead)
        else
          match parseCertChain lib (response.content.take CERT_MAX_BYTES) with
          | .error e => ((.error e, cache), asked, moment.cacheRead)
          | .ok cert => ((.ok cert, cache.set certUrl cert moment.cacheWrite), asked,
              moment.cacheWrite)

/-- `_cert`: the cached certificate, or the fetched one, and the cache after. -/
def cert (cache : CertCache Certificate) (certUrl : Str) (moment : Moment) :
    Except Exc Certificate × CertCache Certificate := (certTraced lib cache certUrl moment).1

/-- `PayPalVerifier.verify`, with what it does beside answering. -/
def verifyTraced (v : PayPalVerifier Certificate) (rawBody : Bytes) (headers : Headers)
    (moment : Moment) :
    (Except Exc Unit × PayPalVerifier Certificate) × Trace Certificate PublicKey :=
  let transmissionId := (headers.get (lit "paypal-transmission-id")).getD []
  let transmissionTime := (headers.get (lit "paypal-transmission-time")).getD []
  let signatureB64 := (headers.get (lit "paypal-transmission-sig")).getD []
  let certUrl := (headers.get (lit "paypal-cert-url")).getD []
  let authAlgo := headers.get (lit "paypal-auth-algo")
  if transmissionId = [] ∨ transmissionTime = [] ∨ signatureB64 = [] ∨ certUrl = [] then
    ((.error (verificationError "missing PayPal signature headers"), v), {})
  else if lower (authAlgo.getD []) ≠ lower AUTH_ALGO then
    let shown : Part := match authAlgo with
      | some algo => .repr algo
      | none => .text (lit "None")
    ((.error (.verificationError [.text (lit "unsupported paypal-auth-algo "), shown]), v), {})
  else
    match certTraced lib v.certs certUrl moment with
    | ((.error e, certs), asked, _) =>
      ((.error e, { v with certs }), { asked, obtained := some (.error e) })
    | ((.ok cert, certs), asked, time) =>
      match lib.publicKey cert with
      | none =>
        ((.error (verificationError "paypal cert: not an RSA key"), { v with certs }),
          { asked, obtained := some (.ok cert) })
      | some publicKey =>
        ((verifySignature lib publicKey transmissionId transmissionTime v.webhookId rawBody
          signatureB64, { v with certs }),
          { asked, obtained := some (.ok cert), checked := some (certUrl, publicKey, time) })

/-- `PayPalVerifier.verify`, and the verifier after it. -/
def verify (v : PayPalVerifier Certificate) (rawBody : Bytes) (headers : Headers)
    (moment : Moment) : Except Exc Unit × PayPalVerifier Certificate :=
  (verifyTraced lib v rawBody headers moment).1

/-! ## Lemmas -/

theorem checkCertHost_contract (bracketedHost : Str → Option Msg) (rawUrl : Str) :
    VerifierContract (checkCertHost bracketedHost rawUrl) := by
  unfold checkCertHost
  split
  · -- the URL does not parse
    exact .inr ⟨_, rfl⟩
  · split
    · -- its scheme is another
      exact .inr ⟨_, rfl⟩
    · simp only
      split
      · -- it has no host
        exact .inr ⟨_, rfl⟩
      · split
        · exact .inl rfl
        · exact .inr ⟨_, rfl⟩

variable {lib}

theorem parseCertChain_error {pem : Bytes} {e : Exc} (h : parseCertChain lib pem = .error e) :
    ∃ m, e = .verificationError m := by
  unfold parseCertChain at h
  split at h
  · exact ⟨_, (Except.error.inj h).symm⟩
  · exact ⟨_, (Except.error.inj h).symm⟩
  · split at h
    · exact ⟨_, (Except.error.inj h).symm⟩
    · cases h

/-- The message encodes: two headers are Latin-1, the webhook id was validated. -/
theorem signedMessage_ok {id time webhookId : Str} (hid : IsLatin1 id)
    (htime : IsLatin1 time) (hw : webhookId.all isScalar = true) (body : Bytes) :
    ∃ m, signedMessage id time webhookId body = .ok m := by
  have hcrc : (intStr (crc32 body).toNat).all isScalar = true :=
    isScalar_of_isLatin1 (isLatin1_of_isAscii (isAscii_intStr _))
  have hall : (id ++ [124] ++ time ++ [124] ++ webhookId ++ [124] ++
      intStr (crc32 body).toNat).all isScalar = true := by
    simp only [List.all_append, isScalar_of_isLatin1 hid, isScalar_of_isLatin1 htime, hw, hcrc,
      Bool.true_and, Bool.and_true]
    decide
  rw [← encodeUtf8_isSome] at hall
  obtain ⟨m, hm⟩ := Option.isSome_iff_exists.mp hall
  exact ⟨m, by simp only [signedMessage, hm]⟩

theorem verifySignature_contract {key : PublicKey} {id time webhookId : Str} {body : Bytes}
    {sig : Str} (hid : IsLatin1 id) (htime : IsLatin1 time)
    (hw : webhookId.all isScalar = true) :
    VerifierContract (verifySignature lib key id time webhookId body sig) := by
  obtain ⟨m, hm⟩ := signedMessage_ok hid htime hw body
  unfold verifySignature
  rw [hm]
  split
  · exact .inr ⟨_, rfl⟩
  · simp only
    split
    · exact .inl rfl
    · exact .inr ⟨_, rfl⟩

/-- The request passes the checks before the certificate, which `url` names. -/
structure Presents (headers : Headers) (url : Str) : Prop where
  id : (headers.get (lit "paypal-transmission-id")).getD [] ≠ []
  time : (headers.get (lit "paypal-transmission-time")).getD [] ≠ []
  sig : (headers.get (lit "paypal-transmission-sig")).getD [] ≠ []
  certUrl : (headers.get (lit "paypal-cert-url")).getD [] = url
  url_ne : url ≠ []
  algo : lower ((headers.get (lit "paypal-auth-algo")).getD []) = lower AUTH_ALGO

/-- The call fetches `url`: it is presented, not cached, and on a trusted host. -/
structure Fetches (lib : Libraries Certificate PublicKey) (v : PayPalVerifier Certificate)
    (headers : Headers) (moment : Moment) (url : Str) : Prop where
  presents : Presents headers url
  miss : v.certs.get url moment.cacheRead = none
  trusted : checkCertHost lib.bracketedHost url = .ok ()

variable {v : PayPalVerifier Certificate} {body : Bytes} {headers : Headers} {moment : Moment}

/-- Getting the certificate fails by the contract, or because the client cannot
    parse a URL that passed the checks. -/
theorem cert_error {cache : CertCache Certificate} {url : Str} {e : Exc}
    (h : (cert lib cache url moment).1 = .error e) :
    (∃ m, e = .verificationError m) ∨
    ∃ m, cache.get url moment.cacheRead = none ∧ checkCertHost lib.bracketedHost url = .ok () ∧
      moment.clientGet url = .error (.invalidURL m) ∧ e = .invalidURL m := by
  unfold cert certTraced at h
  split at h
  · cases h
  · next hmiss =>
    split at h
    · next e' he =>
      left
      have hc := checkCertHost_contract lib.bracketedHost url
      rw [he, verifierContract_error] at hc
      exact Except.error.inj h ▸ hc
    · next hhost =>
      split at h
      · exact .inl ⟨_, (Except.error.inj h).symm⟩
      · -- the one exception of the client that is not caught
        next m hget => exact .inr ⟨m, hmiss, hhost, hget, (Except.error.inj h).symm⟩
      · split at h
        · exact .inl ⟨_, (Except.error.inj h).symm⟩
        · split at h
          · next e' he => exact .inl (Except.error.inj h ▸ parseCertChain_error he)
          · cases h

theorem cert_invalidURL {cache : CertCache Certificate} {url : Str} {m : Msg}
    (hmiss : cache.get url moment.cacheRead = none)
    (htrusted : checkCertHost lib.bracketedHost url = .ok ())
    (hget : moment.clientGet url = .error (.invalidURL m)) :
    cert lib cache url moment = (.error (.invalidURL m), cache) := by
  simp only [cert, certTraced, hmiss, htrusted, hget]

theorem verify_absent (h : ∀ url, ¬ Presents headers url) :
    ∃ m, verify lib v body headers moment = (.error (.verificationError m), v) := by
  unfold verify verifyTraced
  simp only
  split
  · exact ⟨_, rfl⟩
  · next hne =>
    simp only [not_or] at hne
    split
    · exact ⟨_, rfl⟩
    · next halgo =>
      exact absurd ⟨hne.1, hne.2.1, hne.2.2.1, rfl, hne.2.2.2, not_not.mp halgo⟩ (h _)

theorem verify_presents {url : Str} (h : Presents headers url) :
    verify lib v body headers moment =
      match cert lib v.certs url moment with
      | (.error e, certs) => (.error e, { v with certs })
      | (.ok cert, certs) =>
        match lib.publicKey cert with
        | none => (.error (verificationError "paypal cert: not an RSA key"), { v with certs })
        | some publicKey =>
          (verifySignature lib publicKey ((headers.get (lit "paypal-transmission-id")).getD [])
            ((headers.get (lit "paypal-transmission-time")).getD []) v.webhookId body
            ((headers.get (lit "paypal-transmission-sig")).getD []), { v with certs }) := by
  obtain ⟨hid, htime, hsig, rfl, hne, halgo⟩ := h
  simp only [verify, verifyTraced, hid, htime, hsig, hne, halgo, or_self, if_false, ne_eq,
    not_true, cert]
  obtain ⟨⟨result, certs⟩, asked, time⟩ := certTraced lib v.certs _ moment
  cases result with
  | error e => rfl
  | ok c =>
    simp only
    cases lib.publicKey c <;> rfl

/-- The verifier keeps its contract unless it fetches a URL that the client cannot
    parse. -/
theorem verify_contract_iff :
    VerifierContract (verify lib v body headers moment).1 ↔
      ∀ url m, Fetches lib v headers moment url →
        moment.clientGet url ≠ .error (.invalidURL m) := by
  by_cases h : ∃ url, Presents headers url
  · -- the outcome is that of getting the certificate, then that of the signature
    obtain ⟨url, hp⟩ := h
    rw [verify_presents hp]
    cases hc : cert lib v.certs url moment with
    | mk result certs =>
    cases result with
    | error e =>
      simp only [verifierContract_error]
      refine ⟨?_, ?_⟩
      · intro hkept url' m' hfetches hget
        obtain ⟨m, rfl⟩ := hkept
        obtain ⟨hp', hmiss, htrusted⟩ := hfetches
        obtain rfl : url' = url := hp'.certUrl.symm.trans hp.certUrl
        rw [cert_invalidURL hmiss htrusted hget] at hc
        cases hc
      · intro hall
        rcases cert_error (e := e) (by rw [hc]) with hm | ⟨m, hmiss, htrusted, hget, -⟩
        · exact hm
        · exact absurd hget (hall url m ⟨hp, hmiss, htrusted⟩)
    | ok c =>
      refine iff_of_true ?_ ?_
      · simp only
        split
        · exact .inr ⟨_, rfl⟩
        · exact verifySignature_contract (Headers.getD_isLatin1) (Headers.getD_isLatin1)
            v.scalar
      · -- a certificate was found, so none of the client's exceptions was met
        intro url' m' hfetches hget
        obtain ⟨hp', hmiss, htrusted⟩ := hfetches
        obtain rfl : url' = url := hp'.certUrl.symm.trans hp.certUrl
        rw [cert_invalidURL hmiss htrusted hget] at hc
        cases hc
  · refine iff_of_true ?_ fun url m hf => absurd ⟨url, hf.presents⟩ h
    obtain ⟨m, hm⟩ : ∃ m, verify lib v body headers moment = (.error (.verificationError m), v) :=
      verify_absent fun url hp => h ⟨url, hp⟩
    rw [hm]
    exact .inr ⟨m, rfl⟩

end Cache

end paypal
end HookGuard
