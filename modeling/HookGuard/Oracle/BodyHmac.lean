import HookGuard.Gateway.BodyHmac
import HookGuard.Oracle.Agreement

/- The rest of what the Gateway is checked against: the Go verifiers of GitHub's and
   Shopify's shapes (`oracle/verifier/github.go`, `shopify.go`) and the Go Gateway
   signature (`oracle/gatewaysig/gatewaysig.go`), on the same strings as Stripe's.

   The hex decoders are one function (`decodeString_eq`). The base64 decoders are not: Go's
   ignores line breaks, which Python's strict mode refuses. On a line of text they are the
   same, and so are the verdicts (`body_signatures_agree`). -/
namespace HookGuard
open Py

namespace oracle

/-- `strings.CutPrefix`. -/
def cutPrefix (s pre : Str) : Option Str :=
  if startsWith s pre then some (s.drop pre.length) else none

/-- `base64.StdEncoding.DecodeString`, which ignores line breaks. -/
def decodeBase64 (s : Str) : Option Bytes := quanta (s.filter fun c => c != 10 && c != 13)

structure GitHubVerifier where
  Secret : Bytes

structure ShopifyVerifier where
  Secret : Bytes

variable (hmac : Bytes → Bytes → Bytes)

/-- `GitHubVerifier.Verify`; the error is its text. -/
def GitHubVerifier.Verify (v : GitHubVerifier) (rawBody : Bytes) (h : Headers) :
    Except Str Unit :=
  let header := (h.get (lit "X-Hub-Signature-256")).getD []
  if header = [] then .error (lit "missing X-Hub-Signature-256 header")
  else match cutPrefix header (lit "sha256=") with
    | none => .error (lit "malformed X-Hub-Signature-256 header")
    | some hexSig =>
      match decodeString hexSig with
      | none => .error (lit "invalid signature encoding")
      | some got =>
        if got = hmac v.Secret rawBody then .ok () else .error (lit "signature mismatch")

/-- `ShopifyVerifier.Verify`. -/
def ShopifyVerifier.Verify (v : ShopifyVerifier) (rawBody : Bytes) (h : Headers) :
    Except Str Unit :=
  let header := (h.get (lit "X-Shopify-Hmac-SHA256")).getD []
  if header = [] then .error (lit "missing X-Shopify-Hmac-SHA256 header")
  else match decodeBase64 header with
    | none => .error (lit "invalid signature encoding")
    | some got =>
      if got = hmac v.Secret rawBody then .ok () else .error (lit "signature mismatch")

namespace gatewaysig

def mac (secret provider body : Bytes) : Bytes := hmac secret (provider ++ bytesLit "." ++ body)

def Sign (secret provider body : Bytes) : Str := hex (mac hmac secret provider body)

def Verify (secret provider body : Bytes) (sigHex : Str) : Except Str Unit :=
  match decodeString sigHex with
  | none => .error (lit "invalid gateway signature encoding")
  | some got =>
    if got = mac hmac secret provider body then .ok ()
    else .error (lit "gateway signature mismatch")

end gatewaysig

example : decodeBase64 (lit "aG\nk=") = some (bytesLit "hi") := by decide
example : decodeBase64 (lit "AAAA==") = none := by decide

/-- The error that Python raises with this text. -/
def rejected (t : Str) : Exc := .verificationError [.text t]

def refused (t : Str) : Exc := .gatewaySignatureError [.text t]

variable {hmac}

theorem decodeString_decodeHex (s : Str) : decodeString s = (decodeHex s).toOption := by
  rw [decodeString_eq, decodeHex]
  cases hexRun s with
  | false => rfl
  | true => cases fromhex s <;> rfl

theorem github_agrees (secret body : Bytes) (headers : Headers) :
    github.verify hmac ⟨secret⟩ body headers =
      (GitHubVerifier.Verify hmac ⟨secret⟩ body headers).mapError rejected := by
  have hname : lit "X-Hub-Signature-256" = github.HEADER := rfl
  unfold github.verify verifyBody GitHubVerifier.Verify cutPrefix
  rw [hname]
  simp only
  generalize (headers.get github.HEADER).getD [] = header
  by_cases hempty : header = []
  · rw [if_pos hempty, if_pos hempty]
    rfl
  · rw [if_neg hempty, if_neg hempty, show lit "sha256=" = github.PREFIX from rfl]
    cases hstart : startsWith header github.PREFIX with
    | false => rfl
    | true =>
      simp only [if_true, decodeString_decodeHex, Bool.not_true, Bool.false_eq_true, if_false]
      cases hdecode : decodeHex (header.drop github.PREFIX.length) with
      | error e =>
        simp only [decodeHex_error hdecode, if_true]
        rfl
      | ok got =>
        simp only [Except.toOption]
        split <;> rfl

/-! ## Base64 -/

/-- A line of text. -/
def Line (header : Str) : Prop := 10 ∉ header ∧ 13 ∉ header

theorem decodeBase64_line {header : Str} (h : Line header) :
    decodeBase64 header = quanta header := by
  rw [decodeBase64, List.filter_eq_self.mpr]
  intro c hc
  rw [Bool.and_eq_true, bne_iff_ne, bne_iff_ne]
  exact ⟨fun h10 => h.1 (h10 ▸ hc), fun h13 => h.2 (h13 ▸ hc)⟩

theorem line_of_b64decode {header : Str} {b : Bytes} (h : b64decode header = some b) :
    Line header := by
  rw [b64decode_eq, ← a2bStrict_eq] at h
  have hall := a2bStrict_alphabet h
  refine ⟨?_, ?_⟩
  · intro hc
    rcases hall 10 hc with h10 | h10
    · cases h10
    · cases h10
  · intro hc
    rcases hall 13 hc with h13 | h13
    · cases h13
    · cases h13

/-- Python decodes what Go decodes on a line, and nothing else. -/
theorem b64decode_iff {header : Str} {b : Bytes} :
    b64decode header = some b ↔ decodeBase64 header = some b ∧ Line header := by
  refine ⟨?_, ?_⟩
  · intro h
    have hline := line_of_b64decode h
    rw [decodeBase64_line hline, ← b64decode_eq]
    exact ⟨h, hline⟩
  · intro h
    rw [b64decode_eq, ← decodeBase64_line h.2]
    exact h.1

/-- What a signature that decodes, or does not, is told. -/
def told (digest : Bytes) : Option Bytes → Except Str Unit
  | none => .error (lit "invalid signature encoding")
  | some got => if got = digest then .ok () else .error (lit "signature mismatch")

theorem told_ok_iff {digest : Bytes} {got : Option Bytes} :
    told digest got = .ok () ↔ got = some digest := by
  cases got with
  | none => simp [told]
  | some got => by_cases h : got = digest <;> simp [told, h]

theorem mapError_ok_iff {r : Except Str Unit} : r.mapError rejected = .ok () ↔ r = .ok () := by
  cases r with
  | error t => exact iff_of_false nofun nofun
  | ok u => exact iff_of_true rfl rfl

theorem mapError_inj {r r' : Except Str Unit} :
    r.mapError rejected = r'.mapError rejected ↔ r = r' := by
  cases r <;> cases r' <;> simp [Except.mapError, rejected]

theorem shopify_told (secret body : Bytes) (headers : Headers) :
    (∃ r : Except Str Unit, (headers.get shopify.HEADER).getD [] = [] ∧
      shopify.verify hmac ⟨secret⟩ body headers = r.mapError rejected ∧
      ShopifyVerifier.Verify hmac ⟨secret⟩ body headers = r ∧ r ≠ .ok ()) ∨
    (shopify.verify hmac ⟨secret⟩ body headers =
        (told (hmac secret body) (b64decode ((headers.get shopify.HEADER).getD []))).mapError
          rejected ∧
      ShopifyVerifier.Verify hmac ⟨secret⟩ body headers =
        told (hmac secret body) (decodeBase64 ((headers.get shopify.HEADER).getD []))) := by
  have hname : lit "X-Shopify-Hmac-SHA256" = shopify.HEADER := rfl
  unfold shopify.verify verifyBody ShopifyVerifier.Verify shopify.decode
  rw [hname]
  simp only
  generalize (headers.get shopify.HEADER).getD [] = header
  by_cases hempty : header = []
  · rw [if_pos hempty, if_pos hempty]
    exact .inl ⟨_, hempty, rfl, rfl, nofun⟩
  · rw [if_neg hempty, if_neg hempty, if_neg (by simp [startsWith])]
    refine .inr ⟨?_, ?_⟩
    · simp only [List.length_nil, List.drop_zero]
      cases b64decode header with
      | none => rfl
      | some got =>
        simp only [told]
        split <;> rfl
    · cases decodeBase64 header <;> rfl

/-- What is told tells whether there was a signature at all. -/
theorem told_eq_iff {digest : Bytes} {got : Option Bytes} :
    told digest got = told digest none ↔ got = none := by
  cases got with
  | none => simp
  | some got =>
    refine iff_of_false ?_ (Option.some_ne_none got)
    intro h
    unfold told at h
    simp only at h
    split at h
    · cases h
    · exact absurd (Except.error.inj h) (by decide)

/-- Shopify's verdicts are the same on a line of text, and so is the message, or where it is
    no signature to Go either. -/
theorem shopify_agrees (secret body : Bytes) (headers : Headers) :
    (shopify.verify hmac ⟨secret⟩ body headers = .ok () ↔
      ShopifyVerifier.Verify hmac ⟨secret⟩ body headers = .ok () ∧
        Line ((headers.get shopify.HEADER).getD [])) ∧
    (shopify.verify hmac ⟨secret⟩ body headers =
        (ShopifyVerifier.Verify hmac ⟨secret⟩ body headers).mapError rejected ↔
      Line ((headers.get shopify.HEADER).getD []) ∨
        decodeBase64 ((headers.get shopify.HEADER).getD []) = none) := by
  rcases shopify_told secret body headers with ⟨r, hempty, hpy, hgo, hr⟩ | ⟨hpy, hgo⟩
  · rw [hpy, hgo, hempty, mapError_ok_iff]
    exact ⟨iff_of_false hr fun h => hr h.1, iff_of_true rfl (.inl ⟨nofun, nofun⟩)⟩
  · rw [hpy, hgo, mapError_ok_iff, mapError_inj, told_ok_iff, told_ok_iff]
    generalize (headers.get shopify.HEADER).getD [] = header
    refine ⟨b64decode_iff, ?_⟩
    cases hread : b64decode header with
    | some b =>
      obtain ⟨hdecode, hline⟩ := b64decode_iff.mp hread
      rw [hdecode]
      exact iff_of_true rfl (.inl hline)
    | none =>
      rw [eq_comm, told_eq_iff]
      refine ⟨.inr, ?_⟩
      rintro (hline | hnone)
      · rw [decodeBase64_line hline, ← b64decode_eq, hread]
      · exact hnone

/-! ## The three shapes -/

theorem gatewaysig_agrees {provider : Str} {p : Bytes} (hp : encodeUtf8 provider = some p)
    (secret body : Bytes) (sigHex : Str) :
    gatewaysig.sign hmac secret provider body = .ok (gatewaysig.Sign hmac secret p body) ∧
    gatewaysig.verify hmac secret provider body sigHex =
      (gatewaysig.Verify hmac secret p body sigHex).mapError refused := by
  refine ⟨gatewaysig.sign_ok_iff.mpr ⟨p, hp, rfl⟩, ?_⟩
  unfold gatewaysig.verify gatewaysig.Verify HookGuard.gatewaysig.mac
  rw [hp, decodeString_decodeHex]
  cases hdecode : decodeHex sigHex with
  | error e =>
    simp only [decodeHex_error hdecode, if_true]
    rfl
  | ok got =>
    simp only [Except.toOption]
    show (if got = gatewaysig.mac hmac secret p body then _ else _) = _
    split <;> rfl

/-- Under any MAC, the Gateway and the Go verifiers say the same of GitHub's signatures, to
    the message; accept the same of Shopify's but over several lines, and say the same of
    what is a line or no signature to Go; and make and judge the Gateway's own alike. -/
theorem body_signatures_agree (hmac : Bytes → Bytes → Bytes) (secret body : Bytes)
    (headers : Headers) :
    github.verify hmac ⟨secret⟩ body headers =
      (GitHubVerifier.Verify hmac ⟨secret⟩ body headers).mapError rejected ∧
    (shopify.verify hmac ⟨secret⟩ body headers = .ok () ↔
      ShopifyVerifier.Verify hmac ⟨secret⟩ body headers = .ok () ∧
        Line ((headers.get shopify.HEADER).getD [])) ∧
    (shopify.verify hmac ⟨secret⟩ body headers =
        (ShopifyVerifier.Verify hmac ⟨secret⟩ body headers).mapError rejected ↔
      Line ((headers.get shopify.HEADER).getD []) ∨
        decodeBase64 ((headers.get shopify.HEADER).getD []) = none) ∧
    ∀ provider p sigHex, encodeUtf8 provider = some p →
      gatewaysig.sign hmac secret provider body = .ok (gatewaysig.Sign hmac secret p body) ∧
      gatewaysig.verify hmac secret provider body sigHex =
        (gatewaysig.Verify hmac secret p body sigHex).mapError refused := by
  obtain ⟨hverdict, hmessage⟩ := @shopify_agrees hmac secret body headers
  exact ⟨github_agrees secret body headers, hverdict, hmessage,
    fun provider p sigHex hp => gatewaysig_agrees hp secret body sigHex⟩

/-- A signature that is broken over two lines: Go accepts it, and the Gateway does not. -/
theorem body_signatures_agree_broken :
    shopify.verify (fun _ _ => bytesLit "hi") ⟨bytesLit "k"⟩ []
        [(bytesLit "x-shopify-hmac-sha256", bytesLit "aG\nk=")] ≠ .ok () ∧
      ShopifyVerifier.Verify (fun _ _ => bytesLit "hi") ⟨bytesLit "k"⟩ []
        [(bytesLit "x-shopify-hmac-sha256", bytesLit "aG\nk=")] = .ok () := by
  refine ⟨?_, by decide⟩
  rw [ne_eq, (body_signatures_agree (fun _ _ => bytesLit "hi") (bytesLit "k") []
    [(bytesLit "x-shopify-hmac-sha256", bytesLit "aG\nk=")]).2.1]
  exact fun h => absurd h.2.1 (by decide)

end oracle
end HookGuard
