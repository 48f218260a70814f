import HookGuard.Core.GoDurationAgreement
import HookGuard.Gateway.BodyHmac
import HookGuard.Gateway.PayPal
import HookGuard.Gateway.Stripe

/- The provider registry (`hookguard_gateway/verifier.py`, `providers/__init__.py`)
   and the contract every registered verifier is meant to keep: `verify` returns,
   or raises `VerificationError` and nothing else.

   GitHub's and Shopify's verifiers keep it always. Stripe's does not on a
   timestamp too large for a float while a replay window is set, nor on a fresh
   timestamp that `int` reads and ASCII does not encode; PayPal's does not on a
   certificate URL of a trusted host that the HTTP client cannot parse. Those are
   all the ways out (`Escapes`, `verify_keeps_contract_iff`). -/
namespace HookGuard
open Py

section Registry
variable {Certificate PublicKey : Type}

/-- What `build_verifier` returns; PayPal's carries its certificate cache. -/
inductive Verifier (Certificate : Type) where
  | stripe (v : stripe.StripeVerifier)
  | github (v : github.GitHubVerifier)
  | shopify (v : shopify.ShopifyVerifier)
  | paypal (v : paypal.PayPalVerifier Certificate)

/-- `_REGISTRY`, in the order the providers are imported. -/
def REGISTRY : List (Str × (Route → Str → Except Exc (Verifier Certificate))) :=
  [(lit "github", fun route secret => (github.build route secret).map .github),
   (lit "paypal", fun route secret => (paypal.build route secret).map .paypal),
   (lit "shopify", fun route secret => (shopify.build route secret).map .shopify),
   (lit "stripe", fun route secret => (stripe.build route secret).map .stripe)]

/-- `build_verifier`. -/
def buildVerifier (route : Route) (secret : Str) : Except Exc (Verifier Certificate) :=
  match REGISTRY.lookup route.provider with
  | none => .error (.valueError [.text (lit "unknown provider "), .repr route.provider])
  | some factory => factory route secret

/-- `verifier.verify`, and the verifier after it. -/
def Verifier.verify (lib : Libraries Certificate PublicKey) (v : Verifier Certificate)
    (rawBody : Bytes) (headers : Headers) (moment : Moment) :
    Except Exc Unit × Verifier Certificate :=
  match v with
  | .stripe s => (stripe.verify lib.hmac lib.round s rawBody headers moment.now, .stripe s)
  | .github g => (github.verify lib.hmac g rawBody headers, .github g)
  | .shopify s => (shopify.verify lib.hmac s rawBody headers, .shopify s)
  | .paypal p =>
    let (result, p) := paypal.verify lib p rawBody headers moment
    (result, .paypal p)

/-! ## The contract -/

/-- The requests on which a verifier raises something other than `VerificationError`. -/
inductive Escapes (lib : Libraries Certificate PublicKey) (headers : Headers) (moment : Moment) :
    Verifier Certificate → Prop where
  /-- `OverflowError`: the timestamp is past the largest float, and is compared. -/
  | overflow (v : stripe.StripeVerifier) (t : Str) (sigs : List Str) (ts : Int)
      (reads : stripe.Reads headers t sigs ts) (window : 0 < v.replayWindow.us)
      (large : fitsDouble ts = false) : Escapes lib headers moment (.stripe v)
  /-- `UnicodeEncodeError`: the timestamp is fresh, or not checked, and not ASCII. -/
  | encode (v : stripe.StripeVerifier) (t : Str) (sigs : List Str) (ts : Int)
      (reads : stripe.Reads headers t sigs ts)
      (fresh : 0 < v.replayWindow.us →
        |lib.round (lib.round (moment.now.us / 10 ^ 6) - lib.round ts)| ≤
          lib.round (v.replayWindow.us / 10 ^ 6))
      (other : isAscii t = false) : Escapes lib headers moment (.stripe v)
  /-- `InvalidURL`: the certificate is fetched from a URL the client cannot parse. -/
  | invalidURL (v : paypal.PayPalVerifier Certificate) (url : Str) (m : Msg)
      (fetches : paypal.Fetches lib v headers moment url)
      (fails : moment.clientGet url = .error (.invalidURL m)) :
      Escapes lib headers moment (.paypal v)

/-- A verifier keeps its contract on a request exactly when the request is none of
    the three. -/
theorem verify_keeps_contract_iff (lib : Libraries Certificate PublicKey)
    (v : Verifier Certificate) (rawBody : Bytes) (headers : Headers) (moment : Moment) :
    VerifierContract (v.verify lib rawBody headers moment).1 ↔ ¬ Escapes lib headers moment v := by
  cases v with
  | stripe v =>
    simp only [Verifier.verify, stripe.verify_contract_iff, stripe.freshness_ok_iff]
    refine ⟨?_, ?_⟩
    · intro h h'
      rcases h' with ⟨_, t, sigs, ts, hr, hw, hlarge⟩ | ⟨_, t, sigs, ts, hr, hfresh, hother⟩
      · rw [(h t sigs ts hr).1 hw] at hlarge
        cases hlarge
      · obtain ⟨hfits, hascii⟩ := h t sigs ts hr
        rw [hascii fun hw => ⟨hfits hw, hfresh hw⟩] at hother
        cases hother
    · intro h t sigs ts hr
      refine ⟨fun hw => ?_, fun hok => ?_⟩
      · cases hf : fitsDouble ts with
        | true => rfl
        | false => exact absurd (.overflow v t sigs ts hr hw hf) h
      · cases ha : isAscii t with
        | true => rfl
        | false => exact absurd (.encode v t sigs ts hr (fun hw => (hok hw).2) ha) h
  | github v => exact iff_of_true github.verify_contract nofun
  | shopify v => exact iff_of_true shopify.verify_contract nofun
  | paypal v =>
    simp only [Verifier.verify, paypal.verify_contract_iff]
    refine ⟨?_, ?_⟩
    · intro h h'
      rcases h' with _ | _ | ⟨_, url, m, hf, hget⟩
      exact h url m hf hget
    · exact fun h url m hf hget => h (.invalidURL v url m hf hget)

end Registry

/-! ## A request of each kind -/

/-- Libraries that hold no certificate, with a MAC that is its message. -/
def Libraries.bare : Libraries Unit Unit where
  hmac _ message := message
  round := nearestDouble
  printable _ := false
  bracketedHost _ := none
  loadPem _ := .error (msg "Unable to load PEM file")
  verifyChain _ _ := .error (msg "no certificate")
  publicKey _ := none
  rsaVerify _ _ _ := false

/-- The epoch, and a client that can parse no URL. -/
def Moment.bare : Moment where
  now := .epoch
  clientGet _ := .error (.invalidURL (msg "Invalid port: 'abc'"))

theorem stripe.build_5m :
    stripe.build ⟨lit "/s", lit "stripe", lit "u", lit "5m", [], [], by decide⟩ (lit "k") =
      .ok ⟨bytesLit "k", ⟨300000000, by decide, by decide⟩⟩ := by
  have hns : goduration.parseGoDurationNs (lit "5m") = .ok 300000000000 :=
    goduration.parseGoDurationNs_single .none (c := ⟨⟨lit "5", none⟩, lit "m"⟩)
      ⟨by decide, by decide, by decide, by decide⟩ (by decide) (by decide)
  have hwindow : goduration.parseGoDuration (lit "5m") =
      .ok ⟨300000000, by decide, by decide⟩ := by
    simp only [goduration.parseGoDuration, hns]
    rfl
  simp only [stripe.build, hwindow]
  rfl

/-- A timestamp of 10^309 under a window of 5m; a no-break space before a timestamp,
    with no window; a certificate URL with a port that is no number. -/
theorem verify_raises_other :
    (∃ v, buildVerifier ⟨lit "/s", lit "stripe", lit "u", lit "5m", [], [], by decide⟩
        (lit "k") = .ok v ∧
      (v.verify Libraries.bare [] [(bytesLit "stripe-signature",
        bytesLit "t=1" ++ List.replicate 309 48 ++ bytesLit ",v1=00")] Moment.bare).1 =
        .error .overflowError) ∧
    (∃ v, buildVerifier ⟨lit "/s", lit "stripe", lit "u", [], [], [], by decide⟩
        (lit "k") = .ok v ∧
      (v.verify Libraries.bare [] [(bytesLit "stripe-signature",
        bytesLit "t=" ++ [0xA0] ++ bytesLit "1,v1=00")] Moment.bare).1 =
        .error .unicodeEncodeError) ∧
    (∃ v, buildVerifier ⟨lit "/p", lit "paypal", lit "u", [], [], lit "w", by decide⟩ [] = .ok v ∧
      (v.verify Libraries.bare [] [(bytesLit "paypal-transmission-id", bytesLit "i"),
        (bytesLit "paypal-transmission-time", bytesLit "t"),
        (bytesLit "paypal-transmission-sig", bytesLit "AA=="),
        (bytesLit "paypal-cert-url", bytesLit "https://paypal.com:abc/x"),
        (bytesLit "paypal-auth-algo", bytesLit "SHA256withRSA")] Moment.bare).1 =
        .error (.invalidURL (msg "Invalid port: 'abc'"))) := by
  refine ⟨⟨.stripe _, congrArg (Except.map Verifier.stripe) stripe.build_5m, ?_⟩,
    ⟨.stripe ⟨bytesLit "k", .zero⟩, rfl, ?_⟩, ⟨.paypal ⟨lit "w", {}, by decide⟩, rfl, ?_⟩⟩
  · have hreads : stripe.Reads [(bytesLit "stripe-signature",
        bytesLit "t=1" ++ List.replicate 309 48 ++ bytesLit ",v1=00")]
        (lit "1" ++ List.replicate 309 48) [lit "00"] (10 ^ 309) :=
      ⟨by decide +kernel, by decide +kernel, by decide +kernel, by decide +kernel⟩
    have hlarge : fitsDouble (10 ^ 309) = false := by decide +kernel
    rcases stripe.freshness_cases nearestDouble ⟨300000000, by decide, by decide⟩
      Moment.bare.now (10 ^ 309) with ⟨-, -, hover⟩ | ⟨hfits, -⟩
    · simp only [Verifier.verify, stripe.verify_readable hreads, Libraries.bare, hover]
    · rw [hfits (by decide)] at hlarge
      cases hlarge
  · rfl
  · rfl

end HookGuard
