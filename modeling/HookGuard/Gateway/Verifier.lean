import HookGuard.Core.GoDuration
import HookGuard.Core.Http
import HookGuard.Lib.Datetime
import HookGuard.Lib.Double
import HookGuard.Lib.Utf8

/- What the Gateway's verifiers share (`hookguard_gateway/config.py`,
   `verifier.py`): the route they are built from, the moment they are called at,
   and the contract on what they raise.

   The third-party code the verifiers call is `Libraries`: HMAC-SHA256, the X.509
   and RSA of `cryptography`, the syntax check of a bracketed host. What one call
   sees of the outside is a `Moment`: the time it is given, the two readings of
   the clock the certificate cache makes, and what the HTTP client answers. -/
namespace HookGuard
open Py

/-- `config.Route`. The texts were validated, so each of them encodes. -/
structure Route where
  path : Str
  provider : Str
  upstream : Str
  replayWindow : Str := []
  secretEnv : Str := []
  webhookId : Str := []
  scalar : (path ++ provider ++ upstream ++ replayWindow ++ secretEnv ++ webhookId).all
    isScalar = true := by decide

/-- What an HTTP client raises: `httpx.HTTPError`, or `httpx.InvalidURL`, which is
    not one of those. -/
inductive FetchFailure where
  | httpError (m : Msg)
  | invalidURL (m : Msg)
  deriving DecidableEq

/-- The third-party code the verifiers call. -/
structure Libraries (Certificate PublicKey : Type) where
  /-- `hmac.new(key, message, sha256).digest()`. -/
  hmac : Bytes → Bytes → Bytes
  /-- How a quotient or a difference of seconds is rounded. -/
  round : ℚ → ℚ
  /-- The code points past ASCII that `repr` prints as themselves. -/
  printable : Nat → Bool
  /-- The complaint about the bracketed host of a network location, if any. -/
  bracketedHost : Str → Option Msg
  /-- `x509.load_pem_x509_certificates`; the error is its `ValueError`. -/
  loadPem : Bytes → Except Msg (List Certificate)
  /-- Reading the leaf's name and verifying its chain to the trust store; any
      exception is the error. -/
  verifyChain : Certificate → List Certificate → Except Msg Unit
  /-- `cert.public_key()`, where that is an RSA key. -/
  publicKey : Certificate → Option PublicKey
  /-- `public_key.verify(signature, message, PKCS1v15(), SHA256())`. -/
  rsaVerify : PublicKey → Bytes → Bytes → Bool

/-- What one call of `verify` sees of the outside. -/
structure Moment where
  now : Datetime
  /-- `datetime.now(UTC)` when the certificate cache is read, and when it is written. -/
  cacheRead : Datetime := now
  cacheWrite : Datetime := now
  /-- `client.get(url)`. -/
  clientGet : Str → Except FetchFailure Response

def verificationError (s : String) : Exc := .verificationError (msg s)

/-- The contract of `Verifier.verify`: it returns, or raises `VerificationError`. -/
def VerifierContract (r : Except Exc Unit) : Prop :=
  r = .ok () ∨ ∃ m, r = .error (.verificationError m)

@[simp] theorem verifierContract_ok : VerifierContract (.ok ()) := .inl rfl

@[simp] theorem verifierContract_error {e : Exc} :
    VerifierContract (.error e) ↔ ∃ m, e = .verificationError m := by
  simp [VerifierContract]

end HookGuard
