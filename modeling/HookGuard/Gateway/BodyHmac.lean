import HookGuard.Core.GatewaySig
import HookGuard.Gateway.Verifier
import HookGuard.Lib.Base64

/- The signature shapes that are one HMAC of the body and no more
   (`hookguard_gateway/providers/github.py`, `shopify.py`): GitHub's in hex behind
   a prefix, Shopify's in base64. Neither has a timestamp, and neither raises
   anything but `VerificationError` (`verifyBody_contract`). -/
namespace HookGuard
open Py

/-- A secret that is not empty, encoded: what the two factories check. -/
def encodeSecret (secret : Str) : Except Exc Bytes :=
  if secret = [] then .error (.valueError (msg "empty secret"))
  else match encodeUtf8 secret with
    | some s => .ok s
    | none => .error .unicodeEncodeError

/-- The check both shapes make: the header, its prefix, its encoding, the HMAC. -/
def verifyBody (hmac : Bytes → Bytes → Bytes) (HEADER PREFIX : Str)
    (decode : Str → Except Exc Bytes) (secret rawBody : Bytes) (headers : Headers) :
    Except Exc Unit :=
  let header := (headers.get HEADER).getD []
  if header = [] then
    .error (.verificationError [.text (lit "missing " ++ HEADER ++ lit " header")])
  else if !startsWith header PREFIX then
    .error (.verificationError [.text (lit "malformed " ++ HEADER ++ lit " header")])
  else match decode (header.drop PREFIX.length) with
    | .error e =>
      if e.isValueError then .error (verificationError "invalid signature encoding")
      else .error e
    | .ok got =>
      if got = hmac secret rawBody then .ok ()
      else .error (verificationError "signature mismatch")

theorem verifyBody_contract {hmac : Bytes → Bytes → Bytes} {HEADER PREFIX : Str}
    {decode : Str → Except Exc Bytes} {secret rawBody : Bytes} {headers : Headers}
    (hdecode : ∀ s e, decode s = .error e → e.isValueError = true) :
    VerifierContract (verifyBody hmac HEADER PREFIX decode secret rawBody headers) := by
  unfold verifyBody
  simp only
  split
  · exact .inr ⟨_, rfl⟩
  · split
    · exact .inr ⟨_, rfl⟩
    · split
      · next e he =>
        rw [if_pos (hdecode _ e he)]
        exact .inr ⟨_, rfl⟩
      · split
        · exact .inl rfl
        · exact .inr ⟨_, rfl⟩

namespace github

def HEADER : Str := lit "X-Hub-Signature-256"
def PREFIX : Str := lit "sha256="

structure GitHubVerifier where
  secret : Bytes

/-- `_build`. -/
def build (_route : Route) (secret : Str) : Except Exc GitHubVerifier :=
  (encodeSecret secret).map GitHubVerifier.mk

/-- `GitHubVerifier.verify`. -/
def verify (hmac : Bytes → Bytes → Bytes) (v : GitHubVerifier) (rawBody : Bytes)
    (headers : Headers) : Except Exc Unit :=
  verifyBody hmac HEADER PREFIX decodeHex v.secret rawBody headers

theorem verify_contract {hmac : Bytes → Bytes → Bytes} {v : GitHubVerifier} {rawBody : Bytes}
    {headers : Headers} : VerifierContract (verify hmac v rawBody headers) :=
  verifyBody_contract fun _ _ => decodeHex_error

end github

namespace shopify

def HEADER : Str := lit "X-Shopify-Hmac-SHA256"

structure ShopifyVerifier where
  secret : Bytes

/-- `_build`. -/
def build (_route : Route) (secret : Str) : Except Exc ShopifyVerifier :=
  (encodeSecret secret).map ShopifyVerifier.mk

/-- `base64.b64decode(header, validate=True)`. -/
def decode (header : Str) : Except Exc Bytes :=
  match b64decode header with
  | some got => .ok got
  | none => .error (.valueError (msg "Incorrect padding"))

/-- `ShopifyVerifier.verify`: the shape has no prefix. -/
def verify (hmac : Bytes → Bytes → Bytes) (v : ShopifyVerifier) (rawBody : Bytes)
    (headers : Headers) : Except Exc Unit :=
  verifyBody hmac HEADER [] decode v.secret rawBody headers

theorem decode_error {header : Str} {e : Exc} (h : decode header = .error e) :
    e.isValueError = true := by
  unfold decode at h
  split at h
  · simp at h
  · simp only [Except.error.injEq] at h
    subst h
    rfl

theorem verify_contract {hmac : Bytes → Bytes → Bytes} {v : ShopifyVerifier} {rawBody : Bytes}
    {headers : Headers} : VerifierContract (verify hmac v rawBody headers) :=
  verifyBody_contract fun _ _ => decode_error

end shopify
end HookGuard
