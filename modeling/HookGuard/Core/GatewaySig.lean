import HookGuard.Lib.Hex
import HookGuard.Lib.Utf8
import HookGuard.Core.Exceptions

/- The Gateway signature (`hookguard_core/gatewaysig.py`, `stricthex.py`): the hex
   HMAC-SHA256 over `"<provider>.<body>"`. HMAC-SHA256 is a function of the key
   and the message and nothing more here: `hmac`, a parameter.

   `verify_ok_iff` is what a signature that verifies says: the provider encodes,
   and the signature decodes to the MAC of the two fields joined by a dot.
   `verify_sign` is the round trip of the two ends. -/
namespace HookGuard
open Py

/-- `stricthex.decode_hex`. -/
def decodeHex (value : Str) : Except Exc Bytes :=
  if !hexRun value then .error (.valueError (msg "invalid hex encoding"))
  else match fromhex value with
    | some b => .ok b
    | none => .error (.valueError (msg "non-hexadecimal number found in fromhex() arg"))

theorem decodeHex_hex (b : Bytes) : decodeHex (hex b) = .ok b := by
  simp [decodeHex, hexRun_hex, fromhex_hex]

theorem decodeHex_error {value : Str} {e : Exc} (h : decodeHex value = .error e) :
    e.isValueError = true := by
  unfold decodeHex at h
  split at h
  · simp only [Except.error.injEq] at h; subst h; rfl
  · split at h
    · simp at h
    · simp only [Except.error.injEq] at h; subst h; rfl

namespace gatewaysig

/-- Carries the hex HMAC. -/
def HEADER : Str := lit "X-HookGuard-Signature"

/-- Carries the verified provider name. -/
def PROVIDER_HEADER : Str := lit "X-HookGuard-Provider"

variable (hmac : Bytes → Bytes → Bytes)

/-- What the MAC is over, from the provider's octets. -/
def preimage (provider body : Bytes) : Bytes := provider ++ bytesLit "." ++ body

def mac (secret : Bytes) (provider : Str) (body : Bytes) : Except Exc Bytes :=
  match encodeUtf8 provider with
  | some p => .ok (hmac secret (preimage p body))
  | none => .error .unicodeEncodeError

def sign (secret : Bytes) (provider : Str) (body : Bytes) : Except Exc Str :=
  (mac hmac secret provider body).map hex

def verify (secret : Bytes) (provider : Str) (body : Bytes) (sigHex : Str) : Except Exc Unit :=
  match decodeHex sigHex with
  | .error e =>
    if e.isValueError then
      .error (.gatewaySignatureError (msg "invalid gateway signature encoding"))
    else .error e
  | .ok got =>
    match mac hmac secret provider body with
    | .error e => .error e
    | .ok m =>
      if got = m then .ok ()
      else .error (.gatewaySignatureError (msg "gateway signature mismatch"))

variable {hmac}

theorem sign_ok_iff {secret : Bytes} {provider : Str} {body : Bytes} {sig : Str} :
    sign hmac secret provider body = .ok sig ↔
      ∃ p, encodeUtf8 provider = some p ∧ sig = hex (hmac secret (preimage p body)) := by
  unfold sign mac
  cases encodeUtf8 provider with
  | none => simp [Except.map]
  | some p => simp [Except.map, eq_comm]

theorem verify_ok_iff {secret : Bytes} {provider : Str} {body : Bytes} {sig : Str} :
    verify hmac secret provider body sig = .ok () ↔
      ∃ p, encodeUtf8 provider = some p ∧
        decodeHex sig = .ok (hmac secret (preimage p body)) := by
  unfold verify mac
  cases hd : decodeHex sig with
  | error e => simp [decodeHex_error hd]
  | ok got =>
    cases encodeUtf8 provider with
    | none => simp
    | some p =>
      by_cases hg : got = hmac secret (preimage p body) <;> simp [hg]

/-- What one end signs, the other end accepts. -/
theorem verify_sign {secret : Bytes} {provider : Str} {body : Bytes} {sig : Str}
    (h : sign hmac secret provider body = .ok sig) :
    verify hmac secret provider body sig = .ok () := by
  obtain ⟨p, hp, rfl⟩ := sign_ok_iff.mp h
  exact verify_ok_iff.mpr ⟨p, hp, decodeHex_hex _⟩

theorem verify_error {secret : Bytes} {provider : Str} {body p : Bytes} {sig : Str} {e : Exc}
    (hp : encodeUtf8 provider = some p) (h : verify hmac secret provider body sig = .error e) :
    ∃ m, e = .gatewaySignatureError m := by
  unfold verify mac at h
  rw [hp] at h
  cases hd : decodeHex sig with
  | error e' =>
    simp only [hd, decodeHex_error hd, if_true, Except.error.injEq] at h
    exact ⟨_, h.symm⟩
  | ok got =>
    simp only [hd] at h
    split at h
    · simp at h
    · simp only [Except.error.injEq] at h
      exact ⟨_, h.symm⟩

end gatewaysig
end HookGuard
