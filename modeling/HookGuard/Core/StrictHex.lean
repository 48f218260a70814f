import HookGuard.Core.GatewaySig
import HookGuard.Lib.Lowercase

/- What a hex signature means (`hookguard_core/stricthex.py`, `gatewaysig.py`): one octet
   string, or nothing. `decode_hex` takes the even-length runs of hex digits and no other
   text, and what it makes of one is written as that text in lower case, so that to verify
   a signature is to compare it, in lower case, with the one `sign` returns. -/
namespace HookGuard
open Py

theorem decodeHex_ok_iff {s : Str} {b : Bytes} :
    decodeHex s = .ok b ↔ hexRun s = true ∧ fromhex s = some b := by
  unfold decodeHex
  cases hrun : hexRun s with
  | false => simp
  | true => cases hread : fromhex s <;> simp

theorem decodeHex_iff_lower (l : Lowercase) {s : Str} {b : Bytes} :
    decodeHex s = .ok b ↔ l.lower s = hex b := by
  rw [decodeHex_ok_iff]
  constructor
  · intro h
    exact (hex_fromhex h.1 h.2).symm
  · intro h
    have hrun := hexRun_of_lower h
    obtain ⟨b', hb'⟩ := fromhex_hexRun hrun
    have hsame : hex b' = hex b := (hex_fromhex hrun hb').trans h
    exact ⟨hrun, by rw [hb', hex_injective hsame]⟩

theorem decodeHex_isOk_iff {s : Str} : (∃ b, decodeHex s = .ok b) ↔ hexRun s = true := by
  simp only [decodeHex_ok_iff, exists_and_left]
  exact and_iff_left_of_imp fromhex_hexRun

namespace gatewaysig
variable {hmac : Bytes → Bytes → Bytes} {secret body : Bytes} {provider sig : Str}

/-- A signature verifies when it is the one `sign` returns, up to case. -/
theorem verify_iff_sign (l : Lowercase) : verify hmac secret provider body sig = .ok () ↔
    sign hmac secret provider body = .ok (l.lower sig) := by
  rw [verify_ok_iff, sign_ok_iff]
  simp only [decodeHex_iff_lower l]

/-- What `verify` raises, and when: an unencodable provider only shows behind a signature
    that is hex. -/
theorem verify_raises {e : Exc} (h : verify hmac secret provider body sig = .error e) :
    (∃ m, e = .gatewaySignatureError m) ∧
        (provider.all isScalar = true ∨ hexRun sig = false) ∨
      e = .unicodeEncodeError ∧ provider.all isScalar = false ∧ hexRun sig = true := by
  rw [← encodeUtf8_isSome]
  cases hp : encodeUtf8 provider with
  | some p => exact .inl ⟨verify_error hp h, .inl rfl⟩
  | none =>
    -- the signature is decoded before the MAC is computed
    unfold verify mac at h
    rw [hp] at h
    cases hd : decodeHex sig with
    | error e' =>
      rw [hd] at h
      simp only [decodeHex_error hd, if_true, Except.error.injEq] at h
      refine .inl ⟨⟨_, h.symm⟩, .inr ?_⟩
      rw [← Bool.not_eq_true, ← decodeHex_isOk_iff]
      rintro ⟨b, hb⟩
      rw [hd] at hb
      cases hb
    | ok got =>
      rw [hd] at h
      exact .inr ⟨(Except.error.inj h).symm, rfl, decodeHex_isOk_iff.mp ⟨got, hd⟩⟩

/-- A hex signature has one meaning. `decode_hex` takes the even-length runs of hex digits,
    what it returns is written as the text in lower case, and what is written it returns.
    `verify` accepts a signature that is what `sign` returns in lower case, and raises a
    `GatewaySignatureError` for any other, unless the provider cannot be encoded and the
    signature is hex. -/
theorem signature_meaning (l : Lowercase) (hmac : Bytes → Bytes → Bytes) :
    (∀ s, (∃ b, decodeHex s = .ok b) ↔ Even s.length ∧ ∀ c ∈ s, isHexDigit c = true) ∧
    (∀ s b, decodeHex s = .ok b → hex b = l.lower s) ∧
    (∀ b, decodeHex (hex b) = .ok b) ∧
    ∀ secret provider body sig,
      (verify hmac secret provider body sig = .ok () ↔
        sign hmac secret provider body = .ok (l.lower sig)) ∧
      ∀ e, verify hmac secret provider body sig = .error e →
        (∃ m, e = .gatewaySignatureError m) ∧
            (provider.all isScalar = true ∨ hexRun sig = false) ∨
          e = .unicodeEncodeError ∧ provider.all isScalar = false ∧ hexRun sig = true := by
  refine ⟨?_, ?_, decodeHex_hex, ?_⟩
  · intro s
    rw [decodeHex_isOk_iff, hexRun_iff]
  · intro s b h
    exact ((decodeHex_iff_lower l).mp h).symm
  · intro secret provider body sig
    exact ⟨verify_iff_sign l, fun e h => verify_raises h⟩

/-- A provider that is a lone surrogate, and a signature that is hex. -/
theorem verify_surrogate : ¬ ∀ e, verify (fun _ _ => []) [] [0xD800] [] (lit "00") = .error e →
    ∃ m, e = .gatewaySignatureError m := by
  intro h
  obtain ⟨m, hm⟩ := h .unicodeEncodeError rfl
  cases hm

example : (decodeHex (lit "DEad")).map hex = .ok (Lowercase.plain.lower (lit "DEad")) := by decide

end gatewaysig
end HookGuard
