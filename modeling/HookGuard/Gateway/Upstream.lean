import HookGuard.Core.GatewaySig
import HookGuard.Gateway.Verifier
import Mathlib.Logic.Equiv.Basic

/- The sample upstream (`hookguard_gateway/upstream.py`), and what the Gateway
   signature it checks binds.

   `receive` takes the provider from a header and checks the signature over that
   and the body. What is signed is the two joined by a dot, and both may hold one:
   two pairs give one text when the second provider is the first with a dot and
   the start of the body after it, or the other way round (`preimage_eq_iff`). So
   the signature of a pair verifies for another pair exactly when the provider
   holds a dot, or some start of the body before a dot is UTF-8 (`binds_iff`). -/
namespace HookGuard
open Py

namespace upstream

/-- `receive`: the answer, or the exception that is not caught. -/
def receive (hmac : Bytes → Bytes → Bytes) (secret : Bytes) (headers : Headers) (body : Bytes) :
    Except Exc Response :=
  let provider := (headers.get gatewaysig.PROVIDER_HEADER).getD []
  let signature := (headers.get gatewaysig.HEADER).getD []
  match gatewaysig.verify hmac secret provider body signature with
  | .ok () => .ok ⟨200, bytesLit "ok\n", some (lit "text/plain")⟩
  | .error (.gatewaySignatureError _) =>
    .ok ⟨401, bytesLit "gateway signature invalid\n", some (lit "text/plain")⟩
  | .error e => .error e

/-- The request passed the check. -/
def Accepts (hmac : Bytes → Bytes → Bytes) (secret : Bytes) (headers : Headers) (body : Bytes) :
    Prop :=
  (receive hmac secret headers body).map Response.statusCode = .ok 200

section Receive
variable {hmac : Bytes → Bytes → Bytes} {secret : Bytes} {headers : Headers} {body : Bytes}

theorem accepts_iff :
    Accepts hmac secret headers body ↔
      gatewaysig.verify hmac secret ((headers.get gatewaysig.PROVIDER_HEADER).getD []) body
        ((headers.get gatewaysig.HEADER).getD []) = .ok () := by
  unfold Accepts receive
  simp only
  split
  · next h => simp [h, Except.map]
  · next h => simp [h, Except.map]
  · next e h => simp [h, Except.map]

/-- Header values are Latin-1, so the upstream answers every request. -/
theorem receive_answers : ∃ r, receive hmac secret headers body = .ok r := by
  have hlatin : IsLatin1 ((headers.get gatewaysig.PROVIDER_HEADER).getD []) :=
    Headers.getD_isLatin1
  have hscalar := isScalar_of_isLatin1 hlatin
  rw [← encodeUtf8_isSome] at hscalar
  obtain ⟨p, hp⟩ := Option.isSome_iff_exists.mp hscalar
  unfold receive
  simp only
  split
  · exact ⟨_, rfl⟩
  · exact ⟨_, rfl⟩
  · next e hne h =>
    obtain ⟨m, rfl⟩ := gatewaysig.verify_error hp h
    exact absurd rfl (hne m)

end Receive

/-! ## What the signature binds -/

theorem preimage_eq_iff {p b p' b' : Bytes} :
    gatewaysig.preimage p b = gatewaysig.preimage p' b' ↔
      (p = p' ∧ b = b') ∨ (∃ x, p' = p ++ 46 :: x ∧ b = x ++ 46 :: b') ∨
        ∃ x, p = p' ++ 46 :: x ∧ b' = x ++ 46 :: b := by
  have hdot : bytesLit "." = [46] := by decide
  simp only [gatewaysig.preimage, hdot, List.append_assoc, List.singleton_append,
    List.append_eq_append_iff]
  refine ⟨?_, ?_⟩
  · -- one of the two providers is the start of the other
    intro h
    rcases h with ⟨x, rfl, h⟩ | ⟨x, rfl, h⟩
    · cases x with
      | nil => exact .inl (by simpa using h)
      | cons c x =>
        simp only [List.cons_append, List.cons.injEq] at h
        exact .inr (.inl ⟨x, by rw [h.1], h.2⟩)
    · cases x with
      | nil => exact .inl (by simpa [eq_comm] using h)
      | cons c x =>
        simp only [List.cons_append, List.cons.injEq] at h
        exact .inr (.inr ⟨x, by rw [h.1], h.2⟩)
  · intro h
    rcases h with ⟨rfl, rfl⟩ | ⟨x, rfl, rfl⟩ | ⟨x, rfl, rfl⟩
    · exact .inl ⟨[], by simp, by simp⟩
    · exact .inl ⟨46 :: x, rfl, rfl⟩
    · exact .inr ⟨46 :: x, rfl, rfl⟩

/-- The signature `sig` of a pair binds the pair: nothing else verifies under it, and
    no request that carries it is accepted as anything else. -/
def Binds (hmac : Bytes → Bytes → Bytes) (secret : Bytes) (provider : Str) (body : Bytes)
    (sig : Str) : Prop :=
  (∀ provider' body', gatewaysig.verify hmac secret provider' body' sig = .ok () →
    provider' = provider ∧ body' = body) ∧
  ∀ headers body', headers.get gatewaysig.HEADER = some sig →
    Accepts hmac secret headers body' →
    (headers.get gatewaysig.PROVIDER_HEADER).getD [] = provider ∧ body' = body

/-- Neither field can be taken to end at a dot of its own: the provider holds none,
    and no start of the body before a dot is UTF-8. -/
def Separable (provider : Str) (body : Bytes) : Prop :=
  46 ∉ provider ∧ ∀ q x r, encodeUtf8 q = some x → body ≠ x ++ 46 :: r

theorem encode_dot {s t : Str} {p : Bytes} (h : encodeUtf8 (s ++ 46 :: t) = some p) :
    ∃ x y, encodeUtf8 s = some x ∧ encodeUtf8 t = some y ∧ p = x ++ 46 :: y := by
  cases hs : encodeUtf8 s with
  | none =>
    rw [encodeUtf8_append, hs] at h
    cases h
  | some x =>
    cases ht : encodeUtf8 t with
    | none =>
      rw [encodeUtf8_append, hs, encodeUtf8, ht] at h
      simp at h
    | some y =>
      rw [encodeUtf8_append_ascii (by decide) hs ht, Option.some.injEq] at h
      exact ⟨x, y, rfl, rfl, h.symm⟩

/-- A pair is separable exactly when no other pair gives its text. -/
theorem separable_iff {provider : Str} {body p : Bytes} (hp : encodeUtf8 provider = some p) :
    Separable provider body ↔ ∀ provider' body' p', encodeUtf8 provider' = some p' →
      gatewaysig.preimage p body = gatewaysig.preimage p' body' →
      provider' = provider ∧ body' = body := by
  refine ⟨?_, ?_⟩
  · intro hsep provider' body' p' hp' heq
    obtain ⟨hdot, hbody⟩ := hsep
    rcases preimage_eq_iff.mp heq with ⟨rfl, rfl⟩ | ⟨x, rfl, rfl⟩ | ⟨x, rfl, rfl⟩
    · exact ⟨encodeUtf8_injective hp' hp, rfl⟩
    · -- the other provider goes on past a dot: that dot is in the body
      obtain ⟨q, -, hq⟩ := encodeUtf8_split_ascii (c := 46) (by decide) hp hp'
      exact absurd rfl (hbody q x body' hq)
    · -- it ends before a dot of this provider
      obtain ⟨q, rfl, -⟩ := encodeUtf8_split_ascii (c := 46) (by decide) hp' hp
      simp at hdot
  · intro hunique
    refine ⟨?_, ?_⟩
    · intro hdot
      obtain ⟨s, t, rfl⟩ := List.append_of_mem hdot
      obtain ⟨x, y, hx, -, rfl⟩ := encode_dot hp
      have heq := hunique s (y ++ 46 :: body) x hx
        (preimage_eq_iff.mpr (.inr (.inr ⟨y, rfl, rfl⟩)))
      simp at heq
    · intro q x r hq hbody
      have hpq := encodeUtf8_append_ascii (c := 46) (by decide) hp hq
      have heq := hunique (provider ++ 46 :: q) r _ hpq
        (preimage_eq_iff.mpr (.inr (.inl ⟨x, rfl, hbody⟩)))
      simp at heq

/-- The signature of a pair binds it exactly when the pair is separable. -/
theorem binds_iff {hmac : Bytes → Bytes → Bytes} (inj : ∀ key, Function.Injective (hmac key))
    {secret : Bytes} {provider : Str} {body : Bytes} {sig : Str}
    (signed : gatewaysig.sign hmac secret provider body = .ok sig) :
    Binds hmac secret provider body sig ↔ Separable provider body := by
  obtain ⟨p, hp, rfl⟩ := gatewaysig.sign_ok_iff.mp signed
  -- what verifies is a pair with the same text
  have hverify : ∀ provider' body', gatewaysig.verify hmac secret provider' body'
      (hex (hmac secret (gatewaysig.preimage p body))) = .ok () ↔
      ∃ p', encodeUtf8 provider' = some p' ∧
        gatewaysig.preimage p body = gatewaysig.preimage p' body' := by
    intro provider' body'
    rw [gatewaysig.verify_ok_iff, decodeHex_hex]
    simp only [Except.ok.injEq, (inj secret).eq_iff]
  rw [separable_iff hp]
  refine ⟨?_, ?_⟩
  · intro hbinds provider' body' p' hp' heq
    exact hbinds.1 provider' body' ((hverify _ _).mpr ⟨p', hp', heq⟩)
  · intro hunique
    have hfirst : ∀ provider' body', gatewaysig.verify hmac secret provider' body'
        (hex (hmac secret (gatewaysig.preimage p body))) = .ok () →
        provider' = provider ∧ body' = body := by
      intro provider' body' h
      obtain ⟨p', hp', heq⟩ := (hverify _ _).mp h
      exact hunique provider' body' p' hp' heq
    refine ⟨hfirst, ?_⟩
    intro headers body' hsig haccepts
    rw [accepts_iff, hsig] at haccepts
    exact hfirst _ _ haccepts

/-- HMAC-SHA256 of `github.` under the key `k`. -/
def githubMac : Bytes :=
  [155, 208, 137, 43, 224, 71, 126, 25, 153, 36, 84, 1, 172, 198, 246, 222, 206, 187, 58, 167,
   5, 130, 63, 14, 61, 60, 236, 251, 152, 187, 40, 26]

/-- HMAC-SHA256 of `stripe.{"amount":1.5}` under the key `k`. -/
def amountMac : Bytes :=
  [220, 248, 106, 0, 10, 140, 103, 95, 54, 172, 250, 161, 255, 45, 75, 162, 227, 126, 92, 74,
   35, 223, 97, 227, 33, 60, 157, 71, 200, 221, 220, 166]

/-- A MAC with one value given, injective on the messages. -/
def macWith (message value : Bytes) : Bytes → Bytes → Bytes := fun _ => Equiv.swap message value

theorem macWith_injective (message value : Bytes) :
    ∀ key, Function.Injective (macWith message value key) :=
  fun _ => (Equiv.swap message value).injective

theorem macWith_apply (message value key : Bytes) : macWith message value key message = value :=
  Equiv.swap_apply_left message value

theorem binds_github :
    Binds (macWith (bytesLit "github.") githubMac) (bytesLit "k") (lit "github") []
      (hex githubMac) ↔ Separable (lit "github") [] :=
  binds_iff (macWith_injective _ _) (gatewaysig.sign_ok_iff.mpr
    ⟨bytesLit "github", by decide, congrArg hex (macWith_apply _ _ (bytesLit "k")).symm⟩)

/-- A MAC with that value. -/
def amountHmac : Bytes → Bytes → Bytes :=
  macWith (bytesLit "stripe.\x7b\"amount\":1.5\x7d") amountMac

/-- Under the signature of the provider `stripe` and a body with a number in it, the
    provider that ends before the number's dot is accepted with what follows the dot. -/
theorem relabelled_accepted :
    (∀ key, Function.Injective (amountHmac key)) ∧
    gatewaysig.sign amountHmac (bytesLit "k") (lit "stripe")
      (bytesLit "\x7b\"amount\":1.5\x7d") = .ok (hex amountMac) ∧
    gatewaysig.verify amountHmac (bytesLit "k") (lit "stripe.\x7b\"amount\":1")
      (bytesLit "5\x7d") (hex amountMac) = .ok () ∧
    Accepts amountHmac (bytesLit "k")
      [(bytesLit "x-hookguard-provider", bytesLit "stripe.\x7b\"amount\":1"),
        (bytesLit "x-hookguard-signature", (hex amountMac).map UInt8.ofNat)]
      (bytesLit "5\x7d") := by
  have hverify : gatewaysig.verify amountHmac (bytesLit "k") (lit "stripe.\x7b\"amount\":1")
      (bytesLit "5\x7d") (hex amountMac) = .ok () :=
    gatewaysig.verify_ok_iff.mpr ⟨bytesLit "stripe.\x7b\"amount\":1", by decide, by
      rw [decodeHex_hex]
      exact congrArg Except.ok (macWith_apply _ amountMac (bytesLit "k")).symm⟩
  refine ⟨macWith_injective _ _, gatewaysig.sign_ok_iff.mpr ⟨bytesLit "stripe", by decide, ?_⟩,
    hverify, accepts_iff.mpr hverify⟩
  exact congrArg hex (macWith_apply _ amountMac (bytesLit "k")).symm

end upstream
end HookGuard
