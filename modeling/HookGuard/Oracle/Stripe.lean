import HookGuard.Core.GoDuration
import HookGuard.Gateway.Verifier
import HookGuard.Lib.Hex

/- The Go verifier the Gateway is checked against (`oracle/verifier/stripe.go`).

   A Go string is its octets, here as the numbers `decodeLatin1` makes of them, so
   that one header can be given to both verifiers: what Python decodes as Latin-1
   is, number by number, what Go reads. The two differ in what they trim (Go
   decodes UTF-8 and trims Unicode space, `trimSpace`) and in what they read as an
   integer (`parseInt`). Times and windows are whole microseconds and their
   differences exact; Go's own are int64 nanoseconds. -/
namespace HookGuard
open Py

namespace oracle

/-- The white space of one, two and three octets. -/
def space1 (a : Nat) : Bool := (9 ≤ a && a ≤ 13) || a == 32

def space2 (a b : Nat) : Bool := a == 0xC2 && (b == 0x85 || b == 0xA0)

def space3 (a b c : Nat) : Bool :=
  (a == 0xE1 && b == 0x9A && c == 0x80) ||
  (a == 0xE2 && b == 0x80 && ((0x80 ≤ c && c ≤ 0x8A) || c == 0xA8 || c == 0xA9 || c == 0xAF)) ||
  (a == 0xE2 && b == 0x81 && c == 0x9F) ||
  (a == 0xE3 && b == 0x80 && c == 0x80)

/-- White space dropped from the front of a string. -/
def trimLeft : Str → Str
  | a :: b :: c :: r =>
    if space1 a then trimLeft (b :: c :: r)
    else if space2 a b then trimLeft (c :: r)
    else if space3 a b c then trimLeft r
    else a :: b :: c :: r
  | [a, b] => if space1 a then trimLeft [b] else if space2 a b then [] else [a, b]
  | [a] => if space1 a then [] else [a]
  | [] => []

/-- The same from the back, on the reversed string: an encoded rune ends there. -/
def trimRightRev : Str → Str
  | a :: b :: c :: r =>
    if space1 a then trimRightRev (b :: c :: r)
    else if space2 b a then trimRightRev (c :: r)
    else if space3 c b a then trimRightRev r
    else a :: b :: c :: r
  | [a, b] => if space1 a then trimRightRev [b] else if space2 b a then [] else [a, b]
  | [a] => if space1 a then [] else [a]
  | [] => []

/-- `strings.TrimSpace`. -/
def trimSpace (s : Str) : Str := (trimRightRev (trimLeft s).reverse).reverse

/-- `strconv.ParseInt(s, 10, 64)`; `none` is the error. -/
def parseInt (s : Str) : Option Int :=
  let (neg, digits) := goduration.splitSign s
  if digits = [] ∨ digits.all isAsciiDigit = false then none
  else
    let n : Int := if neg then -digitsValue digits else digitsValue digits
    if goduration.INT64_MIN ≤ n ∧ n ≤ goduration.INT64_MAX then some n else none

/-- `hex.DecodeString`. -/
def decodeString : Str → Option Bytes
  | [] => some []
  | [_] => none
  | c :: d :: r =>
    match hexByte c d, decodeString r with
    | some x, some b => some (x :: b)
    | _, _ => none

structure StripeVerifier where
  Secret : Bytes
  ReplayWindow : Int

def readPart (acc : Str × List Str) (part : Str) : Str × List Str :=
  match partition 61 (trimSpace part) with
  | (_, none) => acc
  | (key, some value) =>
    if key = lit "t" then (value, acc.2)
    else if key = lit "v1" then (acc.1, acc.2 ++ [value])
    else acc

def parseStripeSig (header : Str) : Str × List Str := (header.splitOn 44).foldl readPart ([], [])

/-- `StripeVerifier.Verify`; the error is its text. -/
def Verify (hmac : Bytes → Bytes → Bytes) (v : StripeVerifier) (rawBody : Bytes)
    (h : Headers) (now : Datetime) : Except Str Unit :=
  let header := (h.get (lit "Stripe-Signature")).getD []
  if header = [] then .error (lit "missing Stripe-Signature header")
  else
    let (ts, sigs) := parseStripeSig header
    if ts = [] ∨ sigs.length = 0 then .error (lit "malformed Stripe-Signature header")
    else match parseInt ts with
      | none => .error (lit "invalid timestamp")
      | some tsInt =>
        if 0 < v.ReplayWindow ∧ v.ReplayWindow < |now.us - tsInt * 10 ^ 6| then
          .error (lit "timestamp outside replay window")
        else
          let expected := hmac v.Secret (ts.map UInt8.ofNat ++ bytesLit "." ++ rawBody)
          if sigs.any (fun s => decodeString s == some expected) then .ok ()
          else .error (lit "no matching signature")

example : trimSpace [32, 0xC2, 0xA0, 116, 0x85, 0xE2, 0x80, 0x83] = [116, 0x85] := by decide
example : parseInt (lit "-9223372036854775808") = some (-2 ^ 63) := by decide
example : parseInt (lit "1_0") = none := by decide

/-! ## The parts both languages have -/

theorem isHexDigit_iff {c d : Nat} :
    (isHexDigit c && isHexDigit d) = true ↔ ∃ x, hexByte c d = some x := by
  unfold isHexDigit hexByte
  cases hexValue c <;> cases hexValue d <;> simp

theorem decodeString_eq : ∀ s : Str, decodeString s = if hexRun s then fromhex s else none
  | [] => rfl
  | [_] => rfl
  | c :: d :: r => by
    rw [decodeString, decodeString_eq r, hexRun, fromhex]
    cases hcd : isHexDigit c && isHexDigit d with
    | false =>
      have hx : hexByte c d = none := by
        rw [Option.eq_none_iff_forall_ne_some]
        intro x hx
        rw [isHexDigit_iff.mpr ⟨x, hx⟩] at hcd
        cases hcd
      simp [hx]
    | true =>
      obtain ⟨x, hx⟩ := isHexDigit_iff.mp hcd
      rw [Bool.and_eq_true] at hcd
      rw [not_isAsciiSpace_of_isHexDigit hcd.1]
      cases hr : hexRun r with
      | false => simp [hx]
      | true =>
        cases hf : fromhex r <;> simp [hx]

end oracle
end HookGuard
