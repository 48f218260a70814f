import HookGuard.Lib.Text

/- Hexadecimal text: `bytes.hex`, which writes two lower-case digits a byte, and
   `bytes.fromhex`, which reads two digits of either case a byte and skips ASCII
   whitespace before each pair. `hexRun` is the strict shape, an even-length run
   of digits and nothing else; on it `fromhex` never fails (`fromhex_hexRun`),
   and what `hex` writes has that shape and reads back (`fromhex_hex`). -/
namespace Py

def hexDigit (n : Nat) : Nat := if n < 10 then 48 + n else 87 + n

/-- `b.hex()`. -/
def hex : Bytes → Str
  | [] => []
  | x :: b => hexDigit (x.toNat / 16) :: hexDigit (x.toNat % 16) :: hex b

def hexValue (c : Nat) : Option Nat :=
  if 48 ≤ c ∧ c ≤ 57 then some (c - 48)
  else if 97 ≤ c ∧ c ≤ 102 then some (c - 87)
  else if 65 ≤ c ∧ c ≤ 70 then some (c - 55)
  else none

def isHexDigit (c : Nat) : Bool := (hexValue c).isSome

/-- The byte two hex digits denote. -/
def hexByte (c d : Nat) : Option UInt8 :=
  match hexValue c, hexValue d with
  | some h, some l => some (UInt8.ofNat (16 * h + l))
  | _, _ => none

def isAsciiSpace (c : Nat) : Bool := (9 ≤ c && c ≤ 13) || c == 32

/-- `bytes.fromhex(s)`; `none` is the `ValueError`. -/
def fromhex : Str → Option Bytes
  | [] => some []
  | [c] => if isAsciiSpace c then some [] else none
  | c :: d :: r =>
    if isAsciiSpace c then fromhex (d :: r)
    else match hexByte c d with
      | some x => (fromhex r).map (x :: ·)
      | none => none

/-- An even-length run of hex digits and nothing else. -/
def hexRun : Str → Bool
  | [] => true
  | [_] => false
  | c :: d :: r => isHexDigit c && isHexDigit d && hexRun r

theorem hexValue_hexDigit {n : Nat} (h : n < 16) : hexValue (hexDigit n) = some n := by
  unfold hexDigit
  split
  · rw [hexValue, if_pos (by omega)]
    simp
  · rw [hexValue, if_neg (by omega), if_pos (by omega)]
    simp

theorem not_isAsciiSpace_of_isHexDigit {c : Nat} (h : isHexDigit c = true) :
    isAsciiSpace c = false := by
  unfold isHexDigit hexValue at h
  simp only [isAsciiSpace, Bool.or_eq_false_iff, Bool.and_eq_false_iff, decide_eq_false_iff_not,
    beq_eq_false_iff_ne]
  repeat' split at h
  all_goals first | omega | simp at h

theorem fromhex_hexRun : ∀ {s : Str}, hexRun s = true → ∃ b, fromhex s = some b
  | [], _ => ⟨[], rfl⟩
  | [_], h => by simp [hexRun] at h
  | c :: d :: r, h => by
    simp only [hexRun, Bool.and_eq_true] at h
    obtain ⟨⟨hc, hd⟩, hr⟩ := h
    obtain ⟨b, hb⟩ := fromhex_hexRun hr
    have hs := not_isAsciiSpace_of_isHexDigit hc
    obtain ⟨x, hx⟩ := Option.isSome_iff_exists.mp hc
    obtain ⟨y, hy⟩ := Option.isSome_iff_exists.mp hd
    refine ⟨UInt8.ofNat (16 * x + y) :: b, ?_⟩
    simp [fromhex, hs, hexByte, hx, hy, hb]

theorem isHexDigit_hexDigit {n : Nat} (h : n < 16) : isHexDigit (hexDigit n) = true := by
  rw [isHexDigit, hexValue_hexDigit h]; rfl

theorem hexRun_hex (b : Bytes) : hexRun (hex b) = true := by
  induction b with
  | nil => rfl
  | cons x b ih =>
    have hx := x.toNat_lt
    simp only [hex, hexRun, Bool.and_eq_true]
    refine ⟨⟨?_, ?_⟩, ih⟩
    · apply isHexDigit_hexDigit
      omega
    · apply isHexDigit_hexDigit
      omega

theorem mem_hex {b : Bytes} {c : Nat} (h : c ∈ hex b) : ∃ n < 16, hexDigit n = c := by
  induction b with
  | nil => cases h
  | cons x b ih =>
    have hx := x.toNat_lt
    simp only [hex, List.mem_cons] at h
    obtain rfl | rfl | h := h
    · exact ⟨_, by omega, rfl⟩
    · exact ⟨_, by omega, rfl⟩
    · exact ih h

theorem isAscii_hex (b : Bytes) : isAscii (hex b) = true := by
  have hdigit : ∀ n < 16, hexDigit n < 128 := by decide
  rw [isAscii, List.all_eq_true]
  intro c hc
  obtain ⟨n, hn, rfl⟩ := mem_hex hc
  exact decide_eq_true (hdigit n hn)

theorem fromhex_hex (b : Bytes) : fromhex (hex b) = some b := by
  induction b with
  | nil => rfl
  | cons x b ih =>
    have hx := x.toNat_lt
    -- the pair of digits of an octet starts with no white space, and reads as the octet
    have hs := not_isAsciiSpace_of_isHexDigit (isHexDigit_hexDigit (n := x.toNat / 16) (by omega))
    have hbyte : UInt8.ofNat (16 * (x.toNat / 16) + x.toNat % 16) = x := by
      rw [Nat.div_add_mod]; exact UInt8.ofNat_toNat
    simp [hex, fromhex, hs, hexByte, hexValue_hexDigit (show x.toNat / 16 < 16 by omega),
      hexValue_hexDigit (show x.toNat % 16 < 16 by omega), ih, hbyte]

end Py
