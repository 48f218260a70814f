import Mathlib.Algebra.Group.Nat.Even
import HookGuard.Lib.Hex

/- `str.lower` on any text. What a code point becomes is a table of the Unicode database,
   which differs between versions of Python, and may depend on the text around it (the
   final sigma): a `Lowercase` is such a table. All of them agree on ASCII, and on what
   becomes ASCII, which beside ASCII itself only the Kelvin sign does.

   So a text that is hexadecimal in lower case was hexadecimal before (`hexRun_of_lower`),
   and what it denotes is written as that text in lower case (`hex_fromhex`). -/
namespace Py

/-- The lower case of an ASCII character. -/
def asciiLower (c : Nat) : Nat := if 65 ≤ c ∧ c ≤ 90 then c + 32 else c

/-- What each code point becomes, between the text before it and the text behind. -/
structure Lowercase where
  char : Str → Nat → Str → Str
  ascii : ∀ before c behind, c < 128 → char before c behind = [asciiLower c]
  /-- The Kelvin sign becomes a `k`. -/
  kelvin : ∀ before behind, char before 0x212A behind = [107]
  other : ∀ before c behind, 128 ≤ c → c ≠ 0x212A → ∃ d ∈ char before c behind, 128 ≤ d

namespace Lowercase

/-- Nothing but ASCII and the Kelvin sign is changed. -/
def plain : Lowercase where
  char _ c _ := if c = 0x212A then [107] else [asciiLower c]
  ascii _ c _ hc := if_neg (by omega)
  kelvin _ _ := rfl
  other _ c _ hc hne := ⟨c, by simp [hne, asciiLower, show ¬ c ≤ 90 by omega], hc⟩

variable (l : Lowercase)

def lowerFrom : Str → Str → Str
  | _, [] => []
  | before, c :: s => l.char before c s ++ lowerFrom (before ++ [c]) s

/-- `s.lower()`. -/
def lower (s : Str) : Str := l.lowerFrom [] s

variable {l}

theorem lowerFrom_ascii {s : Str} (h : isAscii s = true) (before : Str) :
    l.lowerFrom before s = s.map asciiLower := by
  induction s generalizing before with
  | nil => rfl
  | cons c s ih =>
    rw [isAscii, List.all_cons, Bool.and_eq_true, decide_eq_true_eq] at h
    rw [lowerFrom, l.ascii _ _ _ h.1, ih h.2]
    rfl

/-- A text that is not ASCII does not become ASCII, but for a `k`. -/
theorem lowerFrom_of_not_ascii {s : Str} (h : isAscii s = false) (before : Str) :
    ∃ d ∈ l.lowerFrom before s, 128 ≤ d ∨ d = 107 := by
  induction s generalizing before with
  | nil => cases h
  | cons c s ih =>
    rw [lowerFrom]
    by_cases hc : c < 128
    · have hs : isAscii s = false := by simpa [isAscii, hc] using h
      obtain ⟨d, hd, hd'⟩ := ih hs (before ++ [c])
      exact ⟨d, List.mem_append_right _ hd, hd'⟩
    · by_cases hk : c = 0x212A
      · subst hk
        exact ⟨107, List.mem_append_left _ (by simp [l.kelvin]), .inr rfl⟩
      · obtain ⟨d, hd, hd'⟩ := l.other before c s (by omega) hk
        exact ⟨d, List.mem_append_left _ hd, .inl hd'⟩

end Lowercase

/-! ## Hexadecimal text in lower case -/

theorem isHexDigit_ranges {c : Nat} : isHexDigit c = true ↔
    (48 ≤ c ∧ c ≤ 57) ∨ (97 ≤ c ∧ c ≤ 102) ∨ (65 ≤ c ∧ c ≤ 70) := by
  unfold isHexDigit hexValue
  split
  · simp [*]
  · split
    · simp [*]
    · split
      · simp [*]
      · simp [*]

theorem isHexDigit_asciiLower {c : Nat} : isHexDigit (asciiLower c) = isHexDigit c := by
  rw [Bool.eq_iff_iff, isHexDigit_ranges, isHexDigit_ranges, asciiLower]
  split <;> omega

theorem hexDigit_hexValue {c n : Nat} (h : hexValue c = some n) :
    n < 16 ∧ hexDigit n = asciiLower c := by
  unfold hexValue at h
  unfold hexDigit asciiLower
  split at h
  · obtain rfl := Option.some.inj h
    rw [if_pos (by omega), if_neg (by omega)]
    omega
  · split at h
    · obtain rfl := Option.some.inj h
      rw [if_neg (by omega), if_neg (by omega)]
      omega
    · split at h
      · obtain rfl := Option.some.inj h
        rw [if_neg (by omega), if_pos (by omega)]
        omega
      · cases h

theorem hexRun_iff {s : Str} :
    hexRun s = true ↔ Even s.length ∧ ∀ c ∈ s, isHexDigit c = true := by
  induction s using hexRun.induct with
  | case1 => simp [hexRun]
  | case2 c => simp [hexRun]
  | case3 c d r ih =>
    have heven : Even (c :: d :: r).length ↔ Even r.length := by
      rw [List.length_cons, List.length_cons, Nat.even_add_one, Nat.even_add_one, not_not]
    rw [hexRun, Bool.and_eq_true, Bool.and_eq_true, ih, heven]
    simp only [List.forall_mem_cons]
    tauto

theorem isAscii_of_isHexDigit {s : Str} (h : ∀ c ∈ s, isHexDigit c = true) :
    isAscii s = true := by
  rw [isAscii, List.all_eq_true]
  intro c hc
  have hdigit := isHexDigit_ranges.mp (h c hc)
  rw [decide_eq_true_eq]
  omega

theorem hex_fromhex_ascii {s : Str} {b : Bytes} (h : hexRun s = true) (hb : fromhex s = some b) :
    hex b = s.map asciiLower := by
  induction s using hexRun.induct generalizing b with
  | case1 =>
    rw [fromhex, Option.some.injEq] at hb
    rw [← hb]
    rfl
  | case2 c => cases h
  | case3 c d r ih =>
    rw [hexRun, Bool.and_eq_true, Bool.and_eq_true] at h
    obtain ⟨⟨hc, hd⟩, hr⟩ := h
    obtain ⟨x, hx⟩ := Option.isSome_iff_exists.mp hc
    obtain ⟨y, hy⟩ := Option.isSome_iff_exists.mp hd
    obtain ⟨t, ht⟩ := fromhex_hexRun hr
    obtain ⟨hx16, hxc⟩ := hexDigit_hexValue hx
    obtain ⟨hy16, hyd⟩ := hexDigit_hexValue hy
    simp only [fromhex, not_isAsciiSpace_of_isHexDigit hc, hexByte, hx, hy, ht, Option.map_some,
      Bool.false_eq_true, if_false, Option.some.injEq] at hb
    -- the octet of the first two digits splits into them again
    have hoctet : (UInt8.ofNat (16 * x + y)).toNat = 16 * x + y := by
      rw [UInt8.toNat_ofNat']
      exact Nat.mod_eq_of_lt (by omega)
    have hhigh : (16 * x + y) / 16 = x := by omega
    have hlow : (16 * x + y) % 16 = y := by omega
    rw [← hb, hex, hoctet, hhigh, hlow, hxc, hyd, ih hr ht, List.map_cons, List.map_cons]

/-- A text whose lower case is what octets are written as is strict. -/
theorem hexRun_of_lower {l : Lowercase} {s : Str} {b : Bytes} (h : l.lower s = hex b) :
    hexRun s = true := by
  obtain ⟨heven, hdigits⟩ := hexRun_iff.mp (hexRun_hex b)
  -- neither what is not ASCII nor a `k` is a hex digit
  have hascii : isAscii s = true := by
    by_contra hnot
    rw [Bool.not_eq_true] at hnot
    obtain ⟨d, hd, hother⟩ := Lowercase.lowerFrom_of_not_ascii (l := l) hnot []
    have hdigit := isHexDigit_ranges.mp (hdigits d (h ▸ hd))
    omega
  rw [Lowercase.lower, Lowercase.lowerFrom_ascii hascii] at h
  rw [← h, List.length_map] at heven
  refine hexRun_iff.mpr ⟨heven, ?_⟩
  intro c hc
  rw [← isHexDigit_asciiLower]
  exact hdigits _ (h ▸ List.mem_map_of_mem hc)

theorem hex_fromhex {l : Lowercase} {s : Str} {b : Bytes} (h : hexRun s = true)
    (hb : fromhex s = some b) : hex b = l.lower s := by
  rw [hex_fromhex_ascii h hb, Lowercase.lower,
    Lowercase.lowerFrom_ascii (isAscii_of_isHexDigit (hexRun_iff.mp h).2)]

theorem hex_injective {b b' : Bytes} (h : hex b = hex b') : b = b' := by
  have hread := fromhex_hex b
  rw [h, fromhex_hex] at hread
  exact (Option.some.inj hread).symm

end Py
