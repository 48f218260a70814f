import Mathlib.Data.List.DropRight
import Mathlib.Data.List.Infix

/- Python text. A `str` is the list of its code points (`Str`), lone surrogates
   included: code points are natural numbers, and every Python `str` is one of
   these lists. Octet strings are lists of `UInt8`. The methods below are the
   built-in ones, under their Python names: `strip`, `split` on one character
   (`List.splitOn`), `partition`, `startswith`, `in`, and the codecs ASCII and
   Latin-1. `isSpace` is `str.isspace` on one code point; `pyInt` is `int(str)`
   in base 10 as CPython computes it:

     * it skips the whitespace of C's `isspace` among the ASCII characters and
       every other Unicode space (so U+001C to U+001F, which `strip` removes,
       make it fail);
     * decimal digits are those of Unicode category Nd, and a single underscore
       may stand between two of them;
     * more than `intMaxStrDigits` digits, leading zeros counted, is an error.

   `none` stands for the `ValueError`.

   `Msg` is an f-string before it is rendered: literal text and `{x!r}` fields.
   Which code points `repr` prints as themselves outside ASCII is a table of the
   Unicode database, the parameter `printable` of `Msg.render`. -/
namespace Py

abbrev Bytes := List UInt8
abbrev Str := List Nat

/-- A string literal's code points. -/
def lit (s : String) : Str := s.toList.map Char.toNat

/-- An ASCII literal's bytes. -/
def bytesLit (s : String) : Bytes := s.toList.map (fun c => UInt8.ofNat c.toNat)

def startsWith (s p : Str) : Bool := p.isPrefixOf s

theorem startsWith_iff {s p : Str} : startsWith s p = true ↔ ∃ r, s = p ++ r := by
  rw [startsWith, List.isPrefixOf_iff_prefix]
  exact ⟨fun ⟨r, hr⟩ => ⟨r, hr.symm⟩, fun ⟨r, hr⟩ => ⟨r, hr.symm⟩⟩

/-- `needle in s`. -/
def contains (s needle : Str) : Bool := s.tails.any (needle.isPrefixOf ·)

theorem contains_iff {s needle : Str} : contains s needle = true ↔ needle <:+: s := by
  rw [contains, List.any_eq_true, List.infix_iff_prefix_suffix]
  simp only [List.mem_tails, List.isPrefixOf_iff_prefix, and_comm]

/-- No occurrence of `needle` begins within `s`, whatever follows it. -/
def apart (s needle : Str) : Bool :=
  s.tails.all fun t => t.isEmpty || !(t.isPrefixOf needle || needle.isPrefixOf t)

theorem contains_append_of_apart {s needle : Str} (h : apart s needle = true) (t : Str) :
    contains (s ++ t) needle = contains t needle := by
  induction s with
  | nil => rfl
  | cons c s ih =>
    rw [apart, List.tails_cons, List.all_cons, Bool.and_eq_true] at h
    obtain ⟨hhere, hrest⟩ := h
    rw [List.isEmpty_cons, Bool.false_or, Bool.not_eq_true', ← Bool.not_eq_true, Bool.or_eq_true,
      List.isPrefixOf_iff_prefix, List.isPrefixOf_iff_prefix, not_or] at hhere
    have hnot : ¬ needle <+: c :: (s ++ t) := by
      intro hprefix
      have hown : c :: s <+: c :: (s ++ t) := List.prefix_append (c :: s) t
      exact (List.prefix_or_prefix_of_prefix hown hprefix).elim hhere.1 hhere.2
    rw [← ih hrest, Bool.eq_iff_iff, contains_iff, contains_iff, List.cons_append,
      List.infix_cons_iff, or_iff_right hnot]

theorem contains_append_of_apart_reverse {s needle : Str}
    (h : apart s.reverse needle.reverse = true) (t : Str) :
    contains (t ++ s) needle = contains t needle := by
  have hreverse : ∀ u : Str, contains u.reverse needle.reverse = contains u needle := by
    intro u
    rw [Bool.eq_iff_iff, contains_iff, contains_iff, List.reverse_infix]
  rw [← hreverse, List.reverse_append, contains_append_of_apart h, hreverse]

/-- `str.isspace` of one code point. -/
def isSpace (c : Nat) : Bool :=
  (9 ≤ c && c ≤ 13) || (0x1C ≤ c && c ≤ 0x20) || c == 0x85 || c == 0xA0 || c == 0x1680 ||
  (0x2000 ≤ c && c ≤ 0x200A) || c == 0x2028 || c == 0x2029 || c == 0x202F || c == 0x205F ||
  c == 0x3000

def stripBy (p : Nat → Bool) (s : Str) : Str := (s.dropWhile p).rdropWhile p

/-- `s.strip()`. -/
def strip (s : Str) : Str := stripBy isSpace s

/-- `s.partition(sep)` for one separating character: what is before it, and what
    is after it where it occurs. -/
def partition (sep : Nat) (s : Str) : Str × Option Str :=
  match s.dropWhile (· != sep) with
  | [] => (s.takeWhile (· != sep), none)
  | _ :: after => (s.takeWhile (· != sep), some after)

theorem partition_eq {sep : Nat} {s : Str} (h : sep ∉ s) (rest : Str) :
    partition sep (s ++ sep :: rest) = (s, some rest) := by
  have hne : ∀ c ∈ s, (c != sep) = true := by
    intro c hc
    rw [bne_iff_ne]
    rintro rfl
    exact h hc
  unfold partition
  rw [List.dropWhile_append_of_pos hne, List.takeWhile_append_of_pos hne,
    List.dropWhile_cons_of_neg (by simp), List.takeWhile_cons_of_neg (by simp)]
  simp only [List.append_nil]

/-- The last separator of a text settles what is on either side of it. -/
theorem last_separator {sep : Nat} {s t s' t' : Str} (ht : sep ∉ t) (ht' : sep ∉ t')
    (h : s ++ sep :: t = s' ++ sep :: t') : s = s' ∧ t = t' := by
  -- read from the right, it is the first
  have hreverse : ∀ s t : Str, (s ++ sep :: t).reverse = t.reverse ++ sep :: s.reverse := by
    intro s t
    simp
  have hread : partition sep (t.reverse ++ sep :: s.reverse) =
      partition sep (t'.reverse ++ sep :: s'.reverse) := by
    rw [← hreverse, ← hreverse, h]
  rw [partition_eq (by rwa [List.mem_reverse]), partition_eq (by rwa [List.mem_reverse])] at hread
  rw [Prod.mk.injEq, Option.some.injEq, List.reverse_inj, List.reverse_inj] at hread
  exact ⟨hread.2, hread.1⟩

/-- The scan of `str.replace`, with what is left of an occurrence to skip. -/
def replaceFrom (old new : Str) : Nat → Str → Str
  | _, [] => []
  | skip + 1, _ :: s => replaceFrom old new skip s
  | 0, c :: s =>
    if old.isPrefixOf (c :: s) then new ++ replaceFrom old new (old.length - 1) s
    else c :: replaceFrom old new 0 s

/-- `s.replace(old, new)`, of a text that is not empty. -/
def replace (s old new : Str) : Str := replaceFrom old new 0 s

theorem replace_char (s : Str) (old : Nat) (new : Str) :
    replace s [old] new = s.flatMap fun c => if c = old then new else [c] := by
  unfold replace
  induction s with
  | nil => rfl
  | cons c s ih =>
    rw [replaceFrom, List.flatMap_cons, ← ih]
    by_cases hc : c = old
    · simp [hc]
    · simp [hc, Ne.symm hc]

theorem replace_suffix {s : Str} {c : Nat} (h : c ∉ s) (rest new : Str) :
    replace (s ++ c :: rest) (c :: rest) new = s ++ new := by
  unfold replace
  induction s with
  | nil =>
    have hskip : ∀ r : Str, replaceFrom (c :: rest) new r.length r = [] := by
      intro r
      induction r with
      | nil => rfl
      | cons x r ih => exact ih
    simp [replaceFrom, hskip]
  | cons x s ih =>
    rw [List.mem_cons, not_or] at h
    have hne : (c :: rest).isPrefixOf (x :: (s ++ c :: rest)) = false := by
      simp [List.isPrefixOf, h.1]
    rw [List.cons_append, replaceFrom, hne, ih h.2]
    rfl

/-- `str.lower` on Latin-1 text. -/
def lower (s : Str) : Str :=
  s.map (fun c =>
    if (65 ≤ c ∧ c ≤ 90) ∨ (0xC0 ≤ c ∧ c ≤ 0xDE ∧ c ≠ 0xD7) then c + 32 else c)

/-! ## Codecs -/

def isAscii (s : Str) : Bool := s.all (· < 128)

/-- `s.encode("ascii")`; `none` is the `UnicodeEncodeError`. -/
def encodeAscii (s : Str) : Option Bytes :=
  if isAscii s then some (s.map UInt8.ofNat) else none

/-- `b.decode("latin-1")`. -/
def decodeLatin1 (b : Bytes) : Str := b.map UInt8.toNat

def IsLatin1 (s : Str) : Prop := ∀ c ∈ s, c < 256

instance (s : Str) : Decidable (IsLatin1 s) := inferInstanceAs (Decidable (∀ c ∈ s, c < 256))

theorem decodeLatin1_isLatin1 (b : Bytes) : IsLatin1 (decodeLatin1 b) := by
  intro c hc
  obtain ⟨x, _, rfl⟩ := List.mem_map.mp hc
  exact x.toNat_lt

theorem decodeLatin1_map_ofNat {s : Str} (h : IsLatin1 s) :
    decodeLatin1 (s.map UInt8.ofNat) = s := by
  unfold decodeLatin1
  rw [List.map_map]
  calc s.map (UInt8.toNat ∘ UInt8.ofNat) = s.map id := by
        apply List.map_congr_left
        intro c hc
        simp [Nat.mod_eq_of_lt (h c hc)]
    _ = s := List.map_id s

theorem isAscii_append {s t : Str} (hs : isAscii s = true) (ht : isAscii t = true) :
    isAscii (s ++ t) = true := by
  rw [isAscii, List.all_append, Bool.and_eq_true]
  exact ⟨hs, ht⟩

theorem isLatin1_of_isAscii {s : Str} (h : isAscii s = true) : IsLatin1 s := by
  intro c hc
  have := List.all_eq_true.mp h c hc
  simp at this
  omega

/-! ## Decimal digits and `int` -/

/-- The zeros of the decimal digit blocks of Unicode 15. -/
def decimalZeros : List Nat :=
  [0x30, 0x660, 0x6F0, 0x7C0, 0x966, 0x9E6, 0xA66, 0xAE6, 0xB66, 0xBE6, 0xC66, 0xCE6, 0xD66,
   0xDE6, 0xE50, 0xED0, 0xF20, 0x1040, 0x1090, 0x17E0, 0x1810, 0x1946, 0x19D0, 0x1A80, 0x1A90,
   0x1B50, 0x1BB0, 0x1C40, 0x1C50, 0xA620, 0xA8D0, 0xA900, 0xA9D0, 0xA9F0, 0xAA50, 0xABF0,
   0xFF10, 0x104A0, 0x10D30, 0x11066, 0x110F0, 0x11136, 0x111D0, 0x112F0, 0x11450, 0x114D0,
   0x11650, 0x116C0, 0x11730, 0x118E0, 0x11950, 0x11C50, 0x11D50, 0x11DA0, 0x11F50, 0x16A60,
   0x16AC0, 0x16B50, 0x1D7CE, 0x1D7D8, 0x1D7E2, 0x1D7EC, 0x1D7F6, 0x1E140, 0x1E2F0, 0x1E4F0,
   0x1E950, 0x1FBF0]

/-- The value of a decimal digit, as `unicodedata.decimal` gives it. -/
def decimalValue (c : Nat) : Option Nat :=
  (decimalZeros.find? (fun z => z ≤ c && c < z + 10)).map (c - ·)

/-- What `\d` matches in a `str` pattern. -/
def isDecimal (c : Nat) : Bool := (decimalValue c).isSome

def isAsciiDigit (c : Nat) : Bool := 48 ≤ c && c ≤ 57

/-- The number a run of decimal digits denotes. -/
def digitsValue (s : Str) : Nat := s.foldl (fun n c => 10 * n + (decimalValue c).getD 0) 0

/-- The digits of a run in which single underscores may stand between digits. -/
def underscored : Str → Option Str
  | [] => none
  | [c] => if isDecimal c then some [c] else none
  | c :: 95 :: rest => if isDecimal c then (underscored rest).map (c :: ·) else none
  | c :: d :: rest => if isDecimal c then (underscored (d :: rest)).map (c :: ·) else none

/-- The whitespace `int` skips around its digits. -/
def intSpace (c : Nat) : Bool := isSpace c && !(0x1C ≤ c && c ≤ 0x1F)

def intMaxStrDigits : Nat := 4300

/-- The magnitude `int` reads after the sign. -/
def intDigits (s : Str) : Option Nat :=
  (underscored s).bind (fun ds =>
    if ds.length ≤ intMaxStrDigits then some (digitsValue ds) else none)

/-- `int(s)`. -/
def pyInt (s : Str) : Option Int :=
  match stripBy intSpace s with
  | 45 :: r => (intDigits r).map (fun n => -(n : Int))
  | 43 :: r => (intDigits r).map (fun n => (n : Int))
  | r => (intDigits r).map (fun n => (n : Int))

example : pyInt (lit " +1_000 ") = some 1000 := by decide
example : pyInt (lit "1__0") = none := by decide

theorem isDecimal_iff {c : Nat} :
    isDecimal c = true ↔ ∃ z ∈ decimalZeros, z ≤ c ∧ c < z + 10 := by
  simp [isDecimal, decimalValue, List.find?_isSome]

theorem not_isSpace_of_isDecimal {c : Nat} (h : isDecimal c = true) : isSpace c = false := by
  obtain ⟨z, hz, h1, h2⟩ := isDecimal_iff.mp h
  have all : ∀ z ∈ decimalZeros, ∀ i < 10, isSpace (z + i) = false := by decide
  have := all z hz (c - z) (by omega)
  rwa [Nat.add_sub_cancel' h1] at this

theorem isDecimal_of_isAsciiDigit {c : Nat} (h : isAsciiDigit c = true) : isDecimal c = true := by
  simp only [isAsciiDigit, Bool.and_eq_true, decide_eq_true_eq] at h
  exact isDecimal_iff.mpr ⟨0x30, by decide, by omega, by omega⟩

theorem stripBy_eq_self {p : Nat → Bool} {s : Str} (h : ∀ c ∈ s, p c = false) :
    stripBy p s = s := by
  unfold stripBy
  have hd : s.dropWhile p = s := by
    cases s with
    | nil => rfl
    | cons c s => rw [List.dropWhile_cons_of_neg (by simp [h c (by simp)])]
  rw [hd, List.rdropWhile_eq_self_iff]
  intro hl
  simp [h _ (List.getLast_mem hl)]

theorem underscored_decimals {s : Str} (hne : s ≠ []) (h : ∀ c ∈ s, isDecimal c = true) :
    underscored s = some s := by
  induction s with
  | nil => exact absurd rfl hne
  | cons c s ih =>
    have hc : isDecimal c = true := h c (by simp)
    cases s with
    | nil => simp [underscored, hc]
    | cons d s =>
      have hd : d ≠ 95 := by
        intro heq
        rw [heq] at h
        exact absurd (h 95 (by simp)) (by decide)
      have htail := ih (by simp) (fun x hx => h x (List.mem_cons_of_mem c hx))
      unfold underscored
      simp [hc, htail]

theorem intDigits_decimals {s : Str} (hne : s ≠ []) (h : ∀ c ∈ s, isDecimal c = true) :
    intDigits s = if s.length ≤ intMaxStrDigits then some (digitsValue s) else none := by
  rw [intDigits, underscored_decimals hne h, Option.bind_some]

theorem not_intSpace_of_isDecimal {c : Nat} (h : isDecimal c = true) : intSpace c = false := by
  simp [intSpace, not_isSpace_of_isDecimal h]

/-- `int` of a run of decimal digits: its value, if the run is not too long. -/
theorem pyInt_decimals {s : Str} (hne : s ≠ []) (h : ∀ c ∈ s, isDecimal c = true) :
    pyInt s = if s.length ≤ intMaxStrDigits then some (digitsValue s : Int) else none := by
  have hstrip : stripBy intSpace s = s :=
    stripBy_eq_self fun c hc => not_intSpace_of_isDecimal (h c hc)
  have hsign : ∀ x r, s = x :: r → x ≠ 45 ∧ x ≠ 43 := by
    intro x r heq
    have hx : isDecimal x = true := h x (by simp [heq])
    refine ⟨?_, ?_⟩ <;> intro hsign <;> rw [hsign] at hx <;> exact absurd hx (by decide)
  have hdigits : (intDigits s).map (fun n => (n : Int)) =
      if s.length ≤ intMaxStrDigits then some (digitsValue s : Int) else none := by
    rw [intDigits_decimals hne h]
    split <;> rfl
  unfold pyInt
  rw [hstrip]
  split
  · exact absurd rfl (hsign _ _ rfl).1
  · exact absurd rfl (hsign _ _ rfl).2
  · exact hdigits

theorem pyInt_signed {s : Str} (hne : s ≠ []) (h : ∀ c ∈ s, isDecimal c = true) :
    pyInt (45 :: s) =
        (if s.length ≤ intMaxStrDigits then some (-(digitsValue s : Int)) else none) ∧
      pyInt (43 :: s) =
        if s.length ≤ intMaxStrDigits then some (digitsValue s : Int) else none := by
  have hstrip : ∀ x, x = 45 ∨ x = 43 → stripBy intSpace (x :: s) = x :: s := by
    intro x hx
    apply stripBy_eq_self
    intro c hc
    rcases List.mem_cons.mp hc with rfl | hc
    · rcases hx with rfl | rfl <;> decide
    · exact not_intSpace_of_isDecimal (h c hc)
  simp only [pyInt, hstrip 45 (.inl rfl), hstrip 43 (.inr rfl), intDigits_decimals hne h]
  refine ⟨?_, ?_⟩ <;> split <;> rfl

/-! ## `str(int)`, `repr` and f-strings -/

/-- `str(n)`. -/
def intStr (n : Int) : Str :=
  if n < 0 then 45 :: (Nat.toDigits 10 n.natAbs).map Char.toNat
  else (Nat.toDigits 10 n.natAbs).map Char.toNat

/-- `n` in lower-case hex, on `width` digits. -/
def hexPad : Nat → Nat → Str
  | 0, _ => []
  | width + 1, n => hexPad width (n / 16) ++ [if n % 16 < 10 then 48 + n % 16 else 87 + n % 16]

def reprChar (printable : Nat → Bool) (quote c : Nat) : Str :=
  if c = quote ∨ c = 92 then [92, c]
  else if c = 9 then lit "\\t"
  else if c = 10 then lit "\\n"
  else if c = 13 then lit "\\r"
  else if 32 ≤ c ∧ c < 127 then [c]
  else if 128 ≤ c ∧ printable c then [c]
  else if c < 0x100 then lit "\\x" ++ hexPad 2 c
  else if c < 0x10000 then lit "\\u" ++ hexPad 4 c
  else lit "\\U" ++ hexPad 8 c

/-- `repr(s)`: in single quotes, unless the text holds those and no double one. -/
def repr (printable : Nat → Bool) (s : Str) : Str :=
  let quote := if 39 ∈ s ∧ 34 ∉ s then 34 else 39
  quote :: s.flatMap (reprChar printable quote) ++ [quote]

inductive Part where
  | text (s : Str)
  | repr (s : Str)
  deriving DecidableEq, Repr

abbrev Msg := List Part

def msg (s : String) : Msg := [.text (lit s)]

def Msg.render (printable : Nat → Bool) (m : Msg) : Str :=
  m.flatMap (fun
    | .text s => s
    | .repr s => Py.repr printable s)

end Py
