import HookGuard.Lib.Decimal
import HookGuard.Lib.Hex
import HookGuard.Lib.Value

/- The `json` module, as CPython has it: what `json.dumps` writes of a value and what
   `json.loads` reads of a text. Floats are left to the platform (`Floats`).

   `dumps` writes ASCII only: a code point past U+FFFF as the two escapes of a surrogate
   pair. `loads` joins two such escapes, so that it joins also what were two code points of
   the value, a high surrogate and a low one after it (`Value.paired`); everything else is
   read back as it was written (`scan_dumps`). The members of an object are read as they
   stand in the text, one after another, also where a name comes twice. -/
namespace Json
open Py

/-! ## Writing -/

/-- What the platform makes of floats: their text, and the float of a text. -/
structure Floats where
  repr : PyFloat → Str
  parse : Str → PyFloat

def unicodeEscape (unit : Nat) : Str := lit "\\u" ++ hexPad 4 unit

/-- How a code point stands in a string. -/
def escapeChar (c : Nat) : Str :=
  if c = 34 then lit "\\\""
  else if c = 92 then lit "\\\\"
  else if c = 10 then lit "\\n"
  else if c = 13 then lit "\\r"
  else if c = 9 then lit "\\t"
  else if c = 12 then lit "\\f"
  else if c = 8 then lit "\\b"
  else if 32 ≤ c ∧ c ≤ 126 then [c]
  else if c < 0x10000 then unicodeEscape c
  else unicodeEscape (0xD800 + (c - 0x10000) / 0x400) ++
    unicodeEscape (0xDC00 + (c - 0x10000) % 0x400)

/-- `encode_basestring_ascii`. -/
def encodeString (s : Str) : Str := 34 :: s.flatMap escapeChar ++ [34]

def isBlank (c : Nat) : Bool := c == 32 || c == 9 || c == 10 || c == 13

/-- The separators, up to the blanks after a comma and after a colon, and the indent. -/
structure Layout where
  item : Str
  key : Str
  indent : Option Nat
  blank : (item ++ key).all isBlank = true

/-- `separators=(",", ":")`. -/
def Layout.compact : Layout := ⟨[], [], none, rfl⟩

/-- No `separators` and no `indent`. -/
def Layout.plain : Layout := ⟨[32], [32], none, rfl⟩

def Layout.indented (n : Nat) : Layout := ⟨[], [32], some n, rfl⟩

/-- The line break before an item of a level. -/
def Layout.newline (l : Layout) (level : Nat) : Str :=
  match l.indent with
  | none => []
  | some n => 10 :: List.replicate (n * level) 32

section Write
variable (fl : Floats) (l : Layout)

mutual

/-- A value that stands at a level. -/
def encode (level : Nat) : Value → Str
  | .none => lit "null"
  | .bool true => lit "true"
  | .bool false => lit "false"
  | .int n => intStr n
  | .float x => fl.repr x
  | .str s => encodeString s
  | .list [] => lit "[]"
  | .list (v :: items) =>
    91 :: l.newline (level + 1) ++ encode (level + 1) v ++ encodeItems (level + 1) items ++
      l.newline level ++ [93]
  | .dict [] => lit "\x7b\x7d"
  | .dict ((k, v) :: members) =>
    123 :: l.newline (level + 1) ++ encodeString k ++ 58 :: l.key ++ encode (level + 1) v ++
      encodeMembers (level + 1) members ++ l.newline level ++ [125]

/-- The items after the first, each after a comma. -/
def encodeItems (level : Nat) : List Value → Str
  | [] => []
  | v :: items => 44 :: l.item ++ l.newline level ++ encode level v ++ encodeItems level items

def encodeMembers (level : Nat) : List (Str × Value) → Str
  | [] => []
  | (k, v) :: members =>
    44 :: l.item ++ l.newline level ++ encodeString k ++ 58 :: l.key ++ encode level v ++
      encodeMembers level members

end

/-- `json.dumps`. -/
def dumps (v : Value) : Str := encode fl l 0 v

end Write

/-! ## Reading -/

/-- Why a text is not read: at what is left of it, or as a number has too many digits, or
    as it is nested too deep. -/
inductive Fail where
  | decode (what : String) (left : Str)
  | digits (count : Nat)
  | recursion

/-- What is read, and what is left of the text. -/
abbrev Scan (α : Type) := Except Fail (α × Str)

def skipBlanks (s : Str) : Str := s.dropWhile isBlank

/-- Four hexadecimal digits. -/
def hex4 (a b c d : Nat) : Option Nat :=
  match hexValue a, hexValue b, hexValue c, hexValue d with
  | some a, some b, some c, some d => some (4096 * a + 256 * b + 16 * c + d)
  | _, _, _, _ => none

/-- The escapes of one character. -/
def simpleEscape (c : Nat) : Option Nat :=
  if c = 34 ∨ c = 92 ∨ c = 47 then some c
  else if c = 98 then some 8
  else if c = 102 then some 12
  else if c = 110 then some 10
  else if c = 114 then some 13
  else if c = 116 then some 9
  else none

def isHigh (u : Nat) : Bool := 0xD800 ≤ u && u < 0xDC00
def isLow (u : Nat) : Bool := 0xDC00 ≤ u && u < 0xE000

/-- The code point of a surrogate pair. -/
def joinPair (h l : Nat) : Nat := 0x10000 + (h - 0xD800) * 0x400 + (l - 0xDC00)

/-- The characters of a string up to its closing quote: each with whether it was written as
    a `\u` escape. `start` is the text from the opening quote on. -/
def scanUnits (start : Str) : Str → Scan (List (Nat × Bool))
  | [] => .error (.decode "Unterminated string starting at" start)
  | c :: s =>
    if c = 34 then .ok ([], s)
    else if c ≤ 31 then .error (.decode "Invalid control character at" (c :: s))
    else if c ≠ 92 then (scanUnits start s).map fun r => ((c, false) :: r.1, r.2)
    else
      match s with
      | [] => .error (.decode "Unterminated string starting at" start)
      | 117 :: h₁ :: h₂ :: h₃ :: h₄ :: s' =>
        -- something has to stand after the digits
        match hex4 h₁ h₂ h₃ h₄, s' with
        | some u, _ :: _ => (scanUnits start s').map fun r => ((u, true) :: r.1, r.2)
        | _, _ => .error (.decode "Invalid \\uXXXX escape" s)
      | d :: s' =>
        if d = 117 then .error (.decode "Invalid \\uXXXX escape" s)
        else
          match simpleEscape d with
          | some u => (scanUnits start s').map fun r => ((u, false) :: r.1, r.2)
          | none => .error (.decode "Invalid \\escape" (c :: s))

/-- Two escapes of a surrogate pair are one code point. -/
def joinPairs : List (Nat × Bool) → Str
  | (h, true) :: (l, true) :: units =>
    if isHigh h && isLow l then joinPair h l :: joinPairs units
    else h :: joinPairs ((l, true) :: units)
  | (c, _) :: units => c :: joinPairs units
  | [] => []

/-- `scanstring`, after the opening quote. -/
def scanString (start s : Str) : Scan Str :=
  (scanUnits start s).map fun r => (joinPairs r.1, r.2)

section Read
variable (fl : Floats)

/-- The fraction of a number: a point and digits. -/
def scanFraction : Str → Str × Str
  | 46 :: d :: s =>
    if isAsciiDigit d then (46 :: d :: s.takeWhile isAsciiDigit, s.dropWhile isAsciiDigit)
    else ([], 46 :: d :: s)
  | s => ([], s)

/-- The exponent of a number: digits after an `e` and a sign. -/
def scanExponent : Str → Str × Str
  | [] => ([], [])
  | e :: s =>
    if e = 101 ∨ e = 69 then
      let sign := s.take (if s.head? = some 43 ∨ s.head? = some 45 then 1 else 0)
      let digits := s.drop sign.length
      if digits.takeWhile isAsciiDigit = [] then ([], e :: s)
      else (e :: sign ++ digits.takeWhile isAsciiDigit, digits.dropWhile isAsciiDigit)
    else ([], e :: s)

/-- The digits of a whole number: one zero, or digits from another one on. -/
def scanDigits : Str → Option (Str × Str)
  | [] => none
  | c :: s =>
    if c = 48 then some ([48], s)
    else if isAsciiDigit c then some (c :: s.takeWhile isAsciiDigit, s.dropWhile isAsciiDigit)
    else none

/-- The minus sign of a number, and what is after it. -/
def scanSign : Str → Str × Str
  | 45 :: s => ([45], s)
  | s => ([], s)

/-- `_match_number`. -/
def scanNumber (s : Str) : Scan Value :=
  let (sign, r) := scanSign s
  match scanDigits r with
  | none => .error (.decode "Expecting value" s)
  | some (digits, r) =>
    let (fraction, r) := scanFraction r
    let (exponent, r) := scanExponent r
    if fraction ++ exponent = [] then
      match pyInt (sign ++ digits) with
      | some n => .ok (.int n, r)
      | none => .error (.digits digits.length)
    else .ok (.float (fl.parse (sign ++ digits ++ fraction ++ exponent)), r)

/-- The constants, by what they begin with. -/
def constants : List (Str × Value) :=
  [(lit "null", .none), (lit "true", .bool true), (lit "false", .bool false),
   (lit "NaN", .float .nan), (lit "Infinity", .float (.inf false)),
   (lit "-Infinity", .float (.inf true))]

def scanConstant (s : Str) : Option (Value × Str) :=
  (constants.find? fun c => startsWith s c.1).map fun c => (c.2, s.drop c.1.length)

/-- The items of an array up to its bracket, from the first; `fuel` is above the length of
    the text, and so above their number. -/
def scanItems (value : Str → Scan Value) : Nat → Str → Scan (List Value)
  | 0, _ => .error .recursion
  | fuel + 1, s =>
    match value s with
    | .error e => .error e
    | .ok (v, r) =>
      match skipBlanks r with
      | 93 :: r => .ok ([v], r)
      | 44 :: r => (scanItems value fuel (skipBlanks r)).map fun x => (v :: x.1, x.2)
      | r => .error (.decode "Expecting ',' delimiter" r)

/-- A name, the colon and the value after it. -/
def scanMember (value : Str → Scan Value) (s : Str) : Scan (Str × Value) :=
  match s with
  | 34 :: r =>
    match scanString s r with
    | .error e => .error e
    | .ok (k, r) =>
      match skipBlanks r with
      | 58 :: r => (value (skipBlanks r)).map fun x => ((k, x.1), x.2)
      | r => .error (.decode "Expecting ':' delimiter" r)
  | _ => .error (.decode "Expecting property name enclosed in double quotes" s)

/-- The members of an object up to its brace, from the first. -/
def scanMembers (value : Str → Scan Value) : Nat → Str → Scan (List (Str × Value))
  | 0, _ => .error .recursion
  | fuel + 1, s =>
    match scanMember value s with
    | .error e => .error e
    | .ok (m, r) =>
      match skipBlanks r with
      | 125 :: r => .ok ([m], r)
      | 44 :: r => (scanMembers value fuel (skipBlanks r)).map fun x => (m :: x.1, x.2)
      | r => .error (.decode "Expecting ',' delimiter" r)

/-- `scan_once`, in a text that may be nested so deep. -/
def scanOnce : Nat → Str → Scan Value
  | _, [] => .error (.decode "Expecting value" [])
  | depth, c :: s =>
    if c = 34 then (scanString (c :: s) s).map fun r => (.str r.1, r.2)
    else if c = 123 then
      match depth with
      | 0 => .error .recursion
      | depth + 1 =>
        match skipBlanks s with
        | 125 :: r => .ok (.dict [], r)
        | r => (scanMembers (scanOnce depth) (r.length + 1) r).map fun x => (.dict x.1, x.2)
    else if c = 91 then
      match depth with
      | 0 => .error .recursion
      | depth + 1 =>
        match skipBlanks s with
        | 93 :: r => .ok (.list [], r)
        | r => (scanItems (scanOnce depth) (r.length + 1) r).map fun x => (.list x.1, x.2)
    else
      match scanConstant (c :: s) with
      | some r => .ok r
      | none => scanNumber fl (c :: s)

/-- `JSONDecoder.decode`. -/
def scan (depth : Nat) (s : Str) : Except Fail Value :=
  match scanOnce fl depth (skipBlanks s) with
  | .error e => .error e
  | .ok (v, r) =>
    match skipBlanks r with
    | [] => .ok v
    | r => .error (.decode "Extra data" r)

end Read

/-! ## Strings, read back -/

/-- A high surrogate and a low one after it are one code point. -/
def pairUp : Str → Str
  | h :: l :: s =>
    if isHigh h && isLow l then joinPair h l :: pairUp s else h :: pairUp (l :: s)
  | s => s

/-- A code point as it is read: by itself, as an escape, or as two. -/
def charUnits (c : Nat) : List (Nat × Bool) :=
  if c < 0x80 then [(c, escapeChar c == unicodeEscape c)]
  else if c < 0x10000 then [(c, true)]
  else [(0xD800 + (c - 0x10000) / 0x400, true), (0xDC00 + (c - 0x10000) % 0x400, true)]

section Strings
variable {start s rest : Str}

theorem hexPad_four (u : Nat) : hexPad 4 u =
    [hexDigit (u / 16 / 16 / 16 % 16), hexDigit (u / 16 / 16 % 16), hexDigit (u / 16 % 16),
      hexDigit (u % 16)] := rfl

theorem hex4_hexPad {u : Nat} (h : u < 0x10000) :
    hex4 (hexDigit (u / 16 / 16 / 16 % 16)) (hexDigit (u / 16 / 16 % 16))
      (hexDigit (u / 16 % 16)) (hexDigit (u % 16)) = some u := by
  unfold hex4
  rw [hexValue_hexDigit (Nat.mod_lt _ (by decide)), hexValue_hexDigit (Nat.mod_lt _ (by decide)),
    hexValue_hexDigit (Nat.mod_lt _ (by decide)), hexValue_hexDigit (Nat.mod_lt _ (by decide))]
  simp only [Option.some.injEq]
  omega

theorem scanUnits_plain {c : Nat} (hquote : c ≠ 34) (hcontrol : 31 < c) (hbackslash : c ≠ 92) :
    scanUnits start (c :: s) = (scanUnits start s).map fun r => ((c, false) :: r.1, r.2) := by
  rw [scanUnits.eq_def]
  simp only [hquote, if_false, show ¬ c ≤ 31 by omega, hbackslash, ne_eq, not_false_eq_true,
    if_true]

theorem scanUnits_simple {d u : Nat} (hd : d ≠ 117) (hu : simpleEscape d = some u) :
    scanUnits start (92 :: d :: s) = (scanUnits start s).map fun r => ((u, false) :: r.1, r.2) := by
  rw [scanUnits.eq_def]
  simp only [show ¬ (92 : Nat) = 34 by decide, show ¬ (92 : Nat) ≤ 31 by decide, ne_eq,
    not_true_eq_false, if_false]
  split
  · next heq => cases heq
  · next heq => exact absurd (List.cons.inj heq).1 hd
  · next heq =>
    obtain ⟨rfl, rfl⟩ := List.cons.inj heq
    simp only [hd, if_false, hu]

theorem scanUnits_unicode {a b c d u e : Nat} (hu : hex4 a b c d = some u) :
    scanUnits start (92 :: 117 :: a :: b :: c :: d :: e :: s) =
      (scanUnits start (e :: s)).map fun r => ((u, true) :: r.1, r.2) := by
  rw [scanUnits.eq_def]
  simp only [show ¬ (92 : Nat) = 34 by decide, show ¬ (92 : Nat) ≤ 31 by decide, ne_eq,
    not_true_eq_false, if_false, hu]

theorem scanUnits_unicodeEscape {u : Nat} (h : u < 0x10000) (hs : s ≠ []) :
    scanUnits start (unicodeEscape u ++ s) =
      (scanUnits start s).map fun r => ((u, true) :: r.1, r.2) := by
  obtain ⟨c, s', rfl⟩ := List.exists_cons_of_ne_nil hs
  have hlit : unicodeEscape u = 92 :: 117 :: hexPad 4 u := rfl
  rw [hlit, hexPad_four]
  exact scanUnits_unicode (hex4_hexPad h)

theorem scanUnits_escapeChar {c : Nat} (hc : c < 0x110000) (hs : s ≠ []) :
    scanUnits start (escapeChar c ++ s) =
      (scanUnits start s).map fun r => (charUnits c ++ r.1, r.2) := by
  by_cases hsmall : c < 0x80
  · have all : ∀ c < 0x80, escapeChar c = unicodeEscape c ∨
        charUnits c = [(c, false)] ∧ (escapeChar c = [c] ∧ c ≠ 34 ∧ 31 < c ∧ c ≠ 92 ∨
          ∃ d < 0x80, escapeChar c = [92, d] ∧ d ≠ 117 ∧ simpleEscape d = some c) := by
      decide +kernel
    rcases all c hsmall with hesc | ⟨hunits, ⟨hesc, hquote, hcontrol, hbackslash⟩ | hesc⟩
    · have hunits : charUnits c = [(c, true)] := by
        rw [charUnits, if_pos hsmall, hesc, beq_self_eq_true]
      rw [hesc, scanUnits_unicodeEscape (by omega) hs, hunits]
      rfl
    · rw [hesc, hunits]
      exact scanUnits_plain hquote hcontrol hbackslash
    · obtain ⟨d, -, hesc, hd, hsimple⟩ := hesc
      rw [hesc, hunits]
      exact scanUnits_simple hd hsimple
  · have hesc : escapeChar c = if c < 0x10000 then unicodeEscape c
        else unicodeEscape (0xD800 + (c - 0x10000) / 0x400) ++
          unicodeEscape (0xDC00 + (c - 0x10000) % 0x400) := by
      unfold escapeChar
      repeat rw [if_neg (by omega)]
    rw [hesc, charUnits, if_neg hsmall]
    by_cases hbmp : c < 0x10000
    · rw [if_pos hbmp, if_pos hbmp, scanUnits_unicodeEscape hbmp hs]
      rfl
    · rw [if_neg hbmp, if_neg hbmp, List.append_assoc,
        scanUnits_unicodeEscape (by omega) (by simp [unicodeEscape, lit]),
        scanUnits_unicodeEscape (by omega) hs]
      cases scanUnits start s <;> rfl

theorem scanUnits_escaped (hs : ∀ c ∈ s, c < 0x110000) :
    scanUnits start (s.flatMap escapeChar ++ 34 :: rest) = .ok (s.flatMap charUnits, rest) := by
  induction s with
  | nil =>
    show scanUnits start (34 :: rest) = _
    rw [scanUnits.eq_def]
    rfl
  | cons c s ih =>
    rw [List.forall_mem_cons] at hs
    rw [List.flatMap_cons, List.append_assoc, scanUnits_escapeChar hs.1 (by simp), ih hs.2]
    rfl

theorem isHigh_iff {u : Nat} : isHigh u = true ↔ 0xD800 ≤ u ∧ u < 0xDC00 := by
  simp [isHigh]

theorem isLow_iff {u : Nat} : isLow u = true ↔ 0xDC00 ≤ u ∧ u < 0xE000 := by
  simp [isLow]

theorem joinPairs_pair {h l : Nat} {units : List (Nat × Bool)} (hh : isHigh h = true)
    (hl : isLow l = true) :
    joinPairs ((h, true) :: (l, true) :: units) = joinPair h l :: joinPairs units := by
  show (if isHigh h && isLow l then _ else _) = _
  rw [hh, hl]
  rfl

theorem joinPairs_cons {c : Nat} {b : Bool} {units : List (Nat × Bool)}
    (hnext : isHigh c = true → ∀ l rest, units = (l, true) :: rest → isLow l = false) :
    joinPairs ((c, b) :: units) = c :: joinPairs units := by
  cases b with
  | false => rfl
  | true =>
    cases units with
    | nil => rfl
    | cons unit units =>
      obtain ⟨l, b⟩ := unit
      cases b with
      | false => rfl
      | true =>
        show (if isHigh c && isLow l then _ else _) = _
        cases hh : isHigh c with
        | false => rfl
        | true =>
          rw [hnext hh l units rfl]
          rfl

theorem joinPairs_charUnits {c : Nat} {units : List (Nat × Bool)} (hc : c < 0x110000)
    (hnext : isHigh c = true → ∀ l rest, units = (l, true) :: rest → isLow l = false) :
    joinPairs (charUnits c ++ units) = c :: joinPairs units := by
  unfold charUnits
  split
  · exact joinPairs_cons hnext
  · split
    · exact joinPairs_cons hnext
    · -- the two surrogates of one code point
      have hhigh : isHigh (0xD800 + (c - 0x10000) / 0x400) = true := isHigh_iff.mpr (by omega)
      have hlow : isLow (0xDC00 + (c - 0x10000) % 0x400) = true := isLow_iff.mpr (by omega)
      have hjoin : joinPair (0xD800 + (c - 0x10000) / 0x400)
          (0xDC00 + (c - 0x10000) % 0x400) = c := by
        unfold joinPair
        omega
      show joinPairs ((_, true) :: (_, true) :: units) = _
      rw [joinPairs_pair hhigh hlow, hjoin]

/-- The first unit of a code point is a low surrogate only where that is. -/
theorem charUnits_head {c : Nat} (hc : c < 0x110000) : ∃ u b units, charUnits c = (u, b) :: units ∧
    (isLow u = true → u = c) := by
  unfold charUnits
  split
  · exact ⟨_, _, _, rfl, fun _ => rfl⟩
  · split
    · exact ⟨_, _, _, rfl, fun _ => rfl⟩
    · next hbmp =>
      refine ⟨_, _, _, rfl, ?_⟩
      intro hlow
      rw [isLow_iff] at hlow
      omega

theorem pairUp_cons (h l : Nat) (s : Str) : pairUp (h :: l :: s) =
    if isHigh h && isLow l then joinPair h l :: pairUp s else h :: pairUp (l :: s) := rfl

theorem pairUp_short (hs : ∀ h l t, s = h :: l :: t → False) : pairUp s = s := by
  match s, hs with
  | [], _ => rfl
  | [_], _ => rfl
  | h :: l :: t, hs => exact (hs h l t rfl).elim

theorem joinPairs_escaped (hs : ∀ c ∈ s, c < 0x110000) :
    joinPairs (s.flatMap charUnits) = pairUp s := by
  induction s using pairUp.induct with
  | case1 h l s hpair ih =>
    rw [Bool.and_eq_true] at hpair
    have hh := isHigh_iff.mp hpair.1
    have hl := isLow_iff.mp hpair.2
    have hunits : ∀ c, 0x80 ≤ c → c < 0x10000 → charUnits c = [(c, true)] := by
      intro c hlarge hbmp
      rw [charUnits, if_neg (by omega), if_pos hbmp]
    rw [List.flatMap_cons, List.flatMap_cons, hunits h (by omega) (by omega),
      hunits l (by omega) (by omega)]
    show joinPairs ((h, true) :: (l, true) :: s.flatMap charUnits) = _
    rw [joinPairs_pair hpair.1 hpair.2, ih fun c hc => hs c (by simp [hc]), pairUp_cons,
      hpair.1, hpair.2]
    rfl
  | case2 h l s hpair ih =>
    rw [List.forall_mem_cons] at hs
    rw [List.flatMap_cons, joinPairs_charUnits hs.1, ih hs.2, pairUp_cons, if_neg hpair]
    intro hh l' rest hunits
    obtain ⟨u, b, units, hl, hlow⟩ := charUnits_head (hs.2 l List.mem_cons_self)
    rw [List.flatMap_cons, hl] at hunits
    obtain rfl : u = l' := by
      have := (List.cons.inj hunits).1
      exact (Prod.mk.inj this).1
    by_contra hne
    rw [Bool.not_eq_false] at hne
    rw [← hlow hne, hh, hne] at hpair
    exact hpair rfl
  | case3 s hs' =>
    match s, hs' with
    | [], _ => rfl
    | [c], _ =>
      have hjoin := @joinPairs_charUnits c [] (hs c (by simp)) nofun
      rw [List.append_nil] at hjoin
      rw [List.flatMap_singleton, hjoin]
      rfl
    | h :: l :: s, hs' => exact absurd rfl (hs' h l s)

/-- A text is read back as it was exactly when no high surrogate stands before a low one. -/
theorem pairUp_eq_self_iff :
    pairUp s = s ↔ ¬ ∃ a h l b, s = a ++ h :: l :: b ∧ isHigh h = true ∧ isLow l = true := by
  induction s using pairUp.induct with
  | case1 h l s hpair ih =>
    rw [Bool.and_eq_true] at hpair
    refine iff_of_false ?_ ?_
    · intro heq
      -- one code point is less than two
      have hshort : ∀ t, (pairUp t).length ≤ t.length := by
        intro t
        induction t using pairUp.induct with
        | case1 h l t hpair ih =>
          rw [pairUp_cons, if_pos hpair, List.length_cons, List.length_cons, List.length_cons]
          omega
        | case2 h l t hpair ih =>
          rw [pairUp_cons, if_neg hpair, List.length_cons, List.length_cons]
          omega
        | case3 t ht =>
          rw [pairUp_short fun h l s heq => ht h l s heq]
      have hlen := congrArg List.length heq
      rw [pairUp_cons, if_pos (by rw [hpair.1, hpair.2]; rfl), List.length_cons,
        List.length_cons, List.length_cons] at hlen
      have := hshort s
      omega
    · exact fun hnone => hnone ⟨[], h, l, s, rfl, hpair⟩
  | case2 h l s hpair ih =>
    rw [pairUp_cons, if_neg hpair, List.cons.injEq, ih]
    simp only [true_and]
    refine not_congr ⟨?_, ?_⟩
    · rintro ⟨a, h', l', b, heq, hh⟩
      exact ⟨h :: a, h', l', b, by rw [heq]; rfl, hh⟩
    · rintro ⟨a, h', l', b, heq, hh, hl⟩
      cases a with
      | nil =>
        obtain ⟨hh', heq⟩ := List.cons.inj heq
        obtain ⟨hl', -⟩ := List.cons.inj heq
        rw [← hh'] at hh
        rw [← hl'] at hl
        exact absurd (by rw [hh, hl]; rfl) hpair
      | cons c a => exact ⟨a, h', l', b, (List.cons.inj heq).2, hh, hl⟩
  | case3 s hs =>
    refine iff_of_true (pairUp_short fun h l s heq => hs h l s heq) ?_
    rintro ⟨a, h, l, b, rfl, -⟩
    cases a with
    | nil => exact hs h l b rfl
    | cons c a =>
      cases a with
      | nil => exact hs c h (l :: b) rfl
      | cons c' a => exact hs c c' (a ++ h :: l :: b) rfl

theorem pairUp_of_not_high (h : ∀ c ∈ s, isHigh c = false) : pairUp s = s := by
  rw [pairUp_eq_self_iff]
  rintro ⟨a, high, low, b, rfl, hhigh, -⟩
  rw [h high (by simp)] at hhigh
  cases hhigh

/-- A string that is written is read back, with surrogates joined. -/
theorem scanString_escaped (hs : ∀ c ∈ s, c < 0x110000) :
    scanString start (s.flatMap escapeChar ++ 34 :: rest) = .ok (pairUp s, rest) := by
  unfold scanString
  rw [scanUnits_escaped hs]
  show Except.ok (joinPairs (s.flatMap charUnits), rest) = _
  rw [joinPairs_escaped hs]

end Strings

/-! ## The fuel is enough -/

/-- What is left is less than what was there. -/
def Shrinks {α : Type} (scan : Str → Scan α) : Prop :=
  ∀ s x r, scan s = .ok (x, r) → r.length < s.length

section Fuel

theorem map_eq_ok {α β : Type} {e : Scan α} {f : α → β} {b : β} {r : Str}
    (h : e.map (fun x => (f x.1, x.2)) = .ok (b, r)) : ∃ a, e = .ok (a, r) := by
  cases e with
  | error _ => cases h
  | ok x =>
    obtain ⟨a, r'⟩ := x
    obtain ⟨-, rfl⟩ := Prod.mk.inj (Except.ok.inj h)
    exact ⟨a, rfl⟩

theorem scanUnits_shrinks (start : Str) : Shrinks (scanUnits start) := by
  intro s
  fun_induction scanUnits start s with
  | case2 =>
    rintro x r ⟨⟩
    exact Nat.lt_succ_self _
  | case4 _ _ _ _ _ ih =>
    intro x r h
    obtain ⟨a, ha⟩ := map_eq_ok h
    exact Nat.lt_succ_of_lt (ih a r ha)
  | case6 _ _ _ _ _ _ _ _ _ _ _ _ ih =>
    intro x r h
    obtain ⟨a, ha⟩ := map_eq_ok h
    have := ih a r ha
    simp only [List.length_cons] at this ⊢
    omega
  | case9 _ _ _ _ _ _ _ _ _ _ ih =>
    intro x r h
    obtain ⟨a, ha⟩ := map_eq_ok h
    have := ih a r ha
    simp only [List.length_cons]
    omega
  | _ =>
    intro x r h
    cases h

theorem scanString_shrinks (start : Str) : Shrinks (scanString start) := by
  intro s x r h
  obtain ⟨a, ha⟩ := map_eq_ok h
  exact scanUnits_shrinks start s a r ha

theorem length_skipBlanks (s : Str) : (skipBlanks s).length ≤ s.length :=
  (List.dropWhile_sublist _).length_le

theorem length_after {s r : Str} {c : Nat} (h : skipBlanks s = c :: r) : r.length < s.length := by
  have := length_skipBlanks s
  rw [h, List.length_cons] at this
  omega

variable {value : Str → Scan Value}

theorem scanItems_shrinks (hv : Shrinks value) (fuel : Nat) : Shrinks (scanItems value fuel) := by
  induction fuel with
  | zero =>
    intro s x r h
    cases h
  | succ fuel ih =>
    intro s x r h
    unfold scanItems at h
    split at h
    · cases h
    · next v r' hvalue =>
      have hfirst := hv s v r' hvalue
      split at h
      · next r'' hr =>
        obtain ⟨rfl, rfl⟩ := Prod.mk.inj (Except.ok.inj h)
        have := length_after hr
        omega
      · next r'' hr =>
        obtain ⟨items, hitems⟩ := map_eq_ok h
        have := ih _ items r hitems
        have := length_skipBlanks r''
        have := length_after hr
        omega
      · cases h

theorem scanMember_shrinks (hv : Shrinks value) : Shrinks (scanMember value) := by
  intro s x r h
  unfold scanMember at h
  split at h
  · next s' =>
    split at h
    · cases h
    · next k r' hstring =>
      have hname := scanString_shrinks _ s' k r' hstring
      split at h
      · next r'' hr =>
        obtain ⟨v, hvalue⟩ := map_eq_ok h
        have := hv _ v r hvalue
        have := length_skipBlanks r''
        have := length_after hr
        rw [List.length_cons]
        omega
      · cases h
  · cases h

theorem scanMembers_shrinks (hv : Shrinks value) (fuel : Nat) :
    Shrinks (scanMembers value fuel) := by
  induction fuel with
  | zero =>
    intro s x r h
    cases h
  | succ fuel ih =>
    intro s x r h
    unfold scanMembers at h
    split at h
    · cases h
    · next m r' hmember =>
      have hfirst := scanMember_shrinks hv s m r' hmember
      split at h
      · next r'' hr =>
        obtain ⟨rfl, rfl⟩ := Prod.mk.inj (Except.ok.inj h)
        have := length_after hr
        omega
      · next r'' hr =>
        obtain ⟨members, hmembers⟩ := map_eq_ok h
        have := ih _ members r hmembers
        have := length_skipBlanks r''
        have := length_after hr
        omega
      · cases h

theorem length_scanDigits {s ds r : Str} (h : scanDigits s = some (ds, r)) :
    r.length < s.length := by
  unfold scanDigits at h
  split at h
  · cases h
  · next c s =>
    split at h
    · obtain ⟨-, rfl⟩ := Prod.mk.inj (Option.some.inj h)
      exact Nat.lt_succ_self _
    · split at h
      · obtain ⟨-, rfl⟩ := Prod.mk.inj (Option.some.inj h)
        exact Nat.lt_succ_of_le (List.dropWhile_sublist _).length_le
      · cases h

theorem length_scanFraction (s : Str) : (scanFraction s).2.length ≤ s.length := by
  unfold scanFraction
  split
  · next d s =>
    split
    · have := (List.dropWhile_sublist (l := s) isAsciiDigit).length_le
      simp only [List.length_cons]
      omega
    · exact Nat.le_refl _
  · exact Nat.le_refl _

theorem length_scanExponent (s : Str) : (scanExponent s).2.length ≤ s.length := by
  cases s with
  | nil => exact Nat.le_refl _
  | cons e s =>
    have hdigits : ∀ n, ((s.drop n).dropWhile isAsciiDigit).length ≤ (e :: s).length := by
      intro n
      have := (List.dropWhile_sublist (l := s.drop n) isAsciiDigit).length_le
      simp only [List.length_drop, List.length_cons] at this ⊢
      omega
    unfold scanExponent
    by_cases he : e = 101 ∨ e = 69
    · simp only [he, if_true]
      generalize (if s.head? = some 43 ∨ s.head? = some 45 then 1 else 0) = sign
      split
      · exact Nat.le_refl _
      · exact hdigits _
    · simp only [he, if_false]
      exact Nat.le_refl _

theorem scanNumber_shrinks (fl : Floats) : Shrinks (scanNumber fl) := by
  intro s x r h
  have hsign : (scanSign s).2.length ≤ s.length := by
    unfold scanSign
    split
    · exact Nat.le_succ _
    · exact Nat.le_refl _
  unfold scanNumber at h
  simp only at h
  split at h
  · cases h
  · next digits r' hdigits =>
    have hleft := length_scanDigits hdigits
    have hfraction := length_scanFraction r'
    have hexponent := length_scanExponent (scanFraction r').2
    have hr : r = (scanExponent (scanFraction r').2).2 := by
      split at h
      · split at h
        · exact (Prod.mk.inj (Except.ok.inj h)).2.symm
        · cases h
      · exact (Prod.mk.inj (Except.ok.inj h)).2.symm
    rw [hr]
    omega

theorem length_scanConstant {s r : Str} {v : Value} (h : scanConstant s = some (v, r)) :
    r.length < s.length := by
  obtain ⟨c, hc, heq⟩ := Option.map_eq_some_iff.mp h
  have hstart : startsWith s c.1 = true :=
    @List.find?_some _ (fun c : Str × Value => startsWith s c.1) c constants hc
  obtain ⟨rest, rfl⟩ := startsWith_iff.mp hstart
  have hlen : ∀ c ∈ constants, 0 < c.1.length := by decide
  have := hlen c (List.mem_of_find?_eq_some hc)
  obtain ⟨-, rfl⟩ := Prod.mk.inj heq
  simp only [List.length_drop, List.length_append]
  omega

theorem scanOther_shrinks {fl : Floats} {d c : Nat} {s r : Str} {x : Value} (hquote : c ≠ 34)
    (hbrace : c ≠ 123) (hbracket : c ≠ 91) (h : scanOnce fl d (c :: s) = .ok (x, r)) :
    r.length < (c :: s).length := by
  unfold scanOnce at h
  simp only [hquote, hbrace, hbracket, if_false] at h
  split at h
  · next hconstant =>
    rw [Except.ok.inj h] at hconstant
    exact length_scanConstant hconstant
  · exact scanNumber_shrinks fl _ x r h

theorem scanOnce_shrinks (fl : Floats) (depth : Nat) : Shrinks (scanOnce fl depth) := by
  have text : ∀ d s x r, scanOnce fl d (34 :: s) = .ok (x, r) → r.length < s.length + 1 := by
    intro d s x r h
    unfold scanOnce at h
    simp only [if_true] at h
    obtain ⟨a, ha⟩ := map_eq_ok h
    exact Nat.lt_succ_of_lt (scanString_shrinks _ s a r ha)
  induction depth with
  | zero =>
    intro s x r h
    cases s with
    | nil => cases h
    | cons c s =>
      by_cases hquote : c = 34
      · subst hquote
        exact text _ s x r h
      · by_cases hbrace : c = 123
        · subst hbrace
          cases h
        · by_cases hbracket : c = 91
          · subst hbracket
            cases h
          · exact scanOther_shrinks hquote hbrace hbracket h
  | succ depth ih =>
    intro s x r h
    cases s with
    | nil => cases h
    | cons c s =>
      have hblank := length_skipBlanks s
      by_cases hquote : c = 34
      · subst hquote
        exact text _ s x r h
      · by_cases hbrace : c = 123
        · unfold scanOnce at h
          simp only [hbrace, show ¬ (123 : Nat) = 34 by decide, if_false, if_true] at h
          split at h
          · next r' hr =>
            obtain ⟨-, rfl⟩ := Prod.mk.inj (Except.ok.inj h)
            exact Nat.lt_succ_of_lt (length_after hr)
          · obtain ⟨members, hmembers⟩ := map_eq_ok h
            have := scanMembers_shrinks ih _ _ members r hmembers
            rw [List.length_cons]
            omega
        · by_cases hbracket : c = 91
          · unfold scanOnce at h
            simp only [hbracket, show ¬ (91 : Nat) = 34 by decide,
              show ¬ (91 : Nat) = 123 by decide, if_false, if_true] at h
            split at h
            · next r' hr =>
              obtain ⟨-, rfl⟩ := Prod.mk.inj (Except.ok.inj h)
              exact Nat.lt_succ_of_lt (length_after hr)
            · obtain ⟨items, hitems⟩ := map_eq_ok h
              have := scanItems_shrinks ih _ _ items r hitems
              rw [List.length_cons]
              omega
          · exact scanOther_shrinks hquote hbrace hbracket h

/-- The items that are read do not depend on the fuel, above the length of the text. -/
theorem scanItems_fuel (hv : Shrinks value) {fuel fuel' : Nat} {s : Str} (h : s.length < fuel)
    (h' : s.length < fuel') : scanItems value fuel s = scanItems value fuel' s := by
  induction fuel generalizing fuel' s with
  | zero => omega
  | succ fuel ih =>
    obtain ⟨fuel', rfl⟩ : ∃ n, fuel' = n + 1 := ⟨fuel' - 1, by omega⟩
    unfold scanItems
    split
    · rfl
    · next v r hvalue =>
      have hfirst := hv s v r hvalue
      split
      · rfl
      · next r' hr =>
        have := length_skipBlanks r'
        have := length_after hr
        have hsame : scanItems value fuel (skipBlanks r') = scanItems value fuel' (skipBlanks r') :=
          ih (by omega) (by omega)
        rw [hsame]
      · rfl

theorem scanMembers_fuel (hv : Shrinks value) {fuel fuel' : Nat} {s : Str} (h : s.length < fuel)
    (h' : s.length < fuel') : scanMembers value fuel s = scanMembers value fuel' s := by
  induction fuel generalizing fuel' s with
  | zero => omega
  | succ fuel ih =>
    obtain ⟨fuel', rfl⟩ : ∃ n, fuel' = n + 1 := ⟨fuel' - 1, by omega⟩
    unfold scanMembers
    split
    · rfl
    · next m r hmember =>
      have hfirst := scanMember_shrinks hv s m r hmember
      split
      · rfl
      · next r' hr =>
        have := length_skipBlanks r'
        have := length_after hr
        have hsame : scanMembers value fuel (skipBlanks r') =
            scanMembers value fuel' (skipBlanks r') := ih (by omega) (by omega)
        rw [hsame]
      · rfl

end Fuel
end Json
