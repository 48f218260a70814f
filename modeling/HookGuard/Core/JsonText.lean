import HookGuard.Core.Exceptions
import HookGuard.Lib.JsonReadBack

/- `json.loads` of a text and of octets, with what it raises. Octets are decoded first, in
   the encoding that `detect_encoding` reads off the first of them; the codecs are the
   interpreter's, as are the texts of floats and the depth that it may recurse to.

   What `json.dumps` writes is ASCII, and so is read as UTF-8, as the text that it is:
   `loads_dumps` and `loadsText_dumps` take a document there and back. -/
namespace HookGuard
open Py Json

namespace json

/-- What `detect_encoding` answers. -/
inductive Encoding where
  | utf8
  | utf8Sig
  | utf16
  | utf16be
  | utf16le
  | utf32
  | utf32be
  | utf32le
  deriving DecidableEq, Repr

/-- What the module leaves to the interpreter. ASCII without a NUL is its own UTF-8. -/
structure Interpreter where
  floats : Floats
  depth : Nat
  decode : Encoding → Bytes → Except Exc Str
  decode_ascii : ∀ s : Str, (∀ c ∈ s, 0 < c ∧ c < 0x80) →
    decode .utf8 (s.map UInt8.ofNat) = .ok s

/-- Octets decoded one by one, and no text for a float. -/
def Interpreter.plain : Interpreter where
  floats := ⟨fun _ => [], fun _ => .nan⟩
  depth := 1000
  decode _ b := .ok (b.map UInt8.toNat)
  decode_ascii s h := by
    rw [List.map_map]
    refine congrArg Except.ok ((List.map_congr_left ?_).trans (List.map_id s))
    intro c hc
    have hascii := (h c hc).2
    exact Nat.mod_eq_of_lt (by omega)

/-- `detect_encoding`: a byte order mark, or where the first octets are zero. -/
def detectEncoding (b : Bytes) : Encoding :=
  if [0x00, 0x00, 0xFE, 0xFF].isPrefixOf b || [0xFF, 0xFE, 0x00, 0x00].isPrefixOf b then .utf32
  else if [0xFE, 0xFF].isPrefixOf b || [0xFF, 0xFE].isPrefixOf b then .utf16
  else if [0xEF, 0xBB, 0xBF].isPrefixOf b then .utf8Sig
  else
    match b with
    | b₀ :: b₁ :: b₂ :: b₃ :: _ =>
      if b₀ = 0 then if b₁ = 0 then .utf32be else .utf16be
      else if b₁ = 0 then if b₂ = 0 ∧ b₃ = 0 then .utf32le else .utf16le
      else .utf8
    | [b₀, b₁] => if b₀ = 0 then .utf16be else if b₁ = 0 then .utf16le else .utf8
    | _ => .utf8

/-- The line, the column and the position in a document of what is left of it. -/
def position (doc left : Str) : Str :=
  let before := doc.take (doc.length - left.length)
  let column := (before.reverse.takeWhile (· ≠ 10)).length + 1
  lit ": line " ++ natStr (before.count 10 + 1) ++ lit " column " ++ natStr column ++
    lit " (char " ++ natStr before.length ++ lit ")"

/-- What is raised of a text that is not read. -/
def raised (doc : Str) : Fail → Exc
  | .decode what left => .jsonDecodeError [.text (lit what ++ position doc left)]
  | .digits count => .valueError [.text (lit "Exceeds the limit (4300 digits) for integer " ++
      lit "string conversion: value has " ++ natStr count ++
      lit " digits; use sys.set_int_max_str_digits() to increase the limit")]
  | .recursion => .recursionError

section Loads
variable (py : Interpreter)

/-- `JSONDecoder.decode`, with what it raises. -/
def decodeText (s : Str) : Except Exc Value := (scan py.floats py.depth s).mapError (raised s)

/-- `json.loads` of a text: a byte order mark is refused. -/
def loadsText (s : Str) : Except Exc Value :=
  match s with
  | 0xFEFF :: _ =>
    .error (raised s (.decode "Unexpected UTF-8 BOM (decode using utf-8-sig)" s))
  | _ => decodeText py s

/-- `json.loads` of octets. -/
def loads (b : Bytes) : Except Exc Value :=
  match py.decode (detectEncoding b) b with
  | .error e => .error e
  | .ok s => decodeText py s

end Loads

section ReadBack
variable {py : Interpreter} {l : Layout} {d : Nat} {v : Value} {tail : Str}

theorem detectEncoding_ascii {s : Str} (h : ∀ c ∈ s, 0 < c ∧ c < 0x80) :
    detectEncoding (s.map UInt8.ofNat) = .utf8 := by
  have octet : ∀ c ∈ s, UInt8.ofNat c ≠ 0 ∧ UInt8.ofNat c ≠ 0xFE ∧ UInt8.ofNat c ≠ 0xFF ∧
      UInt8.ofNat c ≠ 0xEF := by
    intro c hc
    have all : ∀ c < 0x80, 0 < c → UInt8.ofNat c ≠ 0 ∧ UInt8.ofNat c ≠ 0xFE ∧
        UInt8.ofNat c ≠ 0xFF ∧ UInt8.ofNat c ≠ 0xEF := by decide
    exact all c (h c hc).2 (h c hc).1
  have head : ∀ b ∈ [(0x00 : UInt8), 0xFE, 0xFF, 0xEF], ∀ bs : Bytes,
      (b :: bs).isPrefixOf (s.map UInt8.ofNat) = false := by
    intro b hb bs
    cases s with
    | nil => rfl
    | cons c s =>
      obtain ⟨hzero, hfe, hff, hef⟩ := octet c List.mem_cons_self
      have hne : (b == UInt8.ofNat c) = false := by
        rw [beq_eq_false_iff_ne]
        rintro rfl
        simp only [List.mem_cons, List.not_mem_nil, or_false] at hb
        rcases hb with hb | hb | hb | hb
        · exact hzero hb
        · exact hfe hb
        · exact hff hb
        · exact hef hb
      rw [List.map_cons, List.isPrefixOf, hne, Bool.false_and]
  unfold detectEncoding
  simp only [head 0x00 (by decide), head 0xFF (by decide), head 0xFE (by decide),
    head 0xEF (by decide), Bool.or_self, Bool.false_eq_true, if_false]
  match s, octet with
  | [], _ => rfl
  | [_], _ => rfl
  | [a, b], octet =>
    rw [List.forall_mem_cons, List.forall_mem_cons] at octet
    show (if UInt8.ofNat a = 0 then _ else if UInt8.ofNat b = 0 then _ else _) = _
    rw [if_neg octet.1.1, if_neg octet.2.1.1]
  | [_, _, _], _ => rfl
  | a :: b :: _ :: _ :: _, octet =>
    rw [List.forall_mem_cons, List.forall_mem_cons] at octet
    show (if UInt8.ofNat a = 0 then _ else if UInt8.ofNat b = 0 then _ else _) = _
    rw [if_neg octet.1.1, if_neg octet.2.1.1]

theorem scan_written (h : Readable d v) (hd : d ≤ py.depth)
    (htail : ∀ c ∈ tail, isBlank c = true) :
    decodeText py (dumps py.floats l v ++ tail) = .ok (paired v) := by
  rw [decodeText, scan_dumps (h.mono hd) htail]
  rfl

theorem dumps_ascii (h : Readable d v) (hblank : ∀ c ∈ tail, isBlank c = true) :
    ∀ c ∈ dumps py.floats l v ++ tail, 0 < c ∧ c < 0x80 := by
  have blank : ∀ c, isBlank c = true → 0 < c ∧ c < 0x80 := by
    intro c hc
    simp only [isBlank, Bool.or_eq_true, beq_iff_eq] at hc
    omega
  intro c hc
  rcases List.mem_append.mp hc with hc | hc
  · refine encode_all (P := fun c => 0 < c ∧ c < 0x80) h ?_ ?_ ?_ 0 c hc
    · intro c hlow hhigh
      omega
    · intro c hc
      rcases List.mem_append.mp hc with hc | hc
      · exact blank c (l.item_blank c hc)
      · exact blank c (l.key_blank c hc)
    · exact fun level c hc => blank c (l.newline_blank level c hc)
  · exact blank c (hblank c hc)

/-- A document is read back off the text it was written as, and a line break after it. -/
theorem loadsText_dumps (h : Readable d v) (hd : d ≤ py.depth)
    (htail : ∀ c ∈ tail, isBlank c = true) :
    loadsText py (dumps py.floats l v ++ tail) = .ok (paired v) := by
  unfold loadsText
  split
  · next r heq =>
    have hascii := @dumps_ascii py l d v tail h htail
    rw [heq] at hascii
    exact absurd (hascii 0xFEFF List.mem_cons_self).2 (by decide)
  · exact scan_written h hd htail

theorem loads_dumps (h : Readable d v) (hd : d ≤ py.depth) :
    loads py ((dumps py.floats l v).map UInt8.ofNat) = .ok (paired v) := by
  have hascii := @dumps_ascii py l d v [] h nofun
  have hread := @scan_written py l d v [] h hd nofun
  rw [List.append_nil] at hascii hread
  unfold loads
  rw [detectEncoding_ascii hascii, py.decode_ascii _ hascii]
  exact hread

end ReadBack

end json
end HookGuard
