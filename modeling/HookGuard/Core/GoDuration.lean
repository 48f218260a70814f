import HookGuard.Core.Exceptions
import Mathlib.Algebra.Order.Ring.Int
import Mathlib.Data.List.Sort

/- Go duration strings (`hookguard_core/goduration.py`). `parseGoDurationNs` is the
   scanner as the code has it: `scan` is the `while` loop, one turn of which reads
   a number (`number`, the match of `_NUMBER`), finds the longest unit the rest
   starts with, and adds the component to the running total (`charge`). `int` on
   a digit run longer than the interpreter's limit raises a plain `ValueError`,
   which nothing here catches.

   The lemmas at the end are what a reader of the scanner needs: on a run of
   digits `charge` is arithmetic (`charge_eq`). -/
namespace HookGuard
open Py

namespace goduration

/-- `_UNITS`: nanoseconds per unit. U+00B5 and U+03BC are the two micro signs. -/
def UNITS : List (Str × Int) :=
  [(lit "ns", 1), (lit "us", 1000), ([0xB5, 115], 1000), ([0x3BC, 115], 1000),
   (lit "ms", 1000000), (lit "s", 1000000000), (lit "m", 60 * 1000000000),
   (lit "h", 3600 * 1000000000)]

/-- `_UNIT_NAMES`: longest first. -/
def UNIT_NAMES : List Str :=
  (UNITS.map Prod.fst).insertionSort (fun a b => b.length ≤ a.length)

def scaleOf (unit : Str) : Int := (UNITS.lookup unit).getD 0

def INT64_MAX : Int := 2 ^ 63 - 1
def INT64_MIN : Int := -2 ^ 63

/-- The two groups of `_NUMBER`: the digits, and those after the dot where there is one. -/
structure Number where
  whole : Str
  frac : Option Str
  deriving DecidableEq

/-- `_NUMBER.match(s)`, always a match, possibly an empty one; and what follows it. -/
def number (s : Str) : Number × Str :=
  match s.dropWhile isDecimal with
  | 46 :: r => (⟨s.takeWhile isDecimal, some (r.takeWhile isDecimal)⟩, r.dropWhile isDecimal)
  | r => (⟨s.takeWhile isDecimal, none⟩, r)

def Number.isEmpty (m : Number) : Bool := m.whole == [] && (m.frac.getD []) == []

def invalidDuration (orig : Str) : Exc :=
  .goDurationError [.text (lit "invalid duration "), .repr orig]

def badUnit (orig rest : Str) : Exc :=
  if rest ≠ [] then
    .goDurationError [.text (lit "missing or unknown unit in duration "), .repr orig]
  else .goDurationError [.text (lit "missing unit in duration "), .repr orig]

def overflows (orig : Str) : Exc :=
  .goDurationError [.text (lit "duration "), .repr orig, .text (lit " overflows int64 nanoseconds")]

/-- `int` refusing a run of more than `intMaxStrDigits` digits. -/
def tooManyDigits : Exc := .valueError (msg "Exceeds the limit for integer string conversion")

theorem tooManyDigits_ne (m : Msg) : tooManyDigits ≠ .goDurationError m := by
  intro h
  cases h

/-- The component's whole and fractional nanoseconds added to the total, and the
    overflow check. -/
def charge (orig : Str) (total : Int) (m : Number) (scale : Int) : Except Exc Int :=
  match pyInt (if m.whole = [] then lit "0" else m.whole) with
  | none => .error tooManyDigits
  | some w =>
    match m.frac with
    | none | some [] =>
      if total + w * scale > INT64_MAX then .error (overflows orig) else .ok (total + w * scale)
    | some f =>
      match pyInt f with
      | none => .error tooManyDigits
      | some n =>
        if total + w * scale + n * scale / 10 ^ f.length > INT64_MAX then .error (overflows orig)
        else .ok (total + w * scale + n * scale / 10 ^ f.length)

theorem number_rest_le (s : Str) : (number s).2.length ≤ s.length := by
  have hd := (List.dropWhile_suffix isDecimal (l := s)).length_le
  unfold number
  split
  · next r hr =>
    have := (List.dropWhile_suffix isDecimal (l := r)).length_le
    rw [hr] at hd
    simp only [List.length_cons] at hd
    simp only; omega
  · exact hd

theorem UNIT_NAMES_eq : UNIT_NAMES =
    [lit "ns", lit "us", [0xB5, 115], [0x3BC, 115], lit "ms", lit "s", lit "m", lit "h"] := by
  decide

theorem unit_ne_nil {u : Str} (h : u ∈ UNIT_NAMES) : u ≠ [] := by
  intro hnil
  rw [hnil] at h
  exact absurd h (by decide)

/-- Each turn of the loop reads at least the unit. -/
theorem drop_unit_lt {s unit : Str}
    (h : UNIT_NAMES.find? (startsWith (number s).2) = some unit) :
    ((number s).2.drop unit.length).length < s.length := by
  have hu : 0 < unit.length := List.length_pos_iff.mpr (unit_ne_nil (List.mem_of_find?_eq_some h))
  obtain ⟨r, hr⟩ := startsWith_iff.mp (List.find?_some h)
  have hle := number_rest_le s
  rw [hr, List.length_append] at hle
  rw [hr, List.drop_left]
  omega

/-- The `while` loop, from the unread text and the running total. -/
def scan (orig s : Str) (total : Int) : Except Exc Int :=
  if s = [] then .ok total
  else if (number s).1.isEmpty then .error (invalidDuration orig)
  else match _found : UNIT_NAMES.find? (startsWith (number s).2) with
    | none => .error (badUnit orig (number s).2)
    | some unit =>
      match charge orig total (number s).1 (scaleOf unit) with
      | .error e => .error e
      | .ok total => scan orig ((number s).2.drop unit.length) total
termination_by s.length
decreasing_by
  exact drop_unit_lt _found

/-- The sign a string starts with, and the rest. -/
def splitSign : Str → Bool × Str
  | 45 :: r => (true, r)
  | 43 :: r => (false, r)
  | r => (false, r)

/-- `parse_go_duration_ns`. -/
def parseGoDurationNs (s : Str) : Except Exc Int :=
  let (neg, body) := splitSign s
  if body = lit "0" then .ok 0
  else if body = [] then .error (invalidDuration s)
  else match scan s body 0 with
    | .error e => .error e
    | .ok total =>
      let result := if neg then -total else total
      if INT64_MIN ≤ result ∧ result ≤ INT64_MAX then .ok result else .error (overflows s)

/-- A `timedelta`, in microseconds: less than 10^9 days either way. -/
structure Timedelta where
  us : Int
  lower : -86399999913600000000000 ≤ us
  upper : us < 86400000000000000000000

def Timedelta.zero : Timedelta := ⟨0, by decide, by decide⟩

/-- `timedelta(microseconds=us)`. -/
def Timedelta.ofMicroseconds (us : Int) : Except Exc Timedelta :=
  if h : -86399999913600000000000 ≤ us ∧ us < 86400000000000000000000 then .ok ⟨us, h.1, h.2⟩
  else .error .overflowError

/-- `parse_go_duration`: the nanoseconds, truncated toward zero to microseconds. -/
def parseGoDuration (s : Str) : Except Exc Timedelta :=
  match parseGoDurationNs s with
  | .error e => .error e
  | .ok ns =>
    let us : Int := (ns.natAbs : Int) / 1000
    Timedelta.ofMicroseconds (if ns < 0 then -us else us)

/-! ## Lemmas -/

/-- A number's runs, read as their values: what `charge` adds to the total. -/
def Number.nanos (m : Number) (scale : Int) : Int :=
  digitsValue m.whole * scale + digitsValue (m.frac.getD []) * scale / 10 ^ (m.frac.getD []).length

/-- Both digit runs are within `int`'s limit. -/
def Number.Short (m : Number) : Prop :=
  m.whole.length ≤ intMaxStrDigits ∧ (m.frac.getD []).length ≤ intMaxStrDigits

instance (m : Number) : Decidable m.Short := inferInstanceAs (Decidable (_ ∧ _))

/-- Both runs of a number are decimal digits. -/
def Number.Decimal (m : Number) : Prop :=
  (∀ c ∈ m.whole, isDecimal c = true) ∧ ∀ c ∈ m.frac.getD [], isDecimal c = true

theorem number_decimal (s : Str) : (number s).1.Decimal := by
  have all : ∀ l : Str, ∀ c ∈ l.takeWhile isDecimal, isDecimal c = true :=
    fun l c hc => List.mem_takeWhile_imp hc
  unfold number
  split
  · exact ⟨all s, all _⟩
  · exact ⟨all s, by simp⟩

theorem pyInt_whole {w : Str} (h : ∀ c ∈ w, isDecimal c = true) :
    pyInt (if w = [] then lit "0" else w) =
      if w.length ≤ intMaxStrDigits then some (digitsValue w : Int) else none := by
  by_cases hw : w = []
  · subst hw
    simp only [if_true, List.length_nil, Nat.zero_le]
    decide
  · rw [if_neg hw, pyInt_decimals hw h]

/-- One component, by arithmetic: a run that is too long is the `ValueError`, a
    total out of range the `GoDurationError`. -/
theorem charge_eq {orig : Str} {total scale : Int} {m : Number} (h : m.Decimal) :
    charge orig total m scale =
      if m.Short then
        if total + m.nanos scale > INT64_MAX then .error (overflows orig)
        else .ok (total + m.nanos scale)
      else .error tooManyDigits := by
  obtain ⟨whole, frac⟩ := m
  obtain ⟨hw, hf⟩ := h
  simp only [charge, pyInt_whole hw, Number.Short, Number.nanos]
  by_cases hwl : whole.length ≤ intMaxStrDigits
  · simp only [hwl, if_true, true_and]
    match frac, hf with
    | none, _ => simp [digitsValue]
    | some [], _ => simp [digitsValue]
    | some (c :: f), hf =>
      simp only [Option.getD_some] at hf ⊢
      rw [pyInt_decimals (by simp) hf]
      by_cases hfl : (c :: f).length ≤ intMaxStrDigits
      · simp only [hfl, if_true, Int.add_assoc]
        rfl
      · simp only [hfl, if_false]
  · simp only [hwl, if_false, false_and]

end goduration
end HookGuard
