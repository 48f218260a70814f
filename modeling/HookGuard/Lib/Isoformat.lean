import HookGuard.Lib.Calendar
import HookGuard.Lib.Text

/- Times as text: what `datetime.isoformat` writes, and the texts of RFC 3339, which
   `datetime.fromisoformat` reads since Python 3.11 along with others. A fraction of a second
   may have any number of digits, and what is beyond the microsecond is cut off.

   A time in UTC that is written by its fields, with a fraction of its microseconds that has
   all six digits or has lost zeros at its end, is read back as it was
   (`readRfc3339_fields`). -/
namespace Py

/-! ## Digits -/

/-- `"%0{width}d" % n`, of a number that has no more digits. -/
def padded : Nat → Nat → Str
  | 0, _ => []
  | width + 1, n => padded width (n / 10) ++ [48 + n % 10]

theorem length_padded (width n : Nat) : (padded width n).length = width := by
  induction width generalizing n with
  | zero => rfl
  | succ width ih => rw [padded, List.length_append, ih, List.length_singleton]

theorem padded_digits (width n : Nat) : ∀ c ∈ padded width n, isAsciiDigit c = true := by
  induction width generalizing n with
  | zero => simp [padded]
  | succ width ih =>
    intro c hc
    rw [padded, List.mem_append, List.mem_singleton] at hc
    obtain hc | rfl := hc
    · exact ih _ c hc
    · simp only [isAsciiDigit, Bool.and_eq_true, decide_eq_true_eq]
      omega

theorem padded_mul_ten (width n : Nat) : padded (width + 1) (n * 10) = padded width n ++ [48] := by
  rw [padded, Nat.mul_div_cancel n (by decide), Nat.mul_mod_left]

theorem padded_zero (width : Nat) : padded width 0 = List.replicate width 48 := by
  induction width with
  | zero => rfl
  | succ width ih => rw [padded, ih, List.replicate_succ']

/-- As many digits as are asked for, read onto the number before them. -/
def readDigits : Nat → Nat → Str → Option (Nat × Str)
  | 0, n, s => some (n, s)
  | _ + 1, _, [] => none
  | width + 1, n, c :: s =>
    if isAsciiDigit c then readDigits width (n * 10 + (c - 48)) s else none

theorem readDigits_succ (width n : Nat) (s : Str) : readDigits (width + 1) n s =
    (readDigits width n s).bind fun r => readDigits 1 r.1 r.2 := by
  induction width generalizing n s with
  | zero => rfl
  | succ width ih =>
    cases s with
    | nil => rfl
    | cons c s =>
      rw [readDigits, readDigits]
      split
      · exact ih _ s
      · rfl

theorem readDigits_padded {width m : Nat} (hm : m < 10 ^ width) (n : Nat) (s : Str) :
    readDigits width n (padded width m ++ s) = some (n * 10 ^ width + m, s) := by
  induction width generalizing m s with
  | zero =>
    have hzero : m = 0 := by simpa using hm
    simp [readDigits, padded, hzero]
  | succ width ih =>
    rw [Nat.pow_succ] at hm
    have hdigit : isAsciiDigit (48 + m % 10) = true := by
      simp only [isAsciiDigit, Bool.and_eq_true, decide_eq_true_eq]
      omega
    rw [readDigits_succ, padded, List.append_assoc, ih (by omega), Option.bind_some]
    simp only [List.singleton_append, readDigits, hdigit, if_true, Nat.add_sub_cancel_left,
      Option.some.injEq, Prod.mk.injEq, and_true]
    calc (n * 10 ^ width + m / 10) * 10 + m % 10
        = n * 10 ^ width * 10 + m := by omega
      _ = n * 10 ^ (width + 1) + m := by rw [Nat.pow_succ, Nat.mul_assoc]

theorem padded_injective {width m n : Nat} (hm : m < 10 ^ width) (hn : n < 10 ^ width)
    (h : padded width m = padded width n) : m = n := by
  have hread := readDigits_padded hm 0 []
  rw [h, readDigits_padded hn] at hread
  simpa using hread.symm

/-! ## Digits without the zeros at their end -/

/-- `s.rstrip("0")`. -/
def trimmed (s : Str) : Str := s.rdropWhile (· == 48)

theorem trimmed_concat_zero (s : Str) : trimmed (s ++ [48]) = trimmed s :=
  List.rdropWhile_concat_pos _ _ _ rfl

theorem trimmed_append (s : Str) : ∃ zeros, trimmed s ++ List.replicate zeros 48 = s := by
  have hzeros : s.rtakeWhile (· == 48) =
      List.replicate (s.rtakeWhile (· == 48)).length 48 := by
    rw [List.eq_replicate_iff]
    exact ⟨rfl, fun c hc => beq_iff_eq.mp (List.mem_rtakeWhile_imp (p := (· == 48)) hc)⟩
  exact ⟨_, hzeros ▸ List.rdropWhile_append_rtakeWhile⟩

theorem trimmed_padded_eq_nil_iff {width n : Nat} (h : n < 10 ^ width) :
    trimmed (padded width n) = [] ↔ n = 0 := by
  constructor
  · intro hnil
    have hall := List.rdropWhile_eq_nil_iff.mp hnil
    have hzeros : padded width n = padded width 0 := by
      rw [padded_zero, List.eq_replicate_iff]
      exact ⟨length_padded width n, fun c hc => beq_iff_eq.mp (hall c hc)⟩
    exact padded_injective h (Nat.pow_pos (by decide)) hzeros
  · rintro rfl
    rw [padded_zero, trimmed, List.rdropWhile_eq_nil_iff]
    intro c hc
    rw [List.eq_of_mem_replicate hc]
    rfl

theorem trimmed_padded_eq_self_iff (width n : Nat) :
    trimmed (padded (width + 1) n) = padded (width + 1) n ↔ n % 10 ≠ 0 := by
  have hne : padded width (n / 10) ++ [48 + n % 10] ≠ [] := by simp
  have hlast : (padded width (n / 10) ++ [48 + n % 10]).getLast hne = 48 + n % 10 :=
    List.getLast_append_singleton _
  rw [trimmed, List.rdropWhile_eq_self_iff, padded, forall_prop_of_true hne, hlast, beq_iff_eq]
  omega

/-! ## The fields of a time -/

/-- `"%04d-%02d-%02d"` of a date. -/
def Date.isoformat (d : Date) : Str :=
  padded 4 d.year ++ 45 :: (padded 2 d.month ++ 45 :: padded 2 d.day)

/-- The date, and `"%02d:%02d:%02d"` of the time of the day. -/
def Fields.clock (f : Fields) : Str :=
  f.date.isoformat ++ 84 :: (padded 2 f.hour ++ 58 :: (padded 2 f.minute ++
    58 :: padded 2 f.second))

/-- `".%06d"` of the microseconds, unless they are zero. -/
def isoFraction (microsecond : Nat) : Str :=
  if microsecond = 0 then [] else 46 :: padded 6 microsecond

/-- `isoformat()` of a time in UTC. -/
def Datetime.isoformat (d : Datetime) : Str :=
  (Fields.ofDatetime d).clock ++ isoFraction (Fields.ofDatetime d).microsecond ++ lit "+00:00"

/-! ## Reading -/

def expect (c : Nat) : Str → Option Str
  | [] => none
  | d :: s => if d = c then some s else none

/-- The microseconds of the fraction in front, if there is one. -/
def readFraction : Str → Option (Nat × Str)
  | 46 :: s =>
    if s.takeWhile isAsciiDigit = [] then none
    else
      (readDigits 6 0 (s.takeWhile isAsciiDigit ++ List.replicate 6 48)).map fun r =>
        (r.1, s.dropWhile isAsciiDigit)
  | s => some (0, s)

def readDate (s : Str) : Option (Date × Str) := do
  let (year, s) ← readDigits 4 0 s
  let s ← expect 45 s
  let (month, s) ← readDigits 2 0 s
  let s ← expect 45 s
  let (day, s) ← readDigits 2 0 s
  pure (⟨year, month, day⟩, s)

/-- The fields in front, behind their date. -/
def readTime (date : Date) (s : Str) : Option (Fields × Str) := do
  let (hour, s) ← readDigits 2 0 s
  let s ← expect 58 s
  let (minute, s) ← readDigits 2 0 s
  let s ← expect 58 s
  let (second, s) ← readDigits 2 0 s
  let (microsecond, s) ← readFraction s
  pure (⟨date, hour, minute, second, microsecond⟩, s)

def readFields (s : Str) : Option (Fields × Str) := do
  let (date, s) ← readDate s
  let s ← expect 84 s
  readTime date s

/-- How far ahead of UTC the end of a text says it is, in microseconds. -/
def readOffset : Str → Option Int
  | [90] => some 0
  | sign :: s => do
    let (hour, s) ← readDigits 2 0 s
    let s ← expect 58 s
    let (minute, s) ← readDigits 2 0 s
    let offset : Int := (hour * 60 + minute : Nat) * 60 * 10 ^ 6
    if s ≠ [] ∨ 60 ≤ minute then none
    else if sign = 43 then some offset
    else if sign = 45 then some (-offset)
    else none
  | [] => none

theorem aware_within {offset : Int} (h : |offset| < 86400000000) :
    ∀ o ∈ some offset, |o| < 86400000000 := by
  intro o ho
  rwa [← Option.some.inj ho]

/-- The time of a text of RFC 3339. -/
def readRfc3339 (s : Str) : Option ReadDatetime := do
  let (f, zone) ← readFields s
  let reading ← f.datetime
  let offset ← readOffset zone
  if h : |offset| < 86400000000 then some ⟨reading, some offset, aware_within h⟩ else none

/-! ## Reading what was written -/

theorem expect_cons (c : Nat) (s : Str) : expect c (c :: s) = some s := if_pos rfl

/-- The zeros a fraction has lost at its end are read. -/
theorem readFraction_prefix {microsecond : Nat} (hlt : microsecond < 10 ^ 6) {digits : Str}
    (hne : digits ≠ []) {zeros : Nat}
    (h : digits ++ List.replicate zeros 48 = padded 6 microsecond) :
    readFraction (46 :: (digits ++ lit "Z")) = some (microsecond, lit "Z") := by
  have hdigits : ∀ c ∈ digits, isAsciiDigit c = true := by
    intro c hc
    exact padded_digits 6 microsecond c (h ▸ List.mem_append_left _ hc)
  have hzeros : zeros ≤ 6 := by
    have hlength := congrArg List.length h
    rw [List.length_append, List.length_replicate, length_padded] at hlength
    omega
  have htake : (digits ++ lit "Z").takeWhile isAsciiDigit = digits := by
    rw [List.takeWhile_append_of_pos hdigits]
    exact List.append_nil digits
  have hdrop : (digits ++ lit "Z").dropWhile isAsciiDigit = lit "Z" := by
    rw [List.dropWhile_append_of_pos hdigits]
    rfl
  -- more zeros may stand behind the digits than were lost
  have hsix : digits ++ List.replicate 6 48 =
      padded 6 microsecond ++ List.replicate (6 - zeros) 48 := by
    rw [← h, List.append_assoc, List.replicate_append_replicate, Nat.add_sub_cancel' hzeros]
  rw [readFraction, htake, if_neg hne, hdrop, hsix, readDigits_padded hlt]
  simp

theorem readFraction_iso {microsecond : Nat} (h : microsecond < 10 ^ 6) :
    readFraction (isoFraction microsecond ++ lit "Z") = some (microsecond, lit "Z") := by
  unfold isoFraction
  split
  · next hzero =>
    rw [hzero]
    rfl
  · have hne : padded 6 microsecond ≠ [] := by
      intro hnil
      have hlength := length_padded 6 microsecond
      rw [hnil] at hlength
      cases hlength
    have hall : padded 6 microsecond ++ List.replicate 0 48 = padded 6 microsecond :=
      List.append_nil _
    exact readFraction_prefix h hne hall

theorem readDate_isoformat {d : Date} (h : d.valid = true) (s : Str) :
    readDate (d.isoformat ++ s) = some (d, s) := by
  obtain ⟨hyear, hmonth, hday⟩ := Date.widths_of_valid h
  have hsplit : d.isoformat ++ s =
      padded 4 d.year ++ 45 :: (padded 2 d.month ++ 45 :: (padded 2 d.day ++ s)) := by
    simp only [Date.isoformat, List.append_assoc, List.cons_append]
  rw [hsplit, readDate]
  simp only [readDigits_padded hyear, readDigits_padded hmonth, readDigits_padded hday,
    expect_cons, Nat.zero_mul, Nat.zero_add, Option.bind_eq_bind, Option.bind_some,
    Option.pure_def]

theorem readTime_fields {f : Fields} (hrange : f.InRange) {s zone : Str}
    (h : readFraction s = some (f.microsecond, zone)) :
    readTime f.date (padded 2 f.hour ++ 58 :: (padded 2 f.minute ++ 58 ::
      (padded 2 f.second ++ s))) = some (f, zone) := by
  have hhour : f.hour < 10 ^ 2 := hrange.hour.trans (by decide)
  have hminute : f.minute < 10 ^ 2 := hrange.minute.trans (by decide)
  have hsecond : f.second < 10 ^ 2 := hrange.second.trans (by decide)
  rw [readTime]
  simp only [readDigits_padded hhour, readDigits_padded hminute, readDigits_padded hsecond,
    expect_cons, h, Nat.zero_mul, Nat.zero_add, Option.bind_eq_bind, Option.bind_some,
    Option.pure_def]

/-- A time that is written by its fields and its fraction in UTC is read back. -/
theorem readRfc3339_fields {f : Fields} (hrange : f.InRange) {d : Datetime}
    (hd : f.datetime = some d) {fraction : Str}
    (h : readFraction (fraction ++ lit "Z") = some (f.microsecond, lit "Z")) :
    readRfc3339 (f.clock ++ fraction ++ lit "Z") = some (.ofUtc d) := by
  have hfields : readFields (f.clock ++ fraction ++ lit "Z") = some (f, lit "Z") := by
    rw [Fields.clock, List.append_assoc, List.append_assoc, readFields,
      readDate_isoformat hrange.date]
    simp only [List.append_assoc, List.cons_append, Option.bind_eq_bind, Option.bind_some,
      expect_cons]
    exact readTime_fields hrange h
  have hutc : readOffset (lit "Z") = some 0 := rfl
  rw [readRfc3339, hfields]
  simp only [Option.bind_eq_bind, Option.bind_some, hd, hutc]
  exact dif_pos (utc_within 0 rfl)

end Py
