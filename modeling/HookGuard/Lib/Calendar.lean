import HookGuard.Lib.Timestamp

/- The proleptic Gregorian calendar, as `datetime` counts in it: the date of a day, the day
   of a date, and the fields of a time in UTC. Days are counted from the first of January
   of year 1.

   A year is found by whole cycles of 400, 100 and 4 years, the last of which may be one
   day longer than the others (`Cycles`), and a month by the lengths of the months before
   it. The fields of a time denote that time and no other (`Fields.ofDatetime_datetime`). -/
namespace Py

/-! ## Years -/

def isLeap (year : Nat) : Bool := year % 4 == 0 && (year % 100 != 0 || year % 400 == 0)

/-- `_days_before_year`. -/
def daysBeforeYear (year : Nat) : Nat :=
  (year - 1) * 365 + (year - 1) / 4 - (year - 1) / 100 + (year - 1) / 400

/-- The year of a day, and the day of that year. -/
def yearOf (n : Nat) : Nat × Nat :=
  let centuries := min 3 (n % 146097 / 36524)
  let inCentury := n % 146097 - centuries * 36524
  let years := min 3 (inCentury % 1461 / 365)
  (n / 146097 * 400 + centuries * 100 + inCentury / 1461 * 4 + years + 1,
    inCentury % 1461 - years * 365)

/-- A day as whole cycles of years and a day of a year; the last day of a leap year is in
    the last year of a cycle. -/
structure Cycles (n quads centuries fours years day : Nat) : Prop where
  day_eq : n = quads * 146097 + centuries * 36524 + fours * 1461 + years * 365 + day
  centuries_le : centuries ≤ 3
  fours_le : fours ≤ 24
  years_le : years ≤ 3
  day_le : day ≤ 365
  leap : day = 365 → years = 3 ∧ (fours = 24 → centuries = 3)

theorem Cycles.of_division {n quads rest centuries inCentury fours inFour years : Nat}
    (hn : n = quads * 146097 + rest) (hrest : rest < 146097)
    (hcenturies : centuries = min 3 (rest / 36524))
    (hinCentury : inCentury = rest - centuries * 36524) (hfours : fours = inCentury / 1461)
    (hinFour : inFour = inCentury % 1461) (hyears : years = min 3 (inFour / 365)) :
    Cycles n quads centuries fours years (inFour - years * 365) := by
  -- only the last century of a cycle has the day 36524, and only the last year of four 365
  have hle : inCentury ≤ 36524 := by omega
  have hlong : inCentury = 36524 → centuries = 3 := by omega
  have hday : inFour - years * 365 = 365 → years = 3 ∧ inFour = 1460 := by omega
  have hrest' : rest = centuries * 36524 + inCentury := by omega
  have hinCentury' : inCentury = fours * 1461 + inFour := by omega
  have hinFour' : inFour = years * 365 + (inFour - years * 365) := by omega
  have hday_eq : n = quads * 146097 + centuries * 36524 + fours * 1461 + years * 365 +
      (inFour - years * 365) := by
    calc n = quads * 146097 + rest := hn
      _ = quads * 146097 + (centuries * 36524 + (fours * 1461 +
          (years * 365 + (inFour - years * 365)))) := by
        rw [← hinFour', ← hinCentury', ← hrest']
      _ = _ := by simp only [Nat.add_assoc]
  refine ⟨hday_eq, by omega, by omega, by omega, by omega, ?_⟩
  intro hlast
  obtain ⟨hthree, hinFour'⟩ := hday hlast
  exact ⟨hthree, fun hlastFour => hlong (by omega)⟩

theorem yearOf_cycles (n : Nat) : ∃ quads centuries fours years,
    (yearOf n).1 = quads * 400 + centuries * 100 + fours * 4 + years + 1 ∧
      Cycles n quads centuries fours years (yearOf n).2 :=
  ⟨_, _, _, _, rfl, .of_division (Nat.div_add_mod' n 146097).symm (Nat.mod_lt n (by decide))
    rfl rfl rfl rfl rfl⟩

theorem daysBeforeYear_yearOf (n : Nat) :
    daysBeforeYear (yearOf n).1 + (yearOf n).2 = n ∧
      (yearOf n).2 < if isLeap (yearOf n).1 then 366 else 365 := by
  obtain ⟨quads, centuries, fours, years, hyear, hday, hcenturies, hfours, hyears, hle, hleap⟩ :=
    yearOf_cycles n
  generalize (yearOf n).2 = day at *
  have hbefore : daysBeforeYear (yearOf n).1 =
      quads * 146097 + centuries * 36524 + fours * 1461 + years * 365 := by
    rw [hyear, daysBeforeYear]
    omega
  refine ⟨by omega, ?_⟩
  by_cases hlast : day = 365
  · obtain ⟨h3, h24⟩ := hleap hlast
    have : isLeap (yearOf n).1 = true := by
      rw [hyear, isLeap]
      simp only [Bool.and_eq_true, Bool.or_eq_true, beq_iff_eq, bne_iff_ne]
      omega
    rw [this, if_pos rfl]
    omega
  · split <;> omega

/-! ## Months -/

/-- The lengths of the months. -/
def monthLengths (leap : Bool) : List Nat :=
  [31, if leap then 29 else 28, 31, 30, 31, 30, 31, 31, 30, 31, 30, 31]

/-- Which of some periods in a row a number falls in, and where. -/
def locate : List Nat → Nat → Nat × Nat
  | [], n => (0, n)
  | length :: lengths, n =>
    if n < length then (0, n)
    else ((locate lengths (n - length)).1 + 1, (locate lengths (n - length)).2)

theorem locate_sum {lengths : List Nat} {n : Nat} (h : n < lengths.sum) :
    (lengths.take (locate lengths n).1).sum + (locate lengths n).2 = n ∧
      ∃ length, lengths[(locate lengths n).1]? = some length ∧ (locate lengths n).2 < length := by
  induction lengths generalizing n with
  | nil => simp at h
  | cons length lengths ih =>
    rw [List.sum_cons] at h
    rw [locate]
    split
    · next hlt => simpa using hlt
    · next hge =>
      obtain ⟨hsum, hwithin⟩ := ih (n := n - length) (by omega)
      refine ⟨?_, hwithin⟩
      rw [List.take_succ_cons, List.sum_cons]
      omega

/-! ## Dates -/

structure Date where
  year : Nat
  month : Nat
  day : Nat
  deriving DecidableEq

namespace Date

/-- `_ord2ymd`, of a day. -/
def ofDays (n : Nat) : Date :=
  let inYear := yearOf n
  let inMonth := locate (monthLengths (isLeap inYear.1)) inYear.2
  ⟨inYear.1, inMonth.1 + 1, inMonth.2 + 1⟩

/-- `_ymd2ord`, of a date. -/
def toDays (d : Date) : Nat :=
  daysBeforeYear d.year + ((monthLengths (isLeap d.year)).take (d.month - 1)).sum + (d.day - 1)

/-- `_check_date_fields`. -/
def valid (d : Date) : Bool :=
  1 ≤ d.year && d.year ≤ 9999 && 1 ≤ d.month && 1 ≤ d.day &&
    d.day ≤ ((monthLengths (isLeap d.year))[d.month - 1]?).getD 0

theorem sum_monthLengths (leap : Bool) :
    (monthLengths leap).sum = if leap then 366 else 365 := by
  cases leap <;> rfl

theorem toDays_succ (year month day : Nat) : (Date.mk year (month + 1) (day + 1)).toDays =
    daysBeforeYear year + (((monthLengths (isLeap year)).take month).sum + day) :=
  Nat.add_assoc _ _ _

theorem valid_succ {year month day length : Nat} (hyear : 1 ≤ year ∧ year ≤ 9999)
    (hlength : (monthLengths (isLeap year))[month]? = some length) (hday : day < length) :
    (Date.mk year (month + 1) (day + 1)).valid = true := by
  simp [valid, hyear, hlength]
  omega

theorem toDays_ofDays (n : Nat) : (ofDays n).toDays = n := by
  obtain ⟨hbefore, hday⟩ := daysBeforeYear_yearOf n
  rw [← sum_monthLengths] at hday
  rw [ofDays, toDays_succ, (locate_sum hday).1, hbefore]

theorem widths_of_valid {d : Date} (h : d.valid = true) :
    d.year < 10 ^ 4 ∧ d.month < 10 ^ 2 ∧ d.day < 10 ^ 2 := by
  have hlengths : ∀ leap, ∀ length ∈ monthLengths leap, length < 32 := by decide
  simp only [valid, Bool.and_eq_true, decide_eq_true_eq] at h
  obtain ⟨⟨⟨⟨-, hyear⟩, -⟩, hday⟩, hfits⟩ := h
  cases hlength : (monthLengths (isLeap d.year))[d.month - 1]? with
  | none =>
    rw [hlength, Option.getD_none] at hfits
    omega
  | some length =>
    rw [hlength, Option.getD_some] at hfits
    have hmonth := (List.getElem?_eq_some_iff.mp hlength).1
    have hle := hlengths _ length (List.mem_of_getElem? hlength)
    rw [monthLengths] at hmonth
    simp only [List.length_cons, List.length_nil] at hmonth
    omega

theorem valid_ofDays {n : Nat} (h : n < 3652059) : (ofDays n).valid = true := by
  obtain ⟨hbefore, hday⟩ := daysBeforeYear_yearOf n
  obtain ⟨quads, centuries, fours, years, hyear, hcycles⟩ := yearOf_cycles n
  have hlast : 1 ≤ (yearOf n).1 ∧ (yearOf n).1 ≤ 9999 := by
    obtain ⟨hday_eq, hcenturies, hfours, hyears, -, -⟩ := hcycles
    omega
  rw [← sum_monthLengths] at hday
  obtain ⟨-, length, hlength, hlt⟩ := locate_sum hday
  exact valid_succ hlast hlength hlt

end Date

/-! ## Fields -/

/-- The fields of a `datetime`. -/
structure Fields where
  date : Date
  hour : Nat
  minute : Nat
  second : Nat
  microsecond : Nat

namespace Fields

/-- `_check_date_fields` and `_check_time_fields`. -/
structure InRange (f : Fields) : Prop where
  date : f.date.valid = true
  hour : f.hour < 24
  minute : f.minute < 60
  second : f.second < 60
  microsecond : f.microsecond < 10 ^ 6

instance (f : Fields) : Decidable f.InRange :=
  decidable_of_iff (f.date.valid = true ∧ f.hour < 24 ∧ f.minute < 60 ∧ f.second < 60 ∧
      f.microsecond < 10 ^ 6)
    ⟨fun h => ⟨h.1, h.2.1, h.2.2.1, h.2.2.2.1, h.2.2.2.2⟩,
      fun h => ⟨h.date, h.hour, h.minute, h.second, h.microsecond⟩⟩

/-- The seconds since the beginning of year 1. -/
def seconds (f : Fields) : Nat := ((f.date.toDays * 24 + f.hour) * 60 + f.minute) * 60 + f.second

/-- What the fields read, if they are in range, as if that were UTC. -/
def datetime (f : Fields) : Option Datetime :=
  if f.InRange then
    Datetime.ofMicroseconds ((f.seconds * 10 ^ 6 + f.microsecond : Nat) - 62135596800000000)
  else none

/-- The fields of a time in UTC. -/
def ofDatetime (d : Datetime) : Fields :=
  let us := (d.us + 62135596800000000).toNat
  let seconds := us / 10 ^ 6
  ⟨Date.ofDays (seconds / 86400), seconds / 3600 % 24, seconds / 60 % 60, seconds % 60,
    us % 10 ^ 6⟩

theorem microsecond_eq (d : Datetime) : ((ofDatetime d).microsecond : Int) = d.us % 10 ^ 6 := by
  have hlower := d.lower
  simp only [ofDatetime]
  omega

theorem seconds_ofDatetime (d : Datetime) :
    (ofDatetime d).seconds = (d.us + 62135596800000000).toNat / 10 ^ 6 := by
  simp only [ofDatetime, seconds, Date.toDays_ofDays]
  omega

theorem ofDatetime_inRange (d : Datetime) : (ofDatetime d).InRange := by
  have hupper := d.upper
  refine ⟨?_, ?_, ?_, ?_, ?_⟩
  · apply Date.valid_ofDays
    omega
  · exact Nat.mod_lt _ (by decide)
  · exact Nat.mod_lt _ (by decide)
  · exact Nat.mod_lt _ (by decide)
  · exact Nat.mod_lt _ (by decide)

/-- The fields of a time denote it. -/
theorem ofDatetime_datetime (d : Datetime) : (ofDatetime d).datetime = some d := by
  have hlower := d.lower
  have hmicrosecond : (ofDatetime d).microsecond = (d.us + 62135596800000000).toNat % 10 ^ 6 := rfl
  have hus : (((ofDatetime d).seconds * 10 ^ 6 + (ofDatetime d).microsecond : Nat) : Int) -
      62135596800000000 = d.us := by
    rw [seconds_ofDatetime, hmicrosecond, Nat.div_add_mod']
    omega
  rw [datetime, if_pos (ofDatetime_inRange d), hus, Datetime.ofMicroseconds,
    dif_pos ⟨hlower, d.upper⟩]

end Fields

example : (Fields.ofDatetime .epoch).date = ⟨1970, 1, 1⟩ := by decide
example : Date.ofDays 146096 = ⟨400, 12, 31⟩ := by decide
example : Date.ofDays 146097 = ⟨401, 1, 1⟩ := by decide

end Py
