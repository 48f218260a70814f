import HookGuard.Lib.Datetime
import HookGuard.Lib.Double

/- Timestamps of a `datetime`: the number of seconds since the epoch as a double, the
   milliseconds that are stored of it, and the `datetime` that is read back from them.

   `timestamp() * 1000` is a product of doubles, and `int` cuts it off, so that a time of
   whole milliseconds may be stored as the millisecond before it (`1.001` is). What is
   read back is within two milliseconds of what was stored (`fromUnixMs_near`), and from the
   epoch on never in the next millisecond (`fromUnixMs_lt`). -/
namespace Py

/-- `self.timestamp()`. -/
def Datetime.timestamp (d : Datetime) : ℚ := nearestDouble (d.us / 10 ^ 6)

/-- `int(self.timestamp() * 1000)`. -/
def Datetime.unixMs (d : Datetime) : Int := truncate (nearestDouble (d.timestamp * 1000))

/-- The `datetime` of a number of microseconds, where the years reach. -/
def Datetime.ofMicroseconds (us : Int) : Option Datetime :=
  if h : -62135596800000000 ≤ us ∧ us < 253402300800000000 then some ⟨us, h.1, h.2⟩ else none

/-- `self + timedelta(microseconds=us)`; `none` is the `OverflowError`. -/
def Datetime.add (d : Datetime) (us : Int) : Option Datetime := ofMicroseconds (d.us + us)

/-- `datetime.fromtimestamp(x, tz=UTC)`; `none` is the `ValueError`. -/
def Datetime.fromTimestamp (x : ℚ) : Option Datetime :=
  ofMicroseconds (truncate x * 10 ^ 6 + roundHalfEven (nearestDouble ((x - truncate x) * 10 ^ 6)))

/-- `datetime.fromtimestamp(ms / 1000, tz=UTC)`. -/
def Datetime.fromUnixMs (ms : Int) : Option Datetime :=
   fromTimestamp (nearestDouble (ms / 1000))

theorem Datetime.ofMicroseconds_eq_some {us : Int} {d : Datetime}
    (h : Datetime.ofMicroseconds us = some d) : d.us = us := by
  unfold ofMicroseconds at h
  split at h
  · rw [← Option.some.inj h]
  · cases h

theorem microseconds_near (x : ℚ) :
    |((truncate x * 10 ^ 6 + roundHalfEven (nearestDouble ((x - truncate x) * 10 ^ 6)) : Int) : ℚ)
      - x * 10 ^ 6| ≤ 1 := by
  have htrunc := truncate_near x
  have hfraction : |(x - truncate x) * 10 ^ 6| ≤ 10 ^ 6 := by
    rw [abs_lt] at htrunc
    rw [abs_le]
    constructor <;> linarith
  have hdouble := nearestDouble_within hfraction
  have hround := roundHalfEven_near (nearestDouble ((x - truncate x) * 10 ^ 6))
  generalize nearestDouble ((x - truncate x) * 10 ^ 6) = fraction at hdouble hround ⊢
  rw [abs_le] at hdouble hround ⊢
  push_cast
  constructor <;> linarith

theorem Datetime.milliseconds_near (d : Datetime) :
    |nearestDouble (d.timestamp * 1000) - d.us / 1000| ≤ 1 / 10 := by
  have hlower : (-62135596800000000 : ℚ) ≤ d.us := by exact_mod_cast d.lower
  have hupper : (d.us : ℚ) < 253402300800000000 := by exact_mod_cast d.upper
  have hus : |(d.us : ℚ) / 10 ^ 6| ≤ 253402300800 := by
    rw [abs_le]
    constructor <;> linarith
  have hseconds : |d.timestamp - d.us / 10 ^ 6| ≤ _ := nearestDouble_within hus
  have hmillis : |d.timestamp * 1000| ≤ 253402300801 * 1000 := by
    rw [abs_le] at hus hseconds ⊢
    constructor <;> linarith
  have hproduct := nearestDouble_within hmillis
  rw [abs_le] at hseconds hproduct ⊢
  constructor <;> linarith

theorem Datetime.milliseconds_mono {d d' : Datetime} (h : d.us ≤ d'.us) :
    nearestDouble (d.timestamp * 1000) ≤ nearestDouble (d'.timestamp * 1000) := by
  have hus : (d.us : ℚ) ≤ d'.us := by exact_mod_cast h
  have hseconds : d.timestamp ≤ d'.timestamp :=
    nearestDouble_mono (div_le_div_of_nonneg_right hus (by norm_num))
  exact nearestDouble_mono (mul_le_mul_of_nonneg_right hseconds (by norm_num))

theorem Datetime.unixMs_mono {d d' : Datetime} (h : d.us ≤ d'.us) : d.unixMs ≤ d'.unixMs :=
  truncate_mono (Datetime.milliseconds_mono h)

theorem Datetime.unixMs_near (d : Datetime) : |(d.unixMs : ℚ) * 1000 - d.us| ≤ 1200 := by
  have hmillis := d.milliseconds_near
  have hcut : |(d.unixMs : ℚ) - _| < 1 := truncate_near (nearestDouble (d.timestamp * 1000))
  rw [abs_le] at hmillis ⊢
  rw [abs_lt] at hcut
  constructor <;> linarith

/-- A time of whole milliseconds from the epoch on is not stored as a later one. -/
theorem Datetime.unixMs_le {d : Datetime} (h0 : 0 ≤ d.us) (hwhole : d.us % 1000 = 0) :
    d.unixMs * 1000 ≤ d.us := by
  have hus : (0 : ℚ) ≤ d.us := by exact_mod_cast h0
  have hmillis := d.milliseconds_near
  have hcut : |(d.unixMs : ℚ)| ≤ |_| := abs_truncate_le (nearestDouble (d.timestamp * 1000))
  have hbound : |nearestDouble (d.timestamp * 1000)| ≤ d.us / 1000 + 1 / 10 := by
    rw [abs_le] at hmillis ⊢
    constructor <;> linarith
  have hle : (d.unixMs : ℚ) * 1000 ≤ d.us + 100 := by
    have habs := le_abs_self (d.unixMs : ℚ)
    linarith
  have hle' : d.unixMs * 1000 ≤ d.us + 100 := by exact_mod_cast hle
  omega

theorem Datetime.unixMs_abs_le (d : Datetime) : |(d.unixMs : ℚ) / 1000| ≤ 253402300802 := by
  have hlower : (-62135596800000000 : ℚ) ≤ d.us := by exact_mod_cast d.lower
  have hupper : (d.us : ℚ) < 253402300800000000 := by exact_mod_cast d.upper
  have hnear := d.unixMs_near
  rw [abs_le] at hnear ⊢
  constructor <;> linarith

theorem Datetime.unixMs_bounds (d : Datetime) :
    -253402300802000 ≤ d.unixMs ∧ d.unixMs ≤ 253402300802000 := by
  have hnear := d.unixMs_abs_le
  rw [abs_le] at hnear
  have hlower : (-253402300802000 : ℚ) ≤ d.unixMs := by linarith
  have hupper : (d.unixMs : ℚ) ≤ 253402300802000 := by linarith
  exact ⟨by exact_mod_cast hlower, by exact_mod_cast hupper⟩

theorem microseconds_of_ms_near {ms : Int} (h : |(ms : ℚ) / 1000| ≤ 253402300802) :
    |((truncate (nearestDouble (ms / 1000)) * 10 ^ 6 + roundHalfEven (nearestDouble
      ((nearestDouble (ms / 1000) - truncate (nearestDouble (ms / 1000))) * 10 ^ 6)) : Int) : ℚ)
      - ms * 1000| ≤ 100 := by
  have hdouble := nearestDouble_within h
  have hread := microseconds_near (nearestDouble (ms / 1000))
  rw [abs_le] at hdouble hread ⊢
  constructor <;> linarith

/-- A time that is stored in milliseconds is read back within two of them. -/
theorem Datetime.fromUnixMs_near {d back : Datetime}
    (h : Datetime.fromUnixMs d.unixMs = some back) : |back.us - d.us| ≤ 2000 := by
  have hnear := d.unixMs_near
  have hread := microseconds_of_ms_near d.unixMs_abs_le
  rw [← ofMicroseconds_eq_some h] at hread
  have hgoal : |(back.us : ℚ) - d.us| ≤ 2000 := by
    rw [abs_le] at hnear hread ⊢
    constructor <;> linarith
  exact_mod_cast hgoal

/-- A time of whole milliseconds from the epoch on, but for the last of the years, is read
    back before the next. -/
theorem Datetime.fromUnixMs_lt {d : Datetime} (h0 : 0 ≤ d.us) (hwhole : d.us % 1000 = 0)
    (hupper : d.us < 253402300799000000) :
    ∃ back, Datetime.fromUnixMs d.unixMs = some back ∧ back.us < d.us + 1000 := by
  have hle := Datetime.unixMs_le h0 hwhole
  have hnear := d.unixMs_near
  have hread := microseconds_of_ms_near d.unixMs_abs_le
  unfold fromUnixMs fromTimestamp
  generalize truncate (nearestDouble (d.unixMs / 1000)) * 10 ^ 6 + roundHalfEven (nearestDouble
    ((nearestDouble (d.unixMs / 1000) - truncate (nearestDouble (d.unixMs / 1000))) * 10 ^ 6)) =
    us at hread ⊢
  rw [abs_le] at hnear hread
  have hlower' : (d.us : ℚ) - 1300 ≤ us := by linarith
  have hupper' : (us : ℚ) ≤ d.unixMs * 1000 + 100 := by linarith
  have hus : d.us - 1300 ≤ us := by exact_mod_cast hlower'
  have hus' : us ≤ d.unixMs * 1000 + 100 := by exact_mod_cast hupper'
  refine ⟨⟨us, by omega, by omega⟩, dif_pos ⟨by omega, by omega⟩, ?_⟩
  show us < d.us + 1000
  omega

end Py
