import Mathlib.Data.Int.Log
import Mathlib.Data.Rat.Floor
import Mathlib.Tactic.Linarith
import Mathlib.Tactic.NormNum
import Mathlib.Tactic.Positivity

/- Binary64 arithmetic, as far as dividing, multiplying and converting a number of
   seconds needs it: the nearest 53-bit value of a rational (ties to even), and
   which integers a double can hold at all. Subnormals are left out: no number of
   seconds here is that small unless it is zero. -/
namespace Py

/-- The integer nearest `q`, ties to even. -/
def roundHalfEven (q : ℚ) : Int :=
  let f := ⌊q⌋
  if q - f < 1 / 2 then f
  else if 1 / 2 < q - f then f + 1
  else if f % 2 = 0 then f else f + 1

/-- The double nearest `q`. -/
def nearestDouble (q : ℚ) : ℚ :=
  if q = 0 then 0
  else
    let e : Int := Int.log 2 |q| - 52
    roundHalfEven (q / 2 ^ e) * 2 ^ e

/-- `int(x)` of a double: toward zero. -/
def truncate (q : ℚ) : Int := if q < 0 then -⌊-q⌋ else ⌊q⌋

/-- The integers that convert to a double without `OverflowError`: those that
    round below 2^1024. -/
def fitsDouble (n : Int) : Bool := n.natAbs < 2 ^ 1024 - 2 ^ 970

/-! ## How far a rounding is off -/

theorem roundHalfEven_near (q : ℚ) : |(roundHalfEven q : ℚ) - q| ≤ 1 / 2 := by
  have hfloor := Int.floor_le q
  have hlt := Int.lt_floor_add_one q
  rw [abs_le]
  simp only [roundHalfEven]
  split
  · constructor <;> linarith
  · split
    · push_cast
      constructor <;> linarith
    · split
      · constructor <;> linarith
      · push_cast
        constructor <;> linarith

/-- The nearest double is off by no more than the last of 53 bits. -/
theorem nearestDouble_near (q : ℚ) : |nearestDouble q - q| ≤ |q| / 2 ^ 53 := by
  by_cases h0 : q = 0
  · simp [nearestDouble, h0]
  · have hpow : (0 : ℚ) < 2 ^ (Int.log 2 |q| - 52) := zpow_pos (by norm_num) _
    have hlog : (2 : ℚ) ^ Int.log 2 |q| ≤ |q| := by
      exact_mod_cast Int.zpow_log_le_self (R := ℚ) (b := 2) (by norm_num) (abs_pos.mpr h0)
    have hnear := roundHalfEven_near (q / 2 ^ (Int.log 2 |q| - 52))
    have hsplit : nearestDouble q - q =
        (roundHalfEven (q / 2 ^ (Int.log 2 |q| - 52)) - q / 2 ^ (Int.log 2 |q| - 52)) *
          2 ^ (Int.log 2 |q| - 52) := by
      rw [nearestDouble, if_neg h0, sub_mul, div_mul_cancel₀ _ hpow.ne']
    have hscale : (2 : ℚ) ^ (Int.log 2 |q| - 52) = 2 ^ Int.log 2 |q| / 2 ^ 52 := by
      rw [zpow_sub₀ (by norm_num)]
      norm_cast
    rw [hsplit, abs_mul, abs_of_pos hpow]
    calc |(roundHalfEven (q / 2 ^ (Int.log 2 |q| - 52)) : ℚ) - q / 2 ^ (Int.log 2 |q| - 52)| *
          2 ^ (Int.log 2 |q| - 52)
        ≤ 1 / 2 * 2 ^ (Int.log 2 |q| - 52) := by gcongr
      _ = 2 ^ Int.log 2 |q| / 2 ^ 53 := by rw [hscale]; ring
      _ ≤ |q| / 2 ^ 53 := by gcongr

theorem nearestDouble_within {q b : ℚ} (h : |q| ≤ b) : |nearestDouble q - q| ≤ b / 2 ^ 53 :=
  (nearestDouble_near q).trans (by gcongr)

theorem truncate_near (q : ℚ) : |(truncate q : ℚ) - q| < 1 := by
  unfold truncate
  rw [abs_lt]
  split
  · have hle := Int.floor_le (-q)
    have hlt := Int.lt_floor_add_one (-q)
    push_cast
    constructor <;> linarith
  · have hle := Int.floor_le q
    have hlt := Int.lt_floor_add_one q
    constructor <;> linarith

theorem abs_truncate_le (q : ℚ) : |(truncate q : ℚ)| ≤ |q| := by
  unfold truncate
  split
  · next hneg =>
    have hle := Int.floor_le (-q)
    have h0 : (0 : ℚ) ≤ ⌊-q⌋ := by exact_mod_cast Int.floor_nonneg.mpr (by linarith)
    rw [Int.cast_neg, abs_neg, abs_of_nonneg h0, abs_of_neg hneg]
    exact hle
  · next hpos =>
    rw [not_lt] at hpos
    have h0 : (0 : ℚ) ≤ ⌊q⌋ := by exact_mod_cast Int.floor_nonneg.mpr hpos
    rw [abs_of_nonneg h0, abs_of_nonneg hpos]
    exact Int.floor_le q

/-! ## Rounding keeps the order -/

theorem roundHalfEven_of_lt {q : ℚ} (h : q - ⌊q⌋ < 1 / 2) : roundHalfEven q = ⌊q⌋ := if_pos h

theorem roundHalfEven_of_gt {q : ℚ} (h : 1 / 2 < q - ⌊q⌋) : roundHalfEven q = ⌊q⌋ + 1 := by
  rw [roundHalfEven, if_neg (by linarith), if_pos h]

theorem roundHalfEven_of_half {q : ℚ} (h : q - ⌊q⌋ = 1 / 2) :
    roundHalfEven q = if ⌊q⌋ % 2 = 0 then ⌊q⌋ else ⌊q⌋ + 1 := by
  rw [roundHalfEven, if_neg (by linarith), if_neg (by linarith)]

theorem roundHalfEven_bounds (q : ℚ) : ⌊q⌋ ≤ roundHalfEven q ∧ roundHalfEven q ≤ ⌊q⌋ + 1 := by
  rcases lt_trichotomy (q - ⌊q⌋) (1 / 2) with h | h | h
  · rw [roundHalfEven_of_lt h]
    omega
  · rw [roundHalfEven_of_half h]
    split <;> omega
  · rw [roundHalfEven_of_gt h]
    omega

theorem roundHalfEven_mono {p q : ℚ} (h : p ≤ q) : roundHalfEven p ≤ roundHalfEven q := by
  have hfloor : ⌊p⌋ ≤ ⌊q⌋ := Int.floor_le_floor h
  have hp := roundHalfEven_bounds p
  have hq := roundHalfEven_bounds q
  by_cases hsame : ⌊p⌋ = ⌊q⌋
  · -- only the fractions differ
    have hfraction : p - ⌊p⌋ ≤ q - ⌊q⌋ := by
      rw [hsame]
      linarith
    rcases lt_trichotomy (p - ⌊p⌋) (1 / 2) with hlt | heq | hgt
    · rw [roundHalfEven_of_lt hlt]
      omega
    · rcases (heq ▸ hfraction).lt_or_eq with hgt' | heq'
      · rw [roundHalfEven_of_gt hgt']
        omega
      · rw [roundHalfEven_of_half heq, roundHalfEven_of_half heq'.symm, hsame]
    · rw [roundHalfEven_of_gt (lt_of_lt_of_le hgt hfraction)]
      omega
  · omega

theorem roundHalfEven_intCast (n : Int) : roundHalfEven n = n := by
  simp [roundHalfEven]

theorem roundHalfEven_neg (q : ℚ) : roundHalfEven (-q) = -roundHalfEven q := by
  by_cases hint : (⌊q⌋ : ℚ) = q
  · rw [← hint, ← Int.cast_neg, roundHalfEven_intCast, roundHalfEven_intCast]
  · have hlt := Int.lt_floor_add_one q
    have hne : (⌊q⌋ : ℚ) < q := lt_of_le_of_ne (Int.floor_le q) hint
    have hneg : ⌊-q⌋ = -⌊q⌋ - 1 := by
      rw [Int.floor_eq_iff]
      push_cast
      constructor <;> linarith
    have hfraction : -q - (⌊-q⌋ : ℚ) = 1 - (q - ⌊q⌋) := by
      rw [hneg]
      push_cast
      ring
    rcases lt_trichotomy (q - ⌊q⌋) (1 / 2) with h | h | h
    · rw [roundHalfEven_of_lt h, roundHalfEven_of_gt (by linarith), hneg]
      omega
    · rw [roundHalfEven_of_half h, roundHalfEven_of_half (by linarith), hneg]
      split <;> split <;> omega
    · rw [roundHalfEven_of_gt h, roundHalfEven_of_lt (by linarith), hneg]
      omega

theorem nearestDouble_neg (q : ℚ) : nearestDouble (-q) = -nearestDouble q := by
  by_cases h0 : q = 0
  · simp [nearestDouble, h0]
  · simp only [nearestDouble, neg_eq_zero, h0, if_false, abs_neg, neg_div, roundHalfEven_neg]
    push_cast
    ring

/-- The nearest double of a positive number lies between the powers of two around it. -/
theorem nearestDouble_bounds {q : ℚ} (h : 0 < q) :
    (2 : ℚ) ^ Int.log 2 q ≤ nearestDouble q ∧ nearestDouble q ≤ 2 ^ (Int.log 2 q + 1) := by
  have hpow : (0 : ℚ) < 2 ^ (Int.log 2 q - 52) := zpow_pos (by norm_num) _
  have hlog : (2 : ℚ) ^ Int.log 2 q ≤ q := by
    exact_mod_cast Int.zpow_log_le_self (R := ℚ) (b := 2) (by norm_num) h
  have hlog' : q < (2 : ℚ) ^ (Int.log 2 q + 1) := by
    exact_mod_cast Int.lt_zpow_succ_log_self (R := ℚ) (b := 2) (by norm_num) q
  have hscale : ((2 ^ 52 : Int) : ℚ) * 2 ^ (Int.log 2 q - 52) = 2 ^ Int.log 2 q := by
    rw [zpow_sub₀ (by norm_num)]
    norm_num
    ring
  have hscale' : ((2 ^ 53 : Int) : ℚ) * 2 ^ (Int.log 2 q - 52) = 2 ^ (Int.log 2 q + 1) := by
    rw [zpow_sub₀ (by norm_num), zpow_add_one₀ (by norm_num)]
    norm_num
    ring
  have hlower : (2 ^ 52 : Int) ≤ roundHalfEven (q / 2 ^ (Int.log 2 q - 52)) := by
    rw [← roundHalfEven_intCast (2 ^ 52)]
    apply roundHalfEven_mono
    rw [le_div_iff₀ hpow, hscale]
    exact hlog
  have hupper : roundHalfEven (q / 2 ^ (Int.log 2 q - 52)) ≤ (2 ^ 53 : Int) := by
    rw [← roundHalfEven_intCast (2 ^ 53)]
    apply roundHalfEven_mono
    rw [div_le_iff₀ hpow, hscale']
    exact hlog'.le
  rw [nearestDouble, if_neg h.ne', abs_of_pos h, ← hscale, ← hscale']
  constructor
  · exact mul_le_mul_of_nonneg_right (by exact_mod_cast hlower) hpow.le
  · exact mul_le_mul_of_nonneg_right (by exact_mod_cast hupper) hpow.le

theorem nearestDouble_mono_pos {p q : ℚ} (hp : 0 < p) (h : p ≤ q) :
    nearestDouble p ≤ nearestDouble q := by
  have hq : 0 < q := lt_of_lt_of_le hp h
  have hlog : Int.log 2 p ≤ Int.log 2 q := Int.log_mono_right hp h
  rcases hlog.lt_or_eq with hlt | heq
  · calc nearestDouble p ≤ 2 ^ (Int.log 2 p + 1) := (nearestDouble_bounds hp).2
      _ ≤ 2 ^ Int.log 2 q := zpow_le_zpow_right₀ (by norm_num) hlt
      _ ≤ nearestDouble q := (nearestDouble_bounds hq).1
  · have hpow : (0 : ℚ) < 2 ^ (Int.log 2 q - 52) := zpow_pos (by norm_num) _
    simp only [nearestDouble, hp.ne', hq.ne', if_false, abs_of_pos hp, abs_of_pos hq, heq]
    have hround := roundHalfEven_mono (div_le_div_of_nonneg_right h hpow.le)
    exact mul_le_mul_of_nonneg_right (by exact_mod_cast hround) hpow.le

theorem nearestDouble_nonneg {q : ℚ} (h : 0 ≤ q) : 0 ≤ nearestDouble q := by
  rcases h.lt_or_eq with h | rfl
  · exact (zpow_pos (by norm_num) _).le.trans (nearestDouble_bounds h).1
  · simp [nearestDouble]

theorem nearestDouble_mono {p q : ℚ} (h : p ≤ q) : nearestDouble p ≤ nearestDouble q := by
  rcases lt_trichotomy p 0 with hp | rfl | hp
  · rcases lt_or_ge q 0 with hq | hq
    · have hneg : nearestDouble (-q) ≤ nearestDouble (-p) :=
        nearestDouble_mono_pos (by linarith) (by linarith)
      rw [nearestDouble_neg, nearestDouble_neg] at hneg
      linarith
    · have hneg : 0 ≤ nearestDouble (-p) := nearestDouble_nonneg (by linarith)
      rw [nearestDouble_neg] at hneg
      exact (by linarith : nearestDouble p ≤ 0).trans (nearestDouble_nonneg hq)
  · rw [show nearestDouble 0 = 0 by simp [nearestDouble]]
    exact nearestDouble_nonneg h
  · exact nearestDouble_mono_pos hp h

theorem truncate_mono {p q : ℚ} (h : p ≤ q) : truncate p ≤ truncate q := by
  unfold truncate
  by_cases hp : p < 0
  · rw [if_pos hp]
    by_cases hq : q < 0
    · rw [if_pos hq]
      exact Int.neg_le_neg (Int.floor_le_floor (neg_le_neg h))
    · have hpos : 0 ≤ ⌊-p⌋ := Int.floor_nonneg.mpr (by linarith)
      have hpos' : 0 ≤ ⌊q⌋ := Int.floor_nonneg.mpr (not_lt.mp hq)
      rw [if_neg hq]
      omega
  · rw [if_neg hp, if_neg (by linarith)]
    exact Int.floor_le_floor h

/-! ## What a double holds -/

theorem nearestDouble_intCast {n : Int} (h : |n| < 2 ^ 53) : nearestDouble n = n := by
  by_cases h0 : (n : ℚ) = 0
  · rw [nearestDouble, if_pos h0, h0]
  · have habs : (1 : ℚ) ≤ |(n : ℚ)| := by
      exact_mod_cast Int.one_le_abs (by exact_mod_cast h0)
    have hlog : Int.log 2 |(n : ℚ)| ≤ 52 := by
      have hlt : Int.log 2 |(n : ℚ)| < 53 := by
        rw [← Int.lt_zpow_iff_log_lt (by norm_num) (by linarith)]
        exact_mod_cast h
      omega
    obtain ⟨k, hk⟩ : ∃ k : Nat, Int.log 2 |(n : ℚ)| - 52 = -(k : Int) :=
      ⟨(52 - Int.log 2 |(n : ℚ)|).toNat, by omega⟩
    have hscaled : (n : ℚ) / 2 ^ (-(k : Int)) = ((n * 2 ^ k : Int) : ℚ) := by
      rw [zpow_neg, div_inv_eq_mul, zpow_natCast]
      push_cast
      ring
    simp only [nearestDouble, h0, if_false, hk]
    rw [hscaled, roundHalfEven_intCast, ← hscaled,
      div_mul_cancel₀ _ (zpow_ne_zero _ (by norm_num))]

end Py
