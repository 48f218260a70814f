import Mathlib.Algebra.Ring.Nat
import HookGuard.Lib.Text

/- Integers in decimal: `str` writes the digits of a number, after a minus sign where it is
   negative, `int` reads them back (`pyInt_intStr`), and no two numbers are written alike. -/
namespace Py

/-- The digits of a number. -/
def natStr (n : Nat) : Str := (Nat.toDigits 10 n).map Char.toNat

theorem intStr_of_nonneg {n : Int} (h : 0 ≤ n) : intStr n = natStr n.natAbs := by
  rw [intStr, if_neg (by omega), natStr]

theorem intStr_of_neg {n : Int} (h : n < 0) : intStr n = 45 :: natStr n.natAbs := by
  rw [intStr, if_pos h, natStr]

theorem natStr_digits (n : Nat) : ∀ c ∈ natStr n, isAsciiDigit c = true := by
  intro c hc
  obtain ⟨d, hd, rfl⟩ := List.mem_map.mp hc
  have hdigit := Nat.isDigit_of_mem_toDigits (by decide) (by decide) hd
  simp only [Char.isDigit, Bool.and_eq_true, decide_eq_true_eq] at hdigit
  simp only [isAsciiDigit, Bool.and_eq_true, decide_eq_true_eq]
  exact hdigit

theorem natStr_ne_nil (n : Nat) : natStr n ≠ [] := by
  simp [natStr, Nat.toDigits_ne_nil]

theorem natStr_head {n : Nat} (h : 0 < n) : ∃ c s, natStr n = c :: s ∧ c ≠ 48 := by
  induction n using Nat.strongRecOn with
  | ind n ih =>
    unfold natStr
    rw [Nat.toDigits_eq_if (by decide)]
    split
    · next hlt =>
      have all : ∀ d < 10, 0 < d → d.digitChar.toNat ≠ 48 := by decide
      exact ⟨_, [], rfl, all n hlt h⟩
    · obtain ⟨c, s, hs, hc⟩ := ih (n / 10) (by omega) (by omega)
      refine ⟨c, s ++ [(n % 10).digitChar.toNat], ?_, hc⟩
      rw [List.map_append, show (Nat.toDigits 10 (n / 10)).map Char.toNat = c :: s from hs]
      rfl

theorem decimalValue_asciiDigit {c : Nat} (h : isAsciiDigit c = true) :
    decimalValue c = some (c - 48) := by
  simp only [isAsciiDigit, Bool.and_eq_true, decide_eq_true_eq] at h
  have all : ∀ i < 10, decimalValue (48 + i) = some i := by decide
  have hc := all (c - 48) (by omega)
  rwa [Nat.add_sub_cancel' h.1] at hc

theorem digitsValue_natStr (n : Nat) : digitsValue (natStr n) = n := by
  have hdigits := natStr_digits n
  calc digitsValue (natStr n)
      = (natStr n).foldl (fun m c => 10 * m + (c - 48)) 0 := by
        apply List.foldl_ext
        intro m c hc
        rw [decimalValue_asciiDigit (hdigits c hc), Option.getD_some]
    _ = Nat.ofDigitChars 10 (Nat.toDigits 10 n) 0 := by
        rw [natStr, List.foldl_map, Nat.ofDigitChars_eq_foldl]
        rfl
    _ = n := Nat.ofDigitChars_ten_toDigits

/-- A number that is not too long is read back. -/
theorem pyInt_intStr {n : Int} (h : (natStr n.natAbs).length ≤ intMaxStrDigits) :
    pyInt (intStr n) = some n := by
  have hdecimal : ∀ c ∈ natStr n.natAbs, isDecimal c = true :=
    fun c hc => isDecimal_of_isAsciiDigit (natStr_digits _ c hc)
  by_cases hneg : n < 0
  · rw [intStr_of_neg hneg, (pyInt_signed (natStr_ne_nil _) hdecimal).1, if_pos h,
      digitsValue_natStr]
    congr 1
    omega
  · rw [intStr_of_nonneg (by omega), pyInt_decimals (natStr_ne_nil _) hdecimal, if_pos h,
      digitsValue_natStr]
    congr 1
    omega

theorem natStr_length_le {n k : Nat} (hk : 0 < k) (h : n < 10 ^ k) :
    (natStr n).length ≤ k := by
  rw [natStr, List.length_map, Nat.length_toDigits_le_iff (by decide) hk]
  exact h

theorem intStr_le {n : Int} : ∀ c ∈ intStr n, c ≤ 57 := by
  have hdigit : ∀ c ∈ natStr n.natAbs, c ≤ 57 := by
    intro c hc
    have hc := natStr_digits _ c hc
    simp only [isAsciiDigit, Bool.and_eq_true, decide_eq_true_eq] at hc
    exact hc.2
  intro c hc
  by_cases hneg : n < 0
  · rw [intStr_of_neg hneg] at hc
    rcases List.mem_cons.mp hc with rfl | hc
    · omega
    · exact hdigit c hc
  · rw [intStr_of_nonneg (by omega)] at hc
    exact hdigit c hc

theorem isAscii_intStr (n : Int) : isAscii (intStr n) = true := by
  rw [isAscii, List.all_eq_true]
  intro c hc
  have hle := intStr_le c hc
  exact decide_eq_true (by omega)

theorem intStr_injective {m n : Int} (h : intStr m = intStr n) : m = n := by
  -- the minus sign is no digit
  have hsign : ∀ a b : Nat, natStr a ≠ 45 :: natStr b := by
    intro a b heq
    have hdigit := natStr_digits a 45 (heq ▸ List.mem_cons_self)
    exact absurd hdigit (by decide)
  have habs : ∀ a b : Nat, natStr a = natStr b → a = b := by
    intro a b heq
    rw [← digitsValue_natStr a, heq, digitsValue_natStr]
  by_cases hm : m < 0
  · by_cases hn : n < 0
    · rw [intStr_of_neg hm, intStr_of_neg hn, List.cons.injEq] at h
      have := habs _ _ h.2
      omega
    · rw [intStr_of_neg hm, intStr_of_nonneg (by omega)] at h
      exact absurd h.symm (hsign _ _)
  · by_cases hn : n < 0
    · rw [intStr_of_nonneg (by omega), intStr_of_neg hn] at h
      exact absurd h (hsign _ _)
    · rw [intStr_of_nonneg (by omega), intStr_of_nonneg (by omega)] at h
      have := habs _ _ h
      omega

end Py
