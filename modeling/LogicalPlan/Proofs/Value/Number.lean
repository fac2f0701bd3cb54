import Mathlib.Data.Int.Cast.Field
import Mathlib.Data.Nat.ModEq
import Mathlib.Data.Rat.Cast.Order
import LogicalPlan.Proofs.Value.Double
import LogicalPlan.Value.Key

/-!
# Equal numbers

A finite binary64 number is a rational number, and only the two zeros are the same one. Where the
rational is an integer, the number has the residue of that integer: the modulus divides
`2 ^ 61 - 1`, so powers of two repeat after 61 steps.
-/

namespace LogicalPlan

namespace Double

/-! ### Finite numbers are rational numbers -/

theorem toRat_eq (x : Double) :
    x.toRat = (if x.isNegative then -1 else 1) * (magnitude x.ordinal * 2 ^ (-1074 : ℤ)) := by
  rw [← significand_eq, toRat, signedSignificand]
  split <;> push_cast <;> ring

theorem abs_toRat (x : Double) : |x.toRat| = magnitude x.ordinal * 2 ^ (-1074 : ℤ) := by
  have nonneg : (0 : ℚ) ≤ magnitude x.ordinal * 2 ^ (-1074 : ℤ) := by positivity
  rw [toRat_eq, abs_mul, abs_of_nonneg nonneg]
  split <;> simp

/-- Only the two zeros are the same rational number. -/
theorem eq_of_toRat {x y : Double} (h : x.toRat = y.toRat) :
    x = y ∨ x.isZero = true ∧ y.isZero = true := by
  have unit : (0 : ℚ) < 2 ^ (-1074 : ℤ) := by positivity
  have habs : (magnitude x.ordinal : ℚ) = magnitude y.ordinal := by
    refine mul_right_cancel₀ unit.ne' ?_
    rw [← abs_toRat, ← abs_toRat, h]
  have ordinals : x.ordinal = y.ordinal :=
    magnitude_strictMono.injective (by exact_mod_cast habs)
  by_cases hzero : x.isZero = true
  · right
    exact ⟨hzero, y.isZero_iff.mpr (ordinals ▸ x.isZero_iff.mp hzero)⟩
  · left
    refine eq_of_ordinal_eq ?_ ordinals
    have pos : 0 < magnitude x.ordinal := by
      have : 0 < x.ordinal := Nat.pos_of_ne_zero fun h0 => hzero (x.isZero_iff.mpr h0)
      exact lt_of_le_of_lt (Nat.zero_le _) (magnitude_strictMono this)
    have size : (0 : ℚ) < magnitude x.ordinal * 2 ^ (-1074 : ℤ) := by positivity
    rw [toRat_eq, toRat_eq, ← ordinals] at h
    have signs := mul_right_cancel₀ size.ne' h
    cases hx : x.isNegative <;> cases hy : y.isNegative <;> simp [hx, hy] at signs ⊢ <;> linarith

/-- The integer that a finite number is, if it is one. -/
theorem toInt?_eq_some_iff {x : Double} (hx : x.isFinite = true) (i : ℤ) :
    x.toInt? = some i ↔ x.toRat = i := by
  have power (n : ℕ) : (2 : ℤ) ^ n ≠ 0 := by positivity
  unfold toInt? toRat
  rw [hx, Bool.not_true, if_neg Bool.false_ne_true]
  split
  case isTrue hexp =>
    obtain ⟨n, hn⟩ := Int.eq_ofNat_of_zero_le hexp
    rw [Option.some.injEq, hn]
    simp only [Int.toNat_natCast, zpow_natCast, Int.pow_eq]
    exact_mod_cast Iff.rfl
  case isFalse hexp =>
    obtain ⟨n, hn⟩ := Int.eq_ofNat_of_zero_le (show 0 ≤ -x.exponent by omega)
    have rational : (x.signedSignificand * 2 ^ x.exponent : ℚ) = i ↔
        x.signedSignificand = i * 2 ^ n := by
      rw [show x.exponent = -(n : ℤ) by omega, zpow_neg, zpow_natCast, ← div_eq_mul_inv,
        div_eq_iff (by positivity)]
      exact_mod_cast Iff.rfl
    have divides : x.significand % 2 ^ n = 0 ↔ (2 : ℤ) ^ n ∣ x.signedSignificand := by
      rw [← Nat.dvd_iff_mod_eq_zero, signedSignificand]
      split
      · rw [Int.dvd_neg]
        exact_mod_cast Iff.rfl
      · exact_mod_cast Iff.rfl
    rw [rational, hn]
    simp only [Int.toNat_natCast, Nat.pow_eq, Int.pow_eq]
    split
    case isTrue hdvd =>
      rw [Option.some.injEq]
      exact Int.ediv_eq_iff_eq_mul_left (power n) (divides.mp hdvd)
    case isFalse hdvd =>
      refine iff_of_false (by simp) fun h => hdvd (divides.mpr ?_)
      exact ⟨i, by rw [h, mul_comm]⟩

theorem toInt?_eq_none {x : Double} (hx : x.isFinite = false) : x.toInt? = none := by
  rw [toInt?, hx, Bool.not_false, if_pos rfl]

theorem isFinite_of_toInt? {x : Double} {i : ℤ} (h : x.toInt? = some i) : x.isFinite = true := by
  by_contra hx
  rw [toInt?_eq_none (by simpa using hx)] at h
  cases h

end Double

/-! ### Residues of integers -/

namespace Value

theorem signedResidue_zero (negative : Bool) : signedResidue negative 0 = 0 := by
  cases negative <;> rfl

/-- Residues depend on the class of the absolute value only. -/
theorem signedResidue_congr (negative : Bool) {m n : ℕ} (h : m ≡ n [MOD keyModulus]) :
    signedResidue negative m = signedResidue negative n := by
  have heq : m % keyModulus = n % keyModulus := h
  have cast : (m : ℤ) % keyModulus = (n : ℤ) % keyModulus := by exact_mod_cast heq
  rw [signedResidue, signedResidue, cast]

/-- Powers of two repeat after 61 steps. -/
theorem two_pow_modEq {m n : ℕ} (h : m ≡ n [MOD 61]) : 2 ^ m ≡ 2 ^ n [MOD keyModulus] := by
  have period : 2 ^ 61 ≡ 1 [MOD keyModulus] := by decide
  have reduced (k : ℕ) : 2 ^ k ≡ 2 ^ (k % 61) [MOD keyModulus] := by
    calc 2 ^ k = (2 ^ 61) ^ (k / 61) * 2 ^ (k % 61) := by
          rw [← pow_mul, ← pow_add, Nat.div_add_mod]
      _ ≡ 1 ^ (k / 61) * 2 ^ (k % 61) [MOD keyModulus] := (period.pow _).mul_right _
      _ = 2 ^ (k % 61) := by rw [one_pow, one_mul]
  calc 2 ^ m ≡ 2 ^ (m % 61) [MOD keyModulus] := reduced m
    _ = 2 ^ (n % 61) := by rw [show m % 61 = n % 61 from h]
    _ ≡ 2 ^ n [MOD keyModulus] := (reduced n).symm

/-- The significand and the reduced exponent have the residue of the integer. -/
theorem significand_modEq {x : Double} {i : ℤ} (h : x.toInt? = some i) :
    x.significand * 2 ^ (x.exponent % 61).toNat ≡ i.natAbs [MOD keyModulus] := by
  have habs : (x.significand : ℚ) * 2 ^ x.exponent = i.natAbs := by
    rw [Double.toInt?_eq_some_iff (Double.isFinite_of_toInt? h)] at h
    rw [Double.significand_eq, ← Double.abs_toRat, h, Nat.cast_natAbs, Int.cast_abs]
  by_cases hexp : 0 ≤ x.exponent
  · obtain ⟨n, hn⟩ := Int.eq_ofNat_of_zero_le hexp
    rw [hn, zpow_natCast] at habs
    have hnat : x.significand * 2 ^ n = i.natAbs := by exact_mod_cast habs
    rw [← hnat, hn]
    refine Nat.ModEq.mul_left _ (two_pow_modEq ?_)
    rw [show ((n : ℤ) % 61).toNat = n % 61 by omega]
    exact Nat.mod_modEq n 61
  · -- The reduced exponent differs from the negative one by a multiple of 61.
    obtain ⟨n, hn⟩ := Int.eq_ofNat_of_zero_le (show 0 ≤ -x.exponent by omega)
    rw [show x.exponent = -(n : ℤ) by omega, zpow_neg, zpow_natCast, ← div_eq_mul_inv,
      div_eq_iff (by positivity)] at habs
    have hnat : x.significand = i.natAbs * 2 ^ n := by exact_mod_cast habs
    rw [hnat, mul_assoc, ← pow_add]
    have whole : 2 ^ (n + (x.exponent % 61).toNat) ≡ 2 ^ 0 [MOD keyModulus] := by
      refine two_pow_modEq (Nat.modEq_zero_iff_dvd.mpr ?_)
      omega
    simpa using whole.mul_left i.natAbs

/-- A number that is an integer has the residue of that integer. -/
theorem doubleResidue_eq {x : Double} {i : ℤ} (h : x.toInt? = some i) :
    doubleResidue x = intResidue i := by
  have hfinite := Double.isFinite_of_toInt? h
  have hrat := (Double.toInt?_eq_some_iff hfinite i).mp h
  have hmod := significand_modEq h
  rw [doubleResidue, if_pos hfinite, intResidue, Nat.pow_eq, signedResidue_congr _ hmod]
  by_cases hzero : i = 0
  · rw [hzero, Int.natAbs_zero, signedResidue_zero, signedResidue_zero]
  · have sign : x.isNegative = decide (i < 0) := by
      have size : (0 : ℚ) < Double.magnitude x.ordinal * 2 ^ (-1074 : ℤ) := by
        rw [← Double.abs_toRat, hrat]
        exact abs_pos.mpr (by exact_mod_cast hzero)
      rw [Double.toRat_eq] at hrat
      cases hx : x.isNegative
      · have : (0 : ℚ) < i := by
          rw [← hrat, hx]
          simpa using size
        have : 0 < i := by exact_mod_cast this
        simp only [Bool.false_eq, decide_eq_false_iff_not]
        omega
      · have : (i : ℚ) < 0 := by
          rw [← hrat, hx]
          simpa using size
        have : i < 0 := by exact_mod_cast this
        simpa using this
    rw [sign]

end Value

end LogicalPlan
