import Mathlib.Algebra.Order.Field.Power
import Mathlib.Data.Rat.Cast.Order
import Mathlib.Tactic.Linarith
import Mathlib.Tactic.NormNum
import Mathlib.Tactic.Positivity
import Mathlib.Tactic.Ring
import LogicalPlan.Value.Double

/-!
# Binary64 numbers as rational numbers

The absolute values of binary64 numbers are multiples of a smallest unit. In the order of their bit
patterns they grow strictly, and the reals that round to a number lie between the midpoints to its
neighbours. No real rounds to two of them.
-/

namespace LogicalPlan

namespace Double

/-- The rational number that a finite number is. -/
def toRat (x : Double) : ℚ :=
  x.signedSignificand * 2 ^ x.exponent

/-- The bit pattern without the sign. -/
def ordinal (x : Double) : ℕ :=
  x.bits.toNat % 2 ^ 63

theorem ordinal_eq (x : Double) : x.ordinal = x.exponentField * 2 ^ 52 + x.fractionField := by
  simp only [ordinal, exponentField, fractionField, Nat.pow_eq]
  omega

theorem exponentField_eq (x : Double) : x.exponentField = x.ordinal / 2 ^ 52 := by
  simp only [ordinal, exponentField, Nat.pow_eq]
  omega

theorem fractionField_eq (x : Double) : x.fractionField = x.ordinal % 2 ^ 52 := by
  simp only [ordinal, fractionField, Nat.pow_eq]
  omega

/-- Sign and absolute value determine the bit pattern. -/
theorem eq_of_ordinal_eq {x y : Double} (hsign : x.isNegative = y.isNegative)
    (h : x.ordinal = y.ordinal) : x = y := by
  have hx := x.bits.toNat_lt
  have hy := y.bits.toNat_lt
  rw [isNegative, isNegative, Bool.eq_iff_iff, beq_iff_eq, beq_iff_eq, Nat.pow_eq] at hsign
  simp only [ordinal] at h
  have bits : x.bits.toNat = y.bits.toNat := by omega
  cases x
  cases y
  exact congrArg mk (UInt64.toNat_inj.mp bits)

/-- The absolute value that belongs to a bit pattern, in units of `2 ^ -1074`. -/
def magnitude (n : ℕ) : ℕ :=
  (if n / 2 ^ 52 = 0 then n % 2 ^ 52 else 2 ^ 52 + n % 2 ^ 52) * 2 ^ (n / 2 ^ 52 - 1)

/-- The distance to the next larger absolute value. -/
def gap (n : ℕ) : ℕ :=
  2 ^ (n / 2 ^ 52 - 1)

theorem magnitude_succ (n : ℕ) : magnitude (n + 1) = magnitude n + gap n := by
  unfold magnitude gap
  obtain hinner | ⟨hq, hr⟩ : (n + 1) / 2 ^ 52 = n / 2 ^ 52 ∧ (n + 1) % 2 ^ 52 = n % 2 ^ 52 + 1 ∨
      (n + 1) / 2 ^ 52 = n / 2 ^ 52 + 1 ∧ (n + 1) % 2 ^ 52 = 0 := by omega
  · rw [hinner.1, hinner.2]
    split <;> ring
  · -- The next number starts a binade: its fraction is zero.
    have last : n % 2 ^ 52 = 2 ^ 52 - 1 := by omega
    rw [hq, hr, last, if_neg (by omega)]
    cases hk : n / 2 ^ 52 with
    | zero => norm_num
    | succ k =>
        simp only [Nat.add_eq_zero_iff, one_ne_zero, and_false, if_false, Nat.add_sub_cancel,
          pow_succ]
        omega

theorem magnitude_strictMono : StrictMono magnitude := by
  refine strictMono_nat_of_lt_succ ?_
  intro n
  rw [magnitude_succ]
  have : 0 < gap n := by unfold gap; positivity
  omega

/-- One step of the exponent is the distance to the next number. -/
theorem two_zpow_exponent (x : Double) :
    (2 : ℚ) ^ x.exponent = gap x.ordinal * 2 ^ (-1074 : ℤ) := by
  unfold exponent gap
  rw [← x.exponentField_eq]
  split
  case isTrue h => rw [h, Nat.zero_sub, pow_zero, Nat.cast_one, one_mul]
  case isFalse h =>
    have exponents : (x.exponentField : ℤ) - 1075 = ((x.exponentField - 1 : ℕ) : ℤ) + -1074 := by
      omega
    rw [exponents, zpow_add₀ (by norm_num), zpow_natCast, Nat.cast_pow, Nat.cast_ofNat]

theorem magnitude_eq (x : Double) : magnitude x.ordinal = x.significand * gap x.ordinal := by
  unfold significand magnitude gap
  rw [← x.exponentField_eq, ← x.fractionField_eq]
  rfl

theorem significand_eq (x : Double) :
    (x.significand : ℚ) * 2 ^ x.exponent = magnitude x.ordinal * 2 ^ (-1074 : ℤ) := by
  rw [two_zpow_exponent, magnitude_eq, Nat.cast_mul, mul_assoc]

theorem significand_mod_two (x : Double) : x.significand % 2 = x.ordinal % 2 := by
  rw [x.ordinal_eq]
  simp only [significand, Nat.pow_eq]
  split <;> omega

theorem isZero_iff (x : Double) : x.isZero = true ↔ x.ordinal = 0 := by
  rw [x.ordinal_eq]
  simp only [isZero, significand, Nat.pow_eq, beq_iff_eq]
  split <;> omega

/-- The distance to the next smaller absolute value is half as large below a power of two. -/
theorem gap_pred {x : Double} (hx : x.isZero = false) :
    gap x.ordinal =
      if x.fractionField = 0 ∧ 1 < x.exponentField then 2 * gap (x.ordinal - 1)
      else gap (x.ordinal - 1) := by
  have nonzero : x.exponentField = 0 → x.fractionField ≠ 0 := by
    intro hfield hfraction
    simp [isZero, significand, hfield, hfraction] at hx
  have bound : x.fractionField < 2 ^ 52 := by
    rw [x.fractionField_eq]
    exact Nat.mod_lt _ (by norm_num)
  have split := x.ordinal_eq
  have field := x.exponentField_eq
  unfold gap
  rw [← field]
  split
  case isTrue hpower =>
    have below : (x.ordinal - 1) / 2 ^ 52 = x.exponentField - 1 := by omega
    rw [below, ← pow_succ']
    congr 1
    omega
  case isFalse hother =>
    congr 1
    omega

/-- The real number rounds to the absolute value with the bit pattern, in units of `2 ^ -1074`: it
lies between the midpoints to the neighbours, and is a midpoint only if the pattern is even. -/
def RoundsTo (v : ℚ) (n : ℕ) : Prop :=
  (magnitude (n - 1) + magnitude n : ℚ) ≤ 2 * v ∧ 2 * v ≤ magnitude n + magnitude (n + 1) ∧
    (n % 2 = 1 → (magnitude (n - 1) + magnitude n : ℚ) < 2 * v ∧
      2 * v < magnitude n + magnitude (n + 1))

theorem le_of_roundsTo {v : ℚ} {m n : ℕ} (hm : RoundsTo v m) (hn : RoundsTo v n) : n ≤ m := by
  by_contra hlt
  have below : m ≤ n - 1 := by omega
  have low : (magnitude m : ℚ) ≤ magnitude (n - 1) := by
    exact_mod_cast magnitude_strictMono.monotone below
  have high : (magnitude (m + 1) : ℚ) ≤ magnitude n := by
    exact_mod_cast magnitude_strictMono.monotone (by omega : m + 1 ≤ n)
  have hv := hm.2.1
  have hw := hn.1
  -- Both bounds are the midpoint of two neighbours, one of which is odd.
  have tight : (magnitude (m + 1) : ℚ) = magnitude n := by linarith
  have next : m + 1 = n := magnitude_strictMono.injective (by exact_mod_cast tight)
  rcases Nat.mod_two_eq_zero_or_one m with hparity | hparity
  · have := (hn.2.2 (by omega)).1
    linarith
  · have := (hm.2.2 hparity).2
    linarith

/-- No real number rounds to two absolute values. -/
theorem eq_of_roundsTo {v : ℚ} {m n : ℕ} (hm : RoundsTo v m) (hn : RoundsTo v n) : m = n :=
  le_antisymm (le_of_roundsTo hn hm) (le_of_roundsTo hm hn)

theorem roundsTo_magnitude (n : ℕ) : RoundsTo (magnitude n) n := by
  have high : (magnitude n : ℚ) < magnitude (n + 1) := by
    exact_mod_cast magnitude_strictMono (Nat.lt_succ_self n)
  cases n with
  | zero => simp [RoundsTo, magnitude]
  | succ n =>
      have low : (magnitude n : ℚ) < magnitude (n + 1) := by
        exact_mod_cast magnitude_strictMono (Nat.lt_succ_self n)
      unfold RoundsTo
      rw [Nat.add_sub_cancel]
      refine ⟨?_, ?_, fun _ => ⟨?_, ?_⟩⟩ <;> linarith

end Double

end LogicalPlan
