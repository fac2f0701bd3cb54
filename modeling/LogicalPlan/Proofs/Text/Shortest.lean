import Mathlib.Data.List.TakeWhile
import Mathlib.Tactic.FieldSimp
import LogicalPlan.Proofs.Value.Double
import LogicalPlan.Text.Shortest

/-!
# Texts of numbers tell numbers apart

The decimal that is chosen for a number rounds to that number, however short it is, and the text of
the number denotes the decimal. Numbers with the same text are therefore the same.
-/

namespace LogicalPlan

namespace Decimal

/-- The rational number that a decimal is. -/
def value (d : Decimal) : ℚ :=
  d.digits * 10 ^ d.exponent

/-! ### The chosen decimal rounds to the number -/

theorem zpow_mul_pow_neg {b : ℚ} (hb : b ≠ 0) (i : ℤ) : b ^ i * b ^ (-i).toNat = b ^ i.toNat := by
  rw [← zpow_natCast, ← zpow_natCast, ← zpow_add₀ hb]
  congr 1
  omega

/-- Comparing with integer arithmetic is comparing the numbers. -/
theorem compareScaled_eq (a : ℕ) (i : ℤ) (n : ℕ) (j : ℤ) :
    compareScaled a i n j = compare ((a : ℚ) * 10 ^ i) (n * 2 ^ j) := by
  have scale : (0 : ℚ) < 10 ^ (-i).toNat * 2 ^ (-j).toNat := by positivity
  have left : ((a * 10 ^ i.toNat * 2 ^ (-j).toNat : ℕ) : ℚ) =
      a * 10 ^ i * (10 ^ (-i).toNat * 2 ^ (-j).toNat) := by
    push_cast
    rw [← zpow_mul_pow_neg (by norm_num : (10 : ℚ) ≠ 0) i]
    ring
  have right : ((n * 2 ^ j.toNat * 10 ^ (-i).toNat : ℕ) : ℚ) =
      n * 2 ^ j * (10 ^ (-i).toNat * 2 ^ (-j).toNat) := by
    push_cast
    rw [← zpow_mul_pow_neg (by norm_num : (2 : ℚ) ≠ 0) j]
    ring
  unfold compareScaled
  simp only [Nat.pow_eq]
  rw [← cmp_eq_compare, ← cmp_eq_compare, ← cmp_mul_pos_right scale, ← left, ← right,
    Nat.strictMono_cast.cmp_map_eq]

/-- The lower end of the rounding interval is the midpoint to the next smaller absolute value. -/
theorem lower_end {x : Double} (hx : x.isZero = false) (u : ℚ) :
    ((if x.fractionField == 0 && decide (1 < x.exponentField) then 4 * x.significand - 1
      else 4 * x.significand - 2 : ℕ) : ℚ) * (Double.gap x.ordinal * u / 4) =
      (Double.magnitude (x.ordinal - 1) + Double.magnitude x.ordinal) / 2 * u := by
  have pos : 1 ≤ x.significand := by
    simpa [Double.isZero, Nat.one_le_iff_ne_zero] using hx
  have nonzero : x.ordinal ≠ 0 := by
    rw [Ne, ← x.isZero_iff, hx]
    simp
  have below : (Double.magnitude x.ordinal : ℚ) =
      Double.magnitude (x.ordinal - 1) + Double.gap (x.ordinal - 1) := by
    rw [← Nat.cast_add, ← Double.magnitude_succ, Nat.sub_add_cancel (by omega)]
  have product : (Double.magnitude x.ordinal : ℚ) = x.significand * Double.gap x.ordinal := by
    rw [x.magnitude_eq, Nat.cast_mul]
  have step := Double.gap_pred hx
  rw [show (Double.magnitude (x.ordinal - 1) : ℚ) =
    x.significand * Double.gap x.ordinal - Double.gap (x.ordinal - 1) by linarith, product, step]
  by_cases hpower : x.fractionField = 0 ∧ 1 < x.exponentField
  · rw [if_pos hpower, if_pos (by simpa using hpower), Nat.cast_sub (by omega)]
    push_cast
    ring
  · rw [if_neg hpower, if_neg (by simpa using hpower), Nat.cast_sub (by omega)]
    push_cast
    ring

/-- The upper end of the rounding interval is the midpoint to the next larger absolute value. -/
theorem upper_end (x : Double) (u : ℚ) :
    ((4 * x.significand + 2 : ℕ) : ℚ) * (Double.gap x.ordinal * u / 4) =
      (Double.magnitude x.ordinal + Double.magnitude (x.ordinal + 1)) / 2 * u := by
  rw [Double.magnitude_succ, x.magnitude_eq]
  push_cast
  ring

/-- A decimal that reads back as a number rounds to it. -/
theorem roundsTo_of_readsBackAs {d : Decimal} {x : Double} (hx : x.isZero = false)
    (h : d.readsBackAs x = true) :
    Double.RoundsTo (d.value / 2 ^ (-1074 : ℤ)) x.ordinal := by
  have unit : (0 : ℚ) < 2 ^ (-1074 : ℤ) := by positivity
  have quarter : (2 : ℚ) ^ (x.exponent - 2) = Double.gap x.ordinal * 2 ^ (-1074 : ℤ) / 4 := by
    rw [zpow_sub₀ (by norm_num), x.two_zpow_exponent]
    norm_num
  unfold readsBackAs at h
  simp only [compareScaled_eq, quarter, lower_end hx, upper_end, x.significand_mod_two] at h
  generalize (2 : ℚ) ^ (-1074 : ℤ) = u at h unit ⊢
  obtain ⟨v, hv⟩ : ∃ v, v * u = d.value := ⟨d.value / u, div_mul_cancel₀ _ unit.ne'⟩
  rw [show (d.digits : ℚ) * 10 ^ d.exponent = v * u from hv.symm] at h
  rw [← hv, mul_div_cancel_right₀ _ unit.ne']
  simp only [Bool.and_eq_true, Bool.or_eq_true, beq_iff_eq, compare_gt_iff_gt, compare_lt_iff_lt,
    compare_eq_iff_eq, mul_lt_mul_iff_left₀ unit, mul_eq_mul_right_iff, unit.ne', or_false] at h
  obtain ⟨hlow, hhigh⟩ := h
  refine ⟨?_, ?_, ?_⟩
  · rcases hlow with hlow | ⟨-, hlow⟩ <;> linarith
  · rcases hhigh with hhigh | ⟨-, hhigh⟩ <;> linarith
  · intro hodd
    constructor
    · rcases hlow with hlow | ⟨heven, -⟩
      · linarith
      · omega
    · rcases hhigh with hhigh | ⟨heven, -⟩
      · linarith
      · omega

theorem readsBackAs_of_onGrid? {x : Double} {e : ℤ} {d : Decimal} (h : onGrid? x e = some d) :
    d.readsBackAs x = true := by
  unfold onGrid? at h
  dsimp only at h
  split at h
  case h_1 hbelow habove =>
    split at h
    · cases h
      exact hbelow
    · cases h
      exact habove
    · cases h
      split
      · exact hbelow
      · exact habove
  case h_2 hbelow _ =>
    cases h
    exact hbelow
  case h_3 _ habove =>
    cases h
    exact habove
  case h_4 => cases h

theorem value_strip (n : ℕ) (d : Decimal) : (strip n d).value = d.value := by
  induction n generalizing d with
  | zero => rfl
  | succ n ih =>
      unfold strip
      split
      case isTrue h =>
        have digits : d.digits = d.digits / 10 * 10 := by omega
        rw [ih, value, value, digits, Nat.mul_div_cancel _ (by norm_num),
          zpow_add_one₀ (by norm_num)]
        push_cast
        ring
      case isFalse => rfl

theorem value_exact (x : Double) : (exact x).value = x.significand * 2 ^ x.exponent := by
  have tens : (5 : ℚ) ^ (-x.exponent).toNat * 10 ^ (-((-x.exponent).toNat : ℤ)) =
      (2 ^ (-x.exponent).toNat)⁻¹ := by
    rw [zpow_neg, zpow_natCast, show (10 : ℚ) = 5 * 2 by norm_num, mul_pow]
    field_simp
  have twos : (2 : ℚ) ^ x.exponent = 2 ^ x.exponent.toNat * (2 ^ (-x.exponent).toNat)⁻¹ := by
    rw [← zpow_mul_pow_neg (by norm_num) x.exponent]
    field_simp
  unfold value exact
  simp only [Nat.pow_eq]
  push_cast
  rw [twos, ← tens]
  ring

/-- The decimal that is chosen for a number rounds to it. -/
theorem roundsTo_shortest {x : Double} (hx : x.isZero = false) :
    Double.RoundsTo ((shortest x).value / 2 ^ (-1074 : ℤ)) x.ordinal := by
  unfold shortest
  dsimp only
  rw [value_strip]
  cases hfound : (List.range 17).findSome? fun (n : ℕ) => onGrid? x (scale x - n - 1) with
  | some d =>
      obtain ⟨n, -, hd⟩ := List.exists_of_findSome?_eq_some hfound
      exact roundsTo_of_readsBackAs hx (readsBackAs_of_onGrid? hd)
  | none =>
      have unit : (2 : ℚ) ^ (-1074 : ℤ) ≠ 0 := by positivity
      rw [Option.getD_none, value_exact, x.significand_eq, mul_div_cancel_right₀ _ unit]
      exact Double.roundsTo_magnitude x.ordinal

end Decimal

/-! ### The text denotes the decimal -/

namespace Decimal

/-- The number that the part behind the exponent mark denotes; a missing part is zero. -/
def exponentOf : List Char → ℤ
  | '-' :: digits => -Nat.ofDigitChars 10 digits 0
  | '+' :: digits => Nat.ofDigitChars 10 digits 0
  | _ => 0

/-- The decimal that digits with a point and an exponent denote. -/
def ofChars (cs : List Char) : Decimal :=
  let mantissa := cs.takeWhile (· != 'e')
  let whole := mantissa.takeWhile (· != '.')
  let fraction := (mantissa.dropWhile (· != '.')).drop 1
  ⟨Nat.ofDigitChars 10 (whole ++ fraction) 0,
    exponentOf ((cs.dropWhile (· != 'e')).drop 1) - fraction.length⟩

/-- The digits of a fraction behind the point, which is left out if there are none. -/
def pointed (fraction : List Char) : List Char :=
  if fraction.isEmpty then [] else '.' :: fraction

/-- All characters are decimal digits. -/
def AreDigits (cs : List Char) : Prop :=
  ∀ c ∈ cs, c.isDigit = true

/-- No digit is any other character. -/
theorem AreDigits.ne {cs : List Char} (h : AreDigits cs) {d : Char} (hd : d.isDigit = false) :
    ∀ c ∈ cs, (c != d) = true := by
  intro c hc
  rw [bne_iff_ne]
  rintro rfl
  rw [h c hc] at hd
  cases hd

theorem AreDigits.append {cs ds : List Char} (h : AreDigits cs) (h' : AreDigits ds) :
    AreDigits (cs ++ ds) :=
  List.forall_mem_append.mpr ⟨h, h'⟩

theorem AreDigits.take {cs : List Char} (h : AreDigits cs) (n : ℕ) : AreDigits (cs.take n) :=
  fun c hc => h c (List.mem_of_mem_take hc)

theorem AreDigits.drop {cs : List Char} (h : AreDigits cs) (n : ℕ) : AreDigits (cs.drop n) :=
  fun c hc => h c (List.mem_of_mem_drop hc)

/-- The character can occur in the text of a number. -/
def isNumberChar (c : Char) : Bool :=
  c.isDigit || c == '-' || c == '+' || c == '.' || c == 'e'

theorem AreDigits.areNumberChars {cs : List Char} (h : AreDigits cs) :
    ∀ c ∈ cs, isNumberChar c = true := by
  intro c hc
  simp [isNumberChar, h c hc]

/-- The point is found in front of the first character that is no digit. -/
theorem ofChars_of_mantissa {cs whole : List Char} (fraction exponent : List Char)
    (hw : AreDigits whole)
    (hmantissa : cs.takeWhile (· != 'e') = whole ++ pointed fraction)
    (hexponent : (cs.dropWhile (· != 'e')).drop 1 = exponent) :
    ofChars cs =
      ⟨Nat.ofDigitChars 10 (whole ++ fraction) 0, exponentOf exponent - fraction.length⟩ := by
  have free := hw.ne (d := '.') rfl
  unfold ofChars
  dsimp only
  rw [hmantissa, hexponent, List.takeWhile_append_of_pos free, List.dropWhile_append_of_pos free]
  cases fraction with
  | nil => simp [pointed]
  | cons c cs => simp [pointed]

/-- A text without exponent. -/
theorem ofChars_positional {whole fraction : List Char} (hw : AreDigits whole)
    (hf : AreDigits fraction) (hne : fraction ≠ []) :
    ofChars (whole ++ '.' :: fraction) =
      ⟨Nat.ofDigitChars 10 (whole ++ fraction) 0, -(fraction.length : ℤ)⟩ := by
  have free : ∀ c ∈ whole ++ '.' :: fraction, (c != 'e') = true := by
    intro c hc
    rcases List.mem_append.mp hc with hc | hc
    · exact hw.ne rfl c hc
    · rcases List.mem_cons.mp hc with rfl | hc
      · rfl
      · exact hf.ne rfl c hc
  rw [ofChars_of_mantissa fraction [] hw, show exponentOf [] = 0 from rfl, Int.zero_sub]
  · rw [List.takeWhile_eq_self_iff.mpr free, pointed, if_neg (by simpa using hne)]
  · rw [List.dropWhile_eq_nil_iff.mpr free, List.drop_nil]

/-- A text with an exponent. -/
theorem ofChars_scientific {whole fraction exponent : List Char} (hw : AreDigits whole)
    (hf : AreDigits fraction) :
    ofChars (whole ++ pointed fraction ++ 'e' :: exponent) =
      ⟨Nat.ofDigitChars 10 (whole ++ fraction) 0, exponentOf exponent - fraction.length⟩ := by
  have free : ∀ c ∈ whole ++ pointed fraction, (c != 'e') = true := by
    intro c hc
    rcases List.mem_append.mp hc with hc | hc
    · exact hw.ne rfl c hc
    · unfold pointed at hc
      split at hc
      · cases hc
      · rcases List.mem_cons.mp hc with rfl | hc
        · rfl
        · exact hf.ne rfl c hc
  apply ofChars_of_mantissa _ _ hw
  · rw [List.takeWhile_append_of_pos free]
    simp
  · rw [List.dropWhile_append_of_pos free]
    simp

end Decimal

namespace Double

theorem toList_toString (n : ℕ) : (toString n).toList = Nat.toDigits 10 n := by
  simp

theorem toList_toString_ne_nil (n : ℕ) : (toString n).toList ≠ [] := by
  rw [toList_toString]
  exact Nat.toDigits_ne_nil

theorem areDigits_toString (n : ℕ) : Decimal.AreDigits (toString n).toList := by
  intro c hc
  rw [toList_toString] at hc
  exact Nat.isDigit_of_mem_toDigits (by norm_num) (by norm_num) hc

theorem isNumberChar_exponentText (e : ℤ) :
    ∀ c ∈ (exponentText e).toList, Decimal.isNumberChar c = true := by
  have padded : Decimal.AreDigits (if (toString e.natAbs).length < 2 then "0" ++ toString e.natAbs
      else toString e.natAbs).toList := by
    split
    · rw [String.toList_append]
      exact Decimal.AreDigits.append (areDigits_toString 0) (areDigits_toString _)
    · exact areDigits_toString _
  unfold exponentText
  dsimp only
  rw [String.toList_append]
  refine List.forall_mem_append.mpr ⟨?_, padded.areNumberChars⟩
  split <;> simp [Decimal.isNumberChar]

theorem exponentOf_exponentText (e : ℤ) : Decimal.exponentOf (exponentText e).toList = e := by
  have padded (n : ℕ) : Nat.ofDigitChars 10
      (if (toString n).length < 2 then "0" ++ toString n else toString n).toList 0 = n := by
    split <;> simp [Nat.ofDigitChars_cons]
  unfold exponentText
  dsimp only
  rw [String.toList_append]
  split
  case isTrue h =>
    rw [show "-".toList = ['-'] from rfl, List.singleton_append, Decimal.exponentOf, padded]
    omega
  case isFalse h =>
    rw [show "+".toList = ['+'] from rfl, List.singleton_append, Decimal.exponentOf, padded]
    omega

/-- The four layouts: a number below one, a whole number, a number with a fraction in positional
form, and the scientific form. -/
theorem toList_layout (digits : List Char) (point : ℤ) :
    (layout digits point).toList =
      if -3 ≤ point ∧ point ≤ 16 then
        if point ≤ 0 then ['0'] ++ '.' :: (List.replicate (-point).toNat '0' ++ digits)
        else if digits.length ≤ point.toNat then
          (digits ++ List.replicate (point.toNat - digits.length) '0') ++ '.' :: ['0']
        else digits.take point.toNat ++ '.' :: digits.drop point.toNat
      else
        digits.take 1 ++ Decimal.pointed (digits.drop 1) ++
          'e' :: (exponentText (point - 1)).toList := by
  unfold layout
  unfold Decimal.pointed
  dsimp only
  split_ifs <;> simp [String.toList_append]

section Layout

variable {digits : List Char} (hd : Decimal.AreDigits digits) (hne : digits ≠ []) (point : ℤ)

theorem areDigits_zeros (n : ℕ) : Decimal.AreDigits (List.replicate n '0') := by
  intro c hc
  rw [List.eq_of_mem_replicate hc]
  rfl

include hd hne in
/-- The digits and the point of a laid out text denote the number that was laid out. -/
theorem value_layout :
    (Decimal.ofChars (layout digits point).toList).value =
      Nat.ofDigitChars 10 digits 0 * 10 ^ (point - digits.length) := by
  have zero : Decimal.AreDigits ['0'] := areDigits_zeros 1
  rw [toList_layout]
  split_ifs with hpositional hsmall hwhole
  · rw [Decimal.ofChars_positional zero ((areDigits_zeros _).append hd)
      (by simp [hne])]
    simp only [Decimal.value, Nat.ofDigitChars_append, Nat.ofDigitChars_replicate_zero,
      List.length_append, List.length_replicate]
    rw [show Nat.ofDigitChars 10 ['0'] 0 = 0 from rfl, Nat.mul_zero]
    congr 2
    omega
  · have exponents : point - digits.length = ((point.toNat - digits.length : ℕ) : ℤ) := by omega
    have last (n : ℕ) : Nat.ofDigitChars 10 ['0'] n = 10 * n := by simp [Nat.ofDigitChars_cons]
    rw [Decimal.ofChars_positional (hd.append (areDigits_zeros _)) zero
      (by simp)]
    simp only [Decimal.value, Nat.ofDigitChars_append, Nat.ofDigitChars_replicate_zero]
    rw [last, exponents, zpow_natCast]
    push_cast [List.length_singleton]
    rw [zpow_neg_one]
    ring
  · rw [Decimal.ofChars_positional (hd.take _) (hd.drop _) (by simp; omega), List.take_append_drop,
      Decimal.value, List.length_drop]
    dsimp only
    congr 2
    omega
  · have pos := List.length_pos_of_ne_nil hne
    rw [Decimal.ofChars_scientific (hd.take 1) (hd.drop 1), exponentOf_exponentText,
      List.take_append_drop, Decimal.value, List.length_drop]
    dsimp only
    congr 2
    omega

include hd hne in
/-- A laid out text starts with digits; a point or an exponent mark follows. -/
theorem exists_layout :
    ∃ whole mark rest, (layout digits point).toList = whole ++ mark :: rest ∧
      Decimal.AreDigits whole ∧ whole ≠ [] ∧ (mark = '.' ∨ mark = 'e') ∧
        ∀ c ∈ rest, Decimal.isNumberChar c = true := by
  rw [toList_layout]
  split_ifs with hpositional hsmall hwhole
  · refine ⟨_, _, _, rfl, areDigits_zeros 1, by simp, .inl rfl, ?_⟩
    exact ((areDigits_zeros _).append hd).areNumberChars
  · exact ⟨_, _, _, rfl, hd.append (areDigits_zeros _), by simp [hne], .inl rfl,
      Decimal.AreDigits.areNumberChars (areDigits_zeros 1)⟩
  · refine ⟨_, _, _, rfl, hd.take _, ?_, .inl rfl, (hd.drop _).areNumberChars⟩
    rw [Ne, List.take_eq_nil_iff, not_or]
    exact ⟨by omega, hne⟩
  · have first : digits.take 1 ≠ [] := by simp [hne]
    unfold Decimal.pointed
    split
    case isTrue =>
      rw [List.append_nil]
      exact ⟨_, _, _, rfl, hd.take 1, first, .inr rfl, isNumberChar_exponentText _⟩
    case isFalse =>
      rw [List.append_assoc, List.cons_append]
      refine ⟨_, _, _, rfl, hd.take 1, first, .inl rfl, ?_⟩
      refine List.forall_mem_append.mpr ⟨(hd.drop 1).areNumberChars, ?_⟩
      exact List.forall_mem_cons.mpr ⟨rfl, isNumberChar_exponentText _⟩

end Layout

/-- The characters behind the sign. -/
def unsignedText (x : Double) : String :=
  if x.isZero then "0.0"
  else
    let d := Decimal.shortest x
    let digits := (toString d.digits).toList
    layout digits (d.exponent + digits.length)

theorem toText_eq (x : Double) :
    x.toText = (if x.isNegative then "-" else "") ++ x.unsignedText := by
  unfold toText unsignedText
  by_cases hx : x.isZero = true <;> simp [hx]

/-- The text behind the sign denotes a decimal that rounds to the number. -/
theorem roundsTo_unsignedText (x : Double) :
    RoundsTo ((Decimal.ofChars x.unsignedText.toList).value / 2 ^ (-1074 : ℤ)) x.ordinal := by
  unfold unsignedText
  split
  case isTrue hx =>
    have value : (Decimal.ofChars "0.0".toList).value = magnitude 0 := by
      rw [show Decimal.ofChars "0.0".toList = ⟨0, -1⟩ from rfl, Decimal.value, Nat.cast_zero,
        zero_mul, show magnitude 0 = 0 from rfl, Nat.cast_zero]
    rw [x.isZero_iff.mp hx, value, show magnitude 0 = 0 from rfl, Nat.cast_zero, zero_div]
    exact_mod_cast roundsTo_magnitude 0
  case isFalse hx =>
    dsimp only
    rw [value_layout (areDigits_toString _) (toList_toString_ne_nil _), toList_toString,
      Nat.ofDigitChars_ten_toDigits, add_sub_cancel_right]
    exact Decimal.roundsTo_shortest (by simpa using hx)

/-- The characters behind the sign are digits up to a point or an exponent mark. -/
theorem exists_unsignedText (x : Double) :
    ∃ whole mark rest, x.unsignedText.toList = whole ++ mark :: rest ∧
      Decimal.AreDigits whole ∧ whole ≠ [] ∧ (mark = '.' ∨ mark = 'e') ∧
        ∀ c ∈ rest, Decimal.isNumberChar c = true := by
  unfold unsignedText
  split
  · exact ⟨['0'], '.', ['0'], rfl, areDigits_zeros 1, by simp, .inl rfl,
      (areDigits_zeros 1).areNumberChars⟩
  · exact exists_layout (areDigits_toString _) (toList_toString_ne_nil _) _

theorem head_unsignedText_ne (x : Double) (cs : List Char) : x.unsignedText.toList ≠ '-' :: cs := by
  obtain ⟨whole, mark, rest, h, hw, hne, -⟩ := x.exists_unsignedText
  rw [h]
  obtain ⟨c, whole, rfl⟩ := List.exists_cons_of_ne_nil hne
  intro heq
  cases heq
  cases hw '-' List.mem_cons_self

/-- The texts of different numbers are different. -/
theorem toText_injective {x y : Double} (h : x.toText = y.toText) : x = y := by
  rw [toText_eq, toText_eq, ← String.toList_inj, String.toList_append, String.toList_append] at h
  have minus : "-".toList = ['-'] := rfl
  have text : x.unsignedText.toList = y.unsignedText.toList ∧ x.isNegative = y.isNegative := by
    cases hx : x.isNegative <;> cases hy : y.isNegative <;> simp [hx, hy, minus] at h
    · exact ⟨h, rfl⟩
    · exact absurd h (head_unsignedText_ne _ _)
    · exact absurd h.symm (head_unsignedText_ne _ _)
    · exact ⟨h, rfl⟩
  have rounds := x.roundsTo_unsignedText
  rw [text.1] at rounds
  exact eq_of_ordinal_eq text.2 (eq_of_roundsTo rounds y.roundsTo_unsignedText)

end Double

end LogicalPlan
