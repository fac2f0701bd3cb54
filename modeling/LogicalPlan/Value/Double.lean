/-!
# Binary64 numbers as bit patterns

A `Double` is a bit pattern. Its absolute value is `significand * 2 ^ exponent`, and every operation
below is exact arithmetic on these two numbers followed by one rounding to the nearest number, ties
to the even one.

## Implementation notes

Working on bit patterns keeps equality decidable and lets every result be evaluated by the kernel.
-/

namespace LogicalPlan

/-- A binary64 number, given by its bit pattern. -/
structure Double where
  /-- Sign, exponent and fraction, from the highest bit down. -/
  bits : UInt64
  deriving DecidableEq, Inhabited

namespace Double

/-- The sign bit is set. -/
def isNegative (x : Double) : Bool :=
  x.bits.toNat / Nat.pow 2 63 == 1

/-- The exponent field. -/
def exponentField (x : Double) : Nat :=
  x.bits.toNat / Nat.pow 2 52 % Nat.pow 2 11

/-- The fraction field. -/
def fractionField (x : Double) : Nat :=
  x.bits.toNat % Nat.pow 2 52

/-- The integer factor of the absolute value. -/
def significand (x : Double) : Nat :=
  if x.exponentField = 0 then x.fractionField else Nat.pow 2 52 + x.fractionField

/-- The exponent of two of the absolute value. -/
def exponent (x : Double) : Int :=
  if x.exponentField = 0 then -1074 else (x.exponentField : Int) - 1075

/-- The number is neither infinite nor undefined. -/
def isFinite (x : Double) : Bool :=
  x.exponentField != 2047

/-- The number is `0.0` or `-0.0`. -/
def isZero (x : Double) : Bool :=
  x.significand == 0

/-- The significand with its sign. -/
def signedSignificand (x : Double) : Int :=
  if x.isNegative then -(x.significand : Int) else x.significand

/-- The integer that the number equals, if it is one. -/
def toInt? (x : Double) : Option Int :=
  if !x.isFinite then
    none
  else if 0 ≤ x.exponent then
    some (x.signedSignificand * Int.pow 2 x.exponent.toNat)
  else if x.significand % Nat.pow 2 (-x.exponent).toNat = 0 then
    some (x.signedSignificand / Int.pow 2 (-x.exponent).toNat)
  else
    none

/-- The quotient rounded to the nearest integer, ties to the even one. -/
def roundQuotient (num den : Nat) : Nat :=
  let q := num / den
  let twice := 2 * (num % den)
  if den < twice ∨ (twice = den ∧ q % 2 = 1) then q + 1 else q

/-- A positive quotient as `m * 2 ^ q`, rounded to at most `precision` bits and to no exponent below
`least`. -/
def roundBinary (precision : Nat) (least : Int) (num den : Nat) : Nat × Int :=
  let guess : Int := (num.log2 : Int) - den.log2
  let top : Int :=
    if den * Nat.pow 2 guess.toNat ≤ num * Nat.pow 2 (-guess).toNat then guess else guess - 1
  let q : Int := max (top - precision + 1) least
  (roundQuotient (num * Nat.pow 2 (-q).toNat) (den * Nat.pow 2 q.toNat), q)

/-- The number `± m * 2 ^ q` for `m ≤ 2 ^ 53` and `-1074 ≤ q`; what is too large becomes infinite.
-/
def ofBinary (negative : Bool) (m : Nat) (q : Int) : Double :=
  let sign := if negative then Nat.pow 2 63 else 0
  if m = 0 then
    ⟨UInt64.ofNat sign⟩
  else
    let shift : Int := min (52 - (m.log2 : Int)) (q + 1074)
    let m' := m * Nat.pow 2 shift.toNat / Nat.pow 2 (-shift).toNat
    let field := q - shift + 1075
    if m' < Nat.pow 2 52 then ⟨UInt64.ofNat (sign + m')⟩
    else if 2047 ≤ field then ⟨UInt64.ofNat (sign + 2047 * Nat.pow 2 52)⟩
    else ⟨UInt64.ofNat (sign + field.toNat * Nat.pow 2 52 + (m' - Nat.pow 2 52))⟩

/-- The number nearest to a quotient of naturals with the given sign. -/
def ofQuotient (negative : Bool) (num den : Nat) : Double :=
  if num = 0 then ofBinary negative 0 0
  else
    let (m, q) := roundBinary 53 (-1074) num den
    ofBinary negative m q

/-- The number nearest to `± digits * 10 ^ exponent`. Exponents outside the range of the format are
decided without computing the power. -/
def ofDecimal (negative : Bool) (digits : Nat) (exponent : Int) : Double :=
  let size : Int := digits.log2
  if digits = 0 ∨ exponent * 3 + size < -1200 then ofBinary negative 0 0
  else if 1200 < exponent * 3 then ofBinary negative 1 1024
  else ofQuotient negative (digits * Nat.pow 10 exponent.toNat) (Nat.pow 10 (-exponent).toNat)

/-- The number nearest to an integer. -/
def ofInt (i : Int) : Double :=
  ofQuotient (i < 0) i.natAbs 1

/-- The number nearest to an integer, unless the integer is too large. -/
def ofInt? (i : Int) : Option Double :=
  if (ofInt i).exponentField = 2047 then none else some (ofInt i)

/-- The number nearest to the sum. The sum of two negative zeros is negative zero. -/
def add (x y : Double) : Double :=
  let e := min x.exponent y.exponent
  let sum := x.signedSignificand * Int.pow 2 (x.exponent - e).toNat
    + y.signedSignificand * Int.pow 2 (y.exponent - e).toNat
  if sum = 0 then ofBinary (x.isNegative && y.isNegative) 0 0
  else ofQuotient (sum < 0) (sum.natAbs * Nat.pow 2 e.toNat) (Nat.pow 2 (-e).toNat)

/-- The nearest number that has only 24 significant bits and no exponent below -149. -/
def toSingle (x : Double) : Double :=
  if x.isZero then x
  else
    let (m, q) := roundBinary 24 (-149) (x.significand * Nat.pow 2 x.exponent.toNat)
      (Nat.pow 2 (-x.exponent).toNat)
    ofBinary x.isNegative m q

/-- The number is greater than zero. -/
def isPositive (x : Double) : Bool :=
  !x.isZero && !x.isNegative

end Double

end LogicalPlan
