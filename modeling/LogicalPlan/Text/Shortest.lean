import LogicalPlan.Value.Double

/-!
# The shortest decimal that reads back

A number is written with the fewest significant digits that read back as the same number; of two
such decimals the nearer one is taken, and a tie goes to the even digit. The layout is positional
for leading exponents from -4 to 15 and scientific beyond.
-/

namespace LogicalPlan

/-- The decimal `digits * 10 ^ exponent`. -/
structure Decimal where
  digits : Nat
  exponent : Int
  deriving DecidableEq, Inhabited

namespace Decimal

/-- Compare `a * 10 ^ i` with `n * 2 ^ j` exactly. -/
def compareScaled (a : Nat) (i : Int) (n : Nat) (j : Int) : Ordering :=
  compare (a * Nat.pow 10 i.toNat * Nat.pow 2 (-j).toNat)
    (n * Nat.pow 2 j.toNat * Nat.pow 10 (-i).toNat)

/-- The decimal lies among the reals that round to the absolute value of the number. The gap below a
power of two is half as wide as the gap above it, and the ends belong to an even significand. -/
def readsBackAs (d : Decimal) (x : Double) : Bool :=
  let m := x.significand
  let narrow := x.fractionField == 0 && decide (1 < x.exponentField)
  let below := if narrow then 4 * m - 1 else 4 * m - 2
  let low := compareScaled d.digits d.exponent below (x.exponent - 2)
  let high := compareScaled d.digits d.exponent (4 * m + 2) (x.exponent - 2)
  let ends := m % 2 == 0
  (low == .gt || (ends && low == .eq)) && (high == .lt || (ends && high == .eq))

/-- The least `k` such that the absolute value of the number is below `10 ^ k`, near the estimate
taken from its binary logarithm. -/
def scale (x : Double) : Int :=
  let estimate := ((x.significand.log2 : Int) + x.exponent) * 30103 / 100000
  let below := fun k => compareScaled 1 k x.significand x.exponent == .gt
  (([-1, 0, 1, 2].map (estimate + ·)).find? below).getD (estimate + 3)

/-- The nearest decimal with the given last exponent that reads back. -/
def onGrid? (x : Double) (exponent : Int) : Option Decimal :=
  let num := x.significand * Nat.pow 2 x.exponent.toNat * Nat.pow 10 (-exponent).toNat
  let den := Nat.pow 2 (-x.exponent).toNat * Nat.pow 10 exponent.toNat
  let below : Decimal := ⟨num / den, exponent⟩
  let above : Decimal := ⟨num / den + 1, exponent⟩
  match below.readsBackAs x, above.readsBackAs x with
  | true, true =>
    match compare (2 * num) ((2 * below.digits + 1) * den) with
    | .lt => some below
    | .gt => some above
    | .eq => some (if below.digits % 2 = 0 then below else above)
  | true, false => some below
  | false, true => some above
  | false, false => none

/-- The decimal without trailing zero digits, dropping at most the given number of them. -/
def strip : Nat → Decimal → Decimal
  | 0, d => d
  | n + 1, d =>
    if d.digits % 10 = 0 ∧ d.digits ≠ 0 then strip n ⟨d.digits / 10, d.exponent + 1⟩ else d

/-- The exact value of the significand as a decimal. -/
def exact (x : Double) : Decimal :=
  ⟨x.significand * Nat.pow 2 x.exponent.toNat * Nat.pow 5 (-x.exponent).toNat,
    -((-x.exponent).toNat : Int)⟩

/-- The shortest decimal that reads back as the absolute value of a nonzero number. -/
def shortest (x : Double) : Decimal :=
  let k := scale x
  let found := (List.range 17).findSome? fun (n : Nat) => onGrid? x (k - n - 1)
  strip 20 (found.getD (exact x))

end Decimal

namespace Double

/-- An exponent with its sign and at least two digits. -/
def exponentText (e : Int) : String :=
  let digits := toString e.natAbs
  (if e < 0 then "-" else "+") ++ (if digits.length < 2 then "0" ++ digits else digits)

/-- The decimal digits with the point after the given number of them. -/
def layout (digits : List Char) (point : Int) : String :=
  let zeros := fun n => List.replicate n '0'
  if -3 ≤ point ∧ point ≤ 16 then
    if point ≤ 0 then
      String.ofList ('0' :: '.' :: zeros (-point).toNat ++ digits)
    else if digits.length ≤ point.toNat then
      String.ofList (digits ++ zeros (point.toNat - digits.length) ++ ['.', '0'])
    else
      String.ofList (digits.take point.toNat ++ '.' :: digits.drop point.toNat)
  else
    let tail := digits.drop 1
    let fraction := if tail.isEmpty then "" else "." ++ String.ofList tail
    String.ofList (digits.take 1) ++ fraction ++ "e" ++ exponentText (point - 1)

/-- The text of a finite number. -/
def toText (x : Double) : String :=
  let sign := if x.isNegative then "-" else ""
  if x.isZero then sign ++ "0.0"
  else
    let d := Decimal.shortest x
    let digits := (toString d.digits).toList
    sign ++ layout digits (d.exponent + digits.length)

end Double

end LogicalPlan
