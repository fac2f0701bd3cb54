import LogicalPlan.Fault

/-!
# Values as keys

Keys are looked up by a residue first. Different keys can share a residue: numbers are reduced
modulo the prime `2 ^ 61 - 1`, the residue `-1` is not in use, and times with a known distance from
universal time stand for a duration.

## Implementation notes

Residues are taken of values as they are, since equality of times of day is coarser than equality of
the durations that they stand for.
-/

namespace LogicalPlan

namespace Value

/-- The modulus of the residues of numbers. -/
def keyModulus : Nat :=
  Nat.pow 2 61 - 1

/-- A residue with its sign; `-2` stands for `-1`. -/
def signedResidue (negative : Bool) (n : Nat) : Int :=
  let r : Int := n % keyModulus
  if negative then (if r = 1 then -2 else -r) else r

/-- The residue of an integer. -/
def intResidue (i : Int) : Value :=
  .int (signedResidue (i < 0) i.natAbs)

/-- The residue of a number with a fraction. Powers of two repeat after 61 steps; infinite numbers
have residues of their own. -/
def doubleResidue (x : Double) : Value :=
  if x.isFinite then
    .int (signedResidue x.isNegative (x.significand * Nat.pow 2 (x.exponent % 61).toNat))
  else .int (if x.isNegative then -314159 else 314159)

/-- The residue of a duration in microseconds. -/
def durationResidue (microseconds : Int) : Value :=
  .tuple ((durationParts microseconds).map intResidue)

mutual

/-- What is compared first of a value that is used as a key. -/
def residue : Value → Value
  | .bool b => intResidue b.toInt
  | .int i => intResidue i
  | .float x => doubleResidue x
  | .string s => if s.isEmpty then .int 0 else .string s
  | .bytes octets => if octets.isEmpty then .int 0 else .bytes octets
  | .time t => (t.universalMicroseconds?.map durationResidue).getD (.time t)
  | .instant d t =>
    (t.universalMicroseconds?.map fun n =>
      durationResidue (d.ordinal * TimeOfDay.microsecondsPerDay + n)).getD (.instant d t)
  | .tuple items => .tuple (residues items)
  | .set items => .set (sortItems (residues items))
  | .record _ _ _ key _ => .tuple (residues key)
  | v => v

/-- The residues of the items of a key. -/
def residues : List Value → List Value
  | [] => []
  | v :: vs => residue v :: residues vs

end

/-- Two keys agree in their residues; a value that is not fit to be a key is a fault. -/
def keysAgree (v w : Value) : Outcome Bool :=
  if v.isHashable && w.isHashable then .ok (decide (v.residue = w.residue)) else wrongType

end Value

end LogicalPlan
