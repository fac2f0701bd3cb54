/-!
# Ranges of code points

A class of characters is given by closed ranges of code points, ascending and apart.
-/

namespace LogicalPlan

/-- Closed ranges of code points. -/
abbrev CodePointRanges := List (Nat × Nat)

namespace CodePointRanges

/-- A code point lies in one of ascending ranges. -/
def contains (n : Nat) : CodePointRanges → Bool
  | [] => false
  | (first, last) :: ranges => if n < first then false else n ≤ last || contains n ranges

/-- The number of code points in ranges. -/
def count (ranges : CodePointRanges) : Nat :=
  (ranges.map fun r => r.2 + 1 - r.1).foldl (· + ·) 0

end CodePointRanges

end LogicalPlan
