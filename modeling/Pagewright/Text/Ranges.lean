/-
Sets of characters given by ascending ranges of code points.

* `Ranges.contains` — membership, by a search that stops at the first range above the code point.
-/
namespace Pagewright.Text

/-- Ranges of code points in ascending order, both ends included. -/
abbrev Ranges := List (Nat × Nat)

/-- Whether a code point lies in one of the ranges. -/
def Ranges.contains : Ranges → Nat → Bool
  | [], _ => false
  | (low, high) :: rest, n =>
    if n < low then false else if n ≤ high then true else Ranges.contains rest n

end Pagewright.Text
