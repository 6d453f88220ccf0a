/-!
# Sets of code points

A set of characters is a list of closed ranges of code points in ascending order.
-/
namespace TokenGraph

/-- Whether a code point lies in one of the ascending closed ranges. -/
def inRanges : List (Nat × Nat) → Nat → Bool
  | [], _ => false
  | (lo, hi) :: rest, n => if n < lo then false else n ≤ hi || inRanges rest n

end TokenGraph
