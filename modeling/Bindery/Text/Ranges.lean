/-!
# Ranges of code points

A class of characters as a table: the first and the last code point of each range, ascending and
apart.
-/

namespace Bindery.Text

/-- The code point lies in one of the ranges, both ends included. -/
def inRanges (ranges : List (Nat × Nat)) (n : Nat) : Bool :=
  ranges.any fun (lo, hi) => lo ≤ n && n ≤ hi

end Bindery.Text
