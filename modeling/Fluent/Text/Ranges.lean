/-!
# Sets of code points

A property of characters is given by the closed ranges of code points that have it.
-/
namespace Fluent.Text

/-- The code point lies in one of the ranges, whose ends belong to them. -/
def inRanges (ranges : List (Nat × Nat)) (code : Nat) : Bool :=
  ranges.any fun range => range.1 ≤ code && code ≤ range.2

end Fluent.Text
