/-
This file tells whether a character lies in one of several ranges of code points.
-/

namespace SmallScheme.Text

/-- The ranges are given by first and last code point. -/
def inRanges (ranges : List (Nat × Nat)) (c : Char) : Bool :=
  ranges.any fun range => range.1 ≤ c.toNat && c.toNat ≤ range.2

end SmallScheme.Text
