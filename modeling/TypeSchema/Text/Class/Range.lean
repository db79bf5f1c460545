/-!
# Ranges of code points

A class of characters is given by the list of its ranges, in increasing order.
-/

namespace TypeSchema.Text

/-- The first and the last code point of a run of characters. -/
abbrev CodeRange := Nat × Nat

/-- Whether a character lies in one of the ranges. -/
def inRanges (ranges : List CodeRange) (c : Char) : Bool :=
  ranges.any fun range => decide (range.1 ≤ c.toNat) && decide (c.toNat ≤ range.2)

end TypeSchema.Text
