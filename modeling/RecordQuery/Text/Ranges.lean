set_option autoImplicit false

/-!
# Ranges of characters

A property of characters is given by ranges of their code points.
-/

namespace RecordQuery.Text

/-- Whether a character lies in one of the ranges, ends included. -/
def inRanges (ranges : List (Nat × Nat)) (c : Char) : Bool :=
  ranges.any fun range => range.1 ≤ c.toNat && c.toNat ≤ range.2

end RecordQuery.Text
