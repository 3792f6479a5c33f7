/-! # Sets of code points

Properties of characters are tables of code point ranges.  A table is one value of `CodePoints`,
and membership is the only question asked of it.
-/

namespace TaggedOptions.Text

/-- A set of code points, given by ranges with both ends included. -/
structure CodePoints where
  ranges : Array (Nat × Nat)

namespace CodePoints

def contains (s : CodePoints) (c : Char) : Bool :=
  s.ranges.any fun (low, high) => low ≤ c.toNat && c.toNat ≤ high

end CodePoints

end TaggedOptions.Text
