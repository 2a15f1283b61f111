/-!
# Ranges of characters

A class of characters as a list of ranges of code points, both ends included.
-/

namespace Offside

def inRanges (ranges : List (Nat × Nat)) (c : Char) : Bool :=
  ranges.any fun (lo, hi) => lo ≤ c.toNat && c.toNat ≤ hi

end Offside
