/-!
Membership in a set of characters that is given by ranges of code points.
-/

namespace Colloquy.Text

def inRanges (ranges : List (Nat × Nat)) (c : Char) : Bool :=
  ranges.any fun (low, high) => low ≤ c.toNat && c.toNat ≤ high

end Colloquy.Text
