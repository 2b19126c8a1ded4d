/-!
# Character classes given by ranges

Two classes of Unicode 14 are too irregular for a rule: they are listed as ranges of code points,
ends included, in ascending order. Both lists start above ASCII; the ASCII part of each class is a
rule and is decided first.
-/

set_option autoImplicit false

namespace DiffGate.Text

/-- Whether a code point lies in one of the ranges. -/
def inRanges (ranges : List (Nat × Nat)) (n : Nat) : Bool :=
  ranges.any fun (low, high) => low ≤ n && n ≤ high

end DiffGate.Text
