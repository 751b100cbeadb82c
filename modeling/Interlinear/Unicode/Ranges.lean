/-!
# Character properties as ranges of code points

A property of characters is given by the code points that have it, as ascending closed ranges that
do not touch.  Membership scans the ranges; a caller that sees mostly ASCII text tests that part
first.
-/

namespace Interlinear.Unicode

/-- Ascending closed ranges of code points. -/
abbrev Ranges := List (Nat × Nat)

def Ranges.contains (ranges : Ranges) (code : Nat) : Bool :=
  ranges.any fun range => range.1 ≤ code && code ≤ range.2

end Interlinear.Unicode
