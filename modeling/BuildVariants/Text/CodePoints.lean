/-!
Sets of characters given as ranges of code points.
-/

set_option autoImplicit false
set_option relaxedAutoImplicit false

namespace BuildVariants.Text

/-- Ranges of code points, each with both of its ends included. -/
abbrev CodePoints := List (Nat × Nat)

def CodePoints.contains (ranges : CodePoints) (c : Char) : Bool :=
  ranges.any fun range => range.1 ≤ c.toNat && c.toNat ≤ range.2

end BuildVariants.Text
