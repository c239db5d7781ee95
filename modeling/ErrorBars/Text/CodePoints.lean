/-!
# Sets of code points

A set of code points is an array of closed ranges; `inRanges` is membership in it.
-/

set_option autoImplicit false

namespace ErrorBars.Text

/-- Whether a character lies in one of the ranges. -/
def inRanges (ranges : Array (Nat × Nat)) (c : Char) : Bool :=
  ranges.any fun r => r.1 ≤ c.toNat && c.toNat ≤ r.2

end ErrorBars.Text
