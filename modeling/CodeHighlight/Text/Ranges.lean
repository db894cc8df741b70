/-!
# Ranges of code points

A set of characters given as closed intervals of code points in increasing order.
-/

namespace CodeHighlight.Text

/-- Closed intervals of code points, in increasing order. -/
abbrev Ranges := List (Nat × Nat)

/-- A character whose code point lies in one of the intervals. -/
def Ranges.contains (rs : Ranges) (c : Char) : Bool :=
  rs.any fun r => r.1 ≤ c.toNat && c.toNat ≤ r.2

end CodeHighlight.Text
