/-!
# Ranges of code points

A property of characters, given as a table of the code points that have it.

## Main definitions

* `CodeRange`: Consecutive code points.
* `isWithin`: Whether a table covers a character.
-/

namespace OuterApprox

namespace Text

/-- Consecutive code points, from the first to the last. -/
abbrev CodeRange := Nat × Nat

/-- Whether a table of ranges covers a character. -/
def isWithin (table : List CodeRange) (c : Char) : Bool :=
  table.any fun r => decide (r.1 ≤ c.toNat) && decide (c.toNat ≤ r.2)

end Text

end OuterApprox
