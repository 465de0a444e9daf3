import OuterApprox.Decimal.Shortest
import OuterApprox.Problem.Basic
import OuterApprox.Text.Layout
import OuterApprox.Text.Quoted

/-!
# Summaries of a problem

One-line descriptions of the objective and of the constraints, for a reader who
wants to see what was built. Functions have no text, so only the data around
them is shown.

## Main definitions

* `Objective.summary`: The class and the sense.
* `Problem.constraintSummary`: All constraints with their right-hand sides.
-/

namespace OuterApprox

/-- The class and the sense of an objective. -/
def Objective.summary {α : Type} (o : Objective α) : String :=
  "ObjectiveFunction \x7b classification: " ++ o.classification.label ++
    ", is_minimize: " ++ toString o.sense.isMinimize ++ " \x7d"

/-- The constraint at position `i` without its function. -/
def Constraint.summary (i : Nat) (c : Constraint Float) : String :=
  "NumericConstraint \x7b index: " ++ toString i ++
    ", name: " ++ Text.quoted c.name ++
    ", upper_bound: " ++ Decimal.general c.upper ++
    ", is_convex: " ++ toString c.convex ++ " \x7d"

/-- All constraints without their functions. -/
def Problem.constraintSummary (p : Problem Float) : String :=
  Text.bracketed (p.constraints.zipIdx.map fun q => q.1.summary q.2)

end OuterApprox
