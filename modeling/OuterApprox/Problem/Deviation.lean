import OuterApprox.Problem.Basic

/-!
# Deviations of a point

Which constraints a point violates, and by how much. Everything here looks at a
point through the normalized values of the constraints, in the order in which
the constraints are listed; positions that name no constraint are skipped.

## Main definitions

* `Problem.valuesAt`: The listed constraints evaluated at a point.
* `Problem.maxValue?`: The worst of the listed constraints.
* `Problem.maxDeviation`: The worst of all constraints.
* `Problem.mostDeviating`: The constraints worth linearizing at a point.
-/

namespace OuterApprox

namespace Problem

variable {α : Type}

/-- The constraints at the listed positions, with their positions. Positions
    without a constraint are skipped. -/
def constraintsAt (p : Problem α) (indices : List Nat) : List (Nat × Constraint α) :=
  indices.filterMap fun i => (p.constraints[i]?).map fun c => (i, c)

variable [Scalar α]

/-- The constraints at the listed positions, evaluated at a point. -/
def valuesAt (p : Problem α) (x : Point α) (indices : List Nat) :
    List (ConstraintValue α) :=
  (p.constraintsAt indices).map fun q => q.2.valueAt q.1 x

/-- The worst of the listed constraints at a point; a tie keeps the first. -/
def maxValue? (p : Problem α) (x : Point α) (indices : List Nat) :
    Option (ConstraintValue α) :=
  ConstraintValue.worst? (p.valuesAt x indices)

/-- The largest normalized value over all constraints. -/
def maxDeviation (p : Problem α) (x : Point α) : Option (Deviation α) :=
  (p.maxValue? x p.constraintIndices).map ConstraintValue.toDeviation

/-- The constraints to linearize at a point.

    If the point violates a constraint, these are all violated ones whose
    normalized value is at least `factor` times the largest, from worst to
    least, ties in order of position. Otherwise it is the largest alone, so that
    the caller sees that the point is not outside. -/
def mostDeviating (p : Problem α) (x : Point α) (factor : α) : List (Deviation α) :=
  match p.maxValue? x p.constraintIndices with
  | none => []
  | some top =>
    if top.normalized ≤ 0.0 then [top.toDeviation]
    else
      let threshold := factor * top.normalized
      let taken := (p.valuesAt x p.constraintIndices).filter fun v =>
        decide (0.0 < v.normalized) && decide (threshold ≤ v.normalized)
      -- The sort is stable, so equal violations stay in order of position.
      (taken.map ConstraintValue.toDeviation).mergeSort
        fun a b => decide (b.value ≤ a.value)

end Problem

end OuterApprox
