import OuterApprox.Problem.Function

/-!
# Nonlinear constraints

A constraint `f(x) ≤ ub`, its value `f(x) - ub` at a point, and the value
normalized by the size of the right-hand side, which makes constraints of
different scale comparable. An undefined value counts as infinitely violated.

## Main definitions

* `Constraint`: A function and its right-hand side.
* `ConstraintValue`, `Constraint.valueAt`: A constraint evaluated at a point.
* `ConstraintValue.worst`: The first one that no later one exceeds.
* `Deviation`: A constraint and its normalized value.
-/

namespace OuterApprox

/-- A nonlinear constraint `f(x) ≤ upper`. -/
structure Constraint (α : Type) where
  /-- The name, for reports. -/
  name : String
  /-- The function. -/
  function : SmoothFunction α
  /-- The right-hand side. -/
  upper : α
  /-- Whether the function is known to be convex. Cuts from other constraints
      may be relaxed when the model turns infeasible. -/
  convex : Bool

/-- A constraint evaluated at a point. -/
structure ConstraintValue (α : Type) where
  /-- The position of the constraint. -/
  constraint : Nat
  /-- `f(x) - ub`; positive means violated. -/
  value : α
  /-- The value over `max (1, |ub|)`; infinite where the value is undefined. -/
  normalized : α
  /-- Whether the constraint holds at the point. -/
  fulfilled : Bool

/-- A constraint and its normalized value at some point. -/
structure Deviation (α : Type) where
  /-- The position of the constraint. -/
  constraint : Nat
  /-- The normalized value; positive means violated. -/
  value : α

namespace Constraint

variable {α : Type} [Scalar α]

/-- The residual `f(x) - ub`. -/
def residual (c : Constraint α) (x : Point α) : α := c.function.value x - c.upper

/-- The divisor that makes residuals comparable. -/
def scale (c : Constraint α) : α := Scalar.max (Scalar.abs c.upper) 1.0

/-- The constraint at position `i`, evaluated at a point. -/
def valueAt (c : Constraint α) (i : Nat) (x : Point α) : ConstraintValue α :=
  let value := c.residual x
  { constraint := i
    value
    normalized := if Scalar.isUndefined value then Scalar.infinity else value / c.scale
    fulfilled := decide (value ≤ 0.0) }

end Constraint

namespace ConstraintValue

variable {α : Type} [Scalar α]

/-- The larger of two by normalized value; a tie keeps the first. -/
def larger (a b : ConstraintValue α) : ConstraintValue α :=
  if b.normalized ≤ a.normalized then a else b

/-- The largest of a nonempty list by normalized value; a tie keeps the first. -/
def worst (first : ConstraintValue α) (rest : List (ConstraintValue α)) :
    ConstraintValue α :=
  rest.foldl larger first

/-- The largest of a list by normalized value, if it has any. -/
def worst? : List (ConstraintValue α) → Option (ConstraintValue α)
  | [] => none
  | first :: rest => some (worst first rest)

/-- The constraint and its normalized value alone. -/
def toDeviation (v : ConstraintValue α) : Deviation α := ⟨v.constraint, v.normalized⟩

end ConstraintValue

end OuterApprox
