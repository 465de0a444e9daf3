import OuterApprox.Problem.Basic

/-!
# Integrality

The discrete variables of a problem and what a point assigns to them.

## Main definitions

* `Problem.discreteIndices`: The positions of the discrete variables.
* `Problem.isIntegerFeasible`: Whether a point is integral on all of them.
* `Problem.assignment`: The integers nearest to a point on all of them.
* `Problem.isPureBinary`: Whether all of them are binary.
-/

namespace OuterApprox

namespace Problem

variable {α : Type}

/-- The positions of the binary and integer variables. -/
def discreteIndices (p : Problem α) : List Nat := p.indicesWhere (·.domain.isDiscrete)

/-- Whether every variable is discrete. -/
def isPureDiscrete (p : Problem α) : Bool := p.vars.all (·.domain.isDiscrete)

/-- Whether no variable is a general integer. -/
def isPureBinary (p : Problem α) : Bool := p.vars.all (·.domain != .integer)

variable [Scalar α]

/-- Whether a point is integral on every discrete variable within `tolerance`. A
    point too short is not. -/
def isIntegerFeasible (p : Problem α) (x : Point α) (tolerance : α) : Bool :=
  p.discreteIndices.all fun i =>
    match x[i]? with
    | some v => decide (Scalar.abs (v - Scalar.round v) ≤ tolerance)
    | none => false

/-- The integers a point assigns to the discrete variables; a missing
    coordinate counts as zero. -/
def assignment (p : Problem α) (x : Point α) : List Int :=
  p.discreteIndices.map fun i => (x[i]?).elim 0 Scalar.nearestInt

end Problem

end OuterApprox
