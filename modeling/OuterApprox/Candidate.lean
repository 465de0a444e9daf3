import OuterApprox.Problem.Deviation

/-!
# Candidates

Points offered as solutions, and values offered as bounds, with where they came
from.

## Main definitions

* `Candidate`, `Problem.candidate`: A point with its objective and its worst
  deviation.
* `Candidate.isFeasible`, `Candidate.deviationValue`: Reading the deviation.
* `PrimalSource`, `PrimalSolution`: A candidate solution.
* `DualSource`, `DualBound`: A candidate bound.
-/

namespace OuterApprox

/-- A point with what is known about it. -/
structure Candidate (α : Type) where
  /-- The coordinates. -/
  point : Point α
  /-- The value of the objective. -/
  objective : α
  /-- The worst normalized value, if there are constraints. -/
  deviation : Option (Deviation α)
  /-- The iteration in which the point was found. -/
  iteration : Nat

namespace Candidate

variable {α : Type} [Scalar α]

/-- Whether every constraint holds within `tolerance`. -/
def isFeasible (c : Candidate α) (tolerance : α) : Bool :=
  match c.deviation with
  | some d => decide (d.value ≤ tolerance)
  | none => true

/-- The worst normalized value; without constraints the point is infinitely deep
    inside. -/
def deviationValue (c : Candidate α) : α :=
  match c.deviation with
  | some d => d.value
  | none => -Scalar.infinity

end Candidate

/-- The candidate at a point, with its objective and deviation evaluated. -/
def Problem.candidate {α : Type} [Scalar α] (p : Problem α) (x : Point α) (iteration : Nat) :
    Candidate α :=
  { point := x
    objective := p.objectiveValue x
    deviation := p.maxDeviation x
    iteration }

/-- Where a primal solution came from. -/
inductive PrimalSource where
  /-- An integer solution reported by the engine during a search. -/
  | integerSolution
  /-- The feasible end of a line search. -/
  | lineSearch
  /-- A local search with the integers fixed. -/
  | fixedInteger
  /-- A search for an interior point. -/
  | interiorSearch
  /-- The caller. -/
  | external
  deriving DecidableEq, Repr

namespace PrimalSource

/-- All sources. -/
def all : List PrimalSource :=
  [integerSolution, lineSearch, fixedInteger, interiorSearch, external]

/-- The name in reports. -/
def label : PrimalSource → String
  | integerSolution => "LazyConstraintCallback"
  | lineSearch => "Linesearch"
  | fixedInteger => "FixedNlp"
  | interiorSearch => "InteriorPointSearch"
  | external => "External"

end PrimalSource

/-- A candidate solution and its source. -/
structure PrimalSolution (α : Type) where
  /-- The candidate. -/
  candidate : Candidate α
  /-- Where it came from. -/
  source : PrimalSource

/-- Where a dual bound came from. -/
inductive DualSource where
  /-- The objective bound of the engine's search. -/
  | searchBound
  /-- The objective of an LP relaxation. -/
  | relaxation
  /-- The caller. -/
  | external
  deriving DecidableEq, Repr

namespace DualSource

/-- All sources. -/
def all : List DualSource := [searchBound, relaxation, external]

/-- The name in reports. -/
def label : DualSource → String
  | searchBound => "MipSolverBound"
  | relaxation => "LpSolution"
  | external => "External"

end DualSource

/-- A value offered as a dual bound. -/
structure DualBound (α : Type) where
  /-- The point that goes with it, possibly empty. -/
  point : Point α
  /-- Where it came from. -/
  source : DualSource
  /-- The value. -/
  value : α
  /-- The iteration in which it was found. -/
  iteration : Nat

/-- A bound reported by the engine's search in some iteration. -/
def DualBound.ofSearch {α : Type} (value : α) (iteration : Nat) : DualBound α :=
  { point := [], source := .searchBound, value, iteration }

end OuterApprox
