import OuterApprox.Duration

/-!
# Settings

Everything a session can be told about how to run, grouped by what it governs:
the dual problem, the two ways of choosing cuts, the primal heuristics, when to
stop and what to report.

## Main definitions

* `CutStrategy`, `InteriorUpdate`, `FixedIntegerRule`: The choices that are not
  numbers.
* `DualSettings`, `CuttingPlaneSettings`, `BoundarySettings`, `PrimalSettings`,
  `TerminationSettings`, `OutputSettings`: The groups.
* `Settings`, `Settings.standard`: All groups, and their usual values.
* `Settings.withCuttingPlanes`: The usual values with cutting planes.
-/

namespace OuterApprox

/-- Where cuts are generated. -/
inductive CutStrategy where
  /-- At the candidate points themselves. -/
  | cuttingPlane
  /-- At the boundary of the feasible region, which supports it. -/
  | supportingHyperplane
  deriving DecidableEq, Repr

namespace CutStrategy

/-- The strategy used unless another is named. -/
def standard : CutStrategy := supportingHyperplane

/-- All strategies. -/
def all : List CutStrategy := [cuttingPlane, supportingHyperplane]

/-- The name in reports. -/
def label : CutStrategy → String
  | cuttingPlane => "Ecp"
  | supportingHyperplane => "Esh"

/-- Whether candidates are projected from an interior point. -/
def needsInterior : CutStrategy → Bool
  | cuttingPlane => false
  | supportingHyperplane => true

end CutStrategy

/-- What a new primal solution does to the interior point. -/
inductive InteriorUpdate where
  /-- Nothing. -/
  | keep
  /-- A deeper solution takes its place. -/
  | replace
  /-- The point moves halfway to a deeper solution. -/
  | average
  deriving DecidableEq, Repr

namespace InteriorUpdate

/-- The rule used unless another is named. -/
def standard : InteriorUpdate := average

/-- All rules. -/
def all : List InteriorUpdate := [keep, replace, average]

/-- The name in reports. -/
def label : InteriorUpdate → String
  | keep => "KeepOriginal"
  | replace => "Replace"
  | average => "Average"

end InteriorUpdate

/-- Which candidates go to a local search with their integers fixed. -/
inductive FixedIntegerRule where
  /-- None. -/
  | never
  /-- Every one that needed cuts. -/
  | always
  /-- Those whose integer assignment is new. -/
  | newAssignment
  /-- At most one in `n` iterations. -/
  | every (n : Nat)
  deriving DecidableEq, Repr

namespace FixedIntegerRule

/-- The rule used unless another is named. -/
def standard : FixedIntegerRule := never

/-- The name in reports, without the number of iterations. -/
def label : FixedIntegerRule → String
  | never => "Never"
  | always => "Always"
  | newAssignment => "NewIntegerCombination"
  | every _ => "Frequency"

end FixedIntegerRule

/-- The dual problem: the MILP that outer-approximates the feasible region. -/
structure DualSettings (α : Type) where
  /-- Where cuts are generated. -/
  strategy : CutStrategy
  /-- Most hyperplanes one selection may request. -/
  maxHyperplanes : Nat
  /-- Hyperplanes at relaxation nodes after which an iteration takes no more. -/
  maxRelaxationCuts : Nat
  /-- Whether queued no-good cuts are added after an integer solution. -/
  useIntegerCuts : Bool
  /-- Slack between the incumbent's objective and the cutoff. -/
  cutoffTolerance : α
  /-- Magnitude standing for an infinite variable bound. -/
  unboundedBound : α
  /-- Divisor of `unboundedBound` when an unbounded problem is retried. -/
  unboundedScaling : α
  /-- Bound on the objective variable when an infeasible problem is retried. -/
  auxiliaryBound : α
  /-- Most rows a repair may relax. -/
  repairMaxRows : Nat
  /-- Multiple of the elastic slack by which a repair relaxes a row. -/
  repairSlackFactor : α

/-- Choosing constraints to linearize at a point. -/
structure CuttingPlaneSettings (α : Type) where
  /-- Fraction of the largest violation from which a constraint is taken. -/
  selectionFactor : α

/-- Projecting candidates onto the boundary. -/
structure BoundarySettings (α : Type) where
  /-- Most evaluations of one line search. -/
  maxIterations : Nat
  /-- Bracket width at which a line search stops. -/
  widthTolerance : α
  /-- Deviation of the outer end at which a line search stops. -/
  deviationTolerance : α
  /-- What a primal solution does to the interior point. -/
  interiorUpdate : InteriorUpdate

/-- Primal heuristics. -/
structure PrimalSettings where
  /-- Search between the interior point and integer candidates. -/
  useLineSearch : Bool
  /-- Which candidates have their integers fixed for a local search. -/
  fixedInteger : FixedIntegerRule

/-- When to stop. -/
structure TerminationSettings (α : Type) where
  /-- Absolute gap between the bounds that counts as closed. -/
  absoluteGap : α
  /-- Relative gap between the bounds that counts as closed. -/
  relativeGap : α
  /-- Normalized deviation that counts as feasible. -/
  constraintTolerance : α
  /-- Most iterations. -/
  iterationLimit : Nat
  /-- Longest time, if there is a limit. -/
  timeLimit : Option Duration

/-- What to report. -/
structure OutputSettings where
  /-- One line per closed iteration. -/
  iterationReport : Bool

/-- All settings of a session. -/
structure Settings (α : Type) where
  /-- The dual problem. -/
  dual : DualSettings α
  /-- Choosing constraints at a point. -/
  cuttingPlane : CuttingPlaneSettings α
  /-- Projecting onto the boundary. -/
  boundary : BoundarySettings α
  /-- Primal heuristics. -/
  primal : PrimalSettings
  /-- When to stop. -/
  termination : TerminationSettings α
  /-- What to report. -/
  output : OutputSettings

namespace Settings

variable {α : Type}

/-- The usual values. -/
def standard [Scalar α] : Settings α where
  dual :=
    { strategy := .standard
      maxHyperplanes := 200
      maxRelaxationCuts := 0
      useIntegerCuts := true
      cutoffTolerance := 1e-5
      unboundedBound := 1e50
      unboundedScaling := 1e31
      auxiliaryBound := 1e9
      repairMaxRows := 100
      repairSlackFactor := 1.5 }
  cuttingPlane := { selectionFactor := 0.25 }
  boundary :=
    { maxIterations := 100
      widthTolerance := 1e-12
      deviationTolerance := 1e-8
      interiorUpdate := .standard }
  primal := { useLineSearch := true, fixedInteger := .standard }
  termination :=
    { absoluteGap := 1e-3
      relativeGap := 1e-3
      constraintTolerance := 1e-8
      iterationLimit := 200000
      timeLimit := none }
  output := { iterationReport := true }

/-- Choose the strategy. -/
def withStrategy (s : Settings α) (strategy : CutStrategy) : Settings α :=
  { s with dual := { s.dual with strategy } }

/-- The usual values with cutting planes. -/
def withCuttingPlanes [Scalar α] : Settings α := standard.withStrategy .cuttingPlane

/-- Limit the time. -/
def withTimeLimit (s : Settings α) (limit : Duration) : Settings α :=
  { s with termination := { s.termination with timeLimit := some limit } }

/-- Limit the number of iterations. -/
def withIterationLimit (s : Settings α) (limit : Nat) : Settings α :=
  { s with termination := { s.termination with iterationLimit := limit } }

/-- Set both gap tolerances. -/
def withGaps (s : Settings α) (absolute relative : α) : Settings α :=
  { s with termination :=
      { s.termination with absoluteGap := absolute, relativeGap := relative } }

/-- Set the feasibility tolerance. -/
def withConstraintTolerance (s : Settings α) (tolerance : α) : Settings α :=
  { s with termination := { s.termination with constraintTolerance := tolerance } }

/-- Limit the hyperplanes of one selection. -/
def withMaxHyperplanes (s : Settings α) (count : Nat) : Settings α :=
  { s with dual := { s.dual with maxHyperplanes := count } }

end Settings

end OuterApprox
