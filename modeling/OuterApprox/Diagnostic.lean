import OuterApprox.Callback.Phase
import OuterApprox.Candidate
import OuterApprox.Cut.Discard
import OuterApprox.Status

/-!
# Diagnostics

What a session says about its work, one constructor per kind of remark. The
numbers are kept as they are: their texts are made elsewhere and only for
scalars that have a text, so nothing a session computes depends on how numbers
are written.

## Main definitions

* `Level`: How serious a remark is.
* `IterationLine`: The figures reported when an iteration closes.
* `Diagnostic`, `Diagnostic.level`: A remark.
-/

namespace OuterApprox

/-- How serious a remark is, from the gravest. -/
inductive Level where
  /-- Something failed and was skipped. -/
  | error
  /-- Something is suspicious. -/
  | warn
  /-- Progress. -/
  | info
  /-- Decisions. -/
  | debug
  /-- Every step. -/
  | trace
  deriving DecidableEq, Repr

namespace Level

/-- All levels, from the gravest. -/
def all : List Level := [error, warn, info, debug, trace]

/-- The name in reports. -/
def label : Level → String
  | error => "ERROR"
  | warn => "WARN"
  | info => "INFO"
  | debug => "DEBUG"
  | trace => "TRACE"

/-- Position from the gravest. -/
def rank : Level → Nat
  | error => 1
  | warn => 2
  | info => 3
  | debug => 4
  | trace => 5

end Level

/-- The figures reported when an iteration closes. -/
structure IterationLine (α : Type) where
  /-- The number of the iteration. -/
  number : Nat
  /-- Nodes explored in it. -/
  explored : Nat
  /-- Nodes still open. -/
  openNodes : Nat
  /-- Hyperplanes added in it. -/
  added : Nat
  /-- Hyperplanes so far. -/
  total : Nat
  /-- The dual bound. -/
  dual : α
  /-- The primal bound. -/
  primal : α
  /-- The relative gap. -/
  gap : α
  /-- The worst deviation of the candidate. -/
  deviation : α
  /-- The constraint it occurs in. -/
  constraint : Nat

/-- A remark about the work of a session. -/
inductive Diagnostic (α : Type) where
  /-- A line search found its outer point feasible. -/
  | exteriorFeasible (value : α)
  /-- A line search found its inner point infeasible. -/
  | interiorInfeasible (value : α)
  /-- A line search ended with this bracket and these values at its ends. -/
  | bracketed (iterations : Nat) (lower upper lowerValue upperValue : α)
  /-- An iteration was opened. -/
  | iterationCreated (number : Nat)
  /-- A primal candidate is infeasible. -/
  | primalInfeasible (value : α) (source : PrimalSource) (deviation : α)
  /-- A primal candidate is better than the dual bound allows. -/
  | primalCrossesDual (value : α) (source : PrimalSource) (dual : α)
  /-- A dual candidate was cut to the primal bound. -/
  | dualClamped (value primal : α)
  /-- A linearization was given up. -/
  | discarded (reason : Discard α)
  /-- A violated point has a vanishing gradient. -/
  | emptyRow (subject : CutSubject) (constant : α)
  /-- The interior point moved. -/
  | interiorUpdated (deviation : α)
  /-- The primal line search failed. -/
  | primalSearchFailed (error : ModelError)
  /-- The local search returned a point of the wrong length. -/
  | fixedIntegerDimension
  /-- A point to linearize at is strictly inside. -/
  | pointInside (constraint : Nat) (value : α)
  /-- There is no interior point to project from. -/
  | noInterior
  /-- The projection failed. -/
  | projectionFailed (error : ModelError)
  /-- No variable carries the nonlinear objective. -/
  | noAuxiliary
  /-- The callback entered a phase. -/
  | entered (before after : Phase)
  /-- The search is to stop. -/
  | terminating (reason : StopReason)
  /-- The engine failed during an event. -/
  | eventFailed (step : EventStep) (error : EngineError)
  /-- A queued no-good cut is invalid. -/
  | invalidIntegerCut (indices : List Nat)
  /-- No-good cuts were added. -/
  | integerCutsAdded (count : Nat)
  /-- A node relaxation has the wrong length. -/
  | relaxationLength (length : Nat)
  /-- An integer solution has the wrong length. -/
  | solutionLength (length : Nat)
  /-- An integer solution needs no cuts. -/
  | accepted (objective : α)
  /-- A violated integer solution could not be cut off. -/
  | noHyperplane (objective : α)
  /-- An iteration closed. -/
  | iterationLine (line : IterationLine α)
  /-- The cutoff was set. -/
  | cutoffSet (value : α)
  /-- An infeasible problem is retried with the objective variable bounded. -/
  | boundingObjective (bound : α)
  /-- The search failed. -/
  | searchFailed (error : EngineError)
  /-- An unbounded problem has no variable to bound. -/
  | nothingToBound
  /-- An unbounded problem is retried with variables bounded. -/
  | boundingVariables (count : Nat) (bound : α)
  /-- The bounds of a column could not be read. -/
  | boundsReadFailed (column : Nat) (error : EngineError)
  /-- The bounds of a column could not be changed. -/
  | boundsWriteFailed (column : Nat) (error : EngineError)
  /-- The final bound could not be read. -/
  | finalBoundFailed (error : EngineError)
  /-- A hyperplane was refused as a model row. -/
  | rowRefused (name : String) (error : EngineError)
  /-- There is no row to repair. -/
  | nothingToRepair
  /-- The elastic problem failed. -/
  | elasticFailed (error : EngineError)
  /-- The elastic problem has no optimum. -/
  | notRepairable
  /-- A row could not be read. -/
  | rowReadFailed (row : Nat) (error : EngineError)
  /-- A row could not be changed. -/
  | rowWriteFailed (row : Nat) (error : EngineError)
  /-- A row was relaxed. -/
  | rowRelaxed (row : Nat) (before after : α)
  /-- Rows were repaired. -/
  | repaired (count : Nat)
  /-- A repaired problem is solved again. -/
  | resolving
  /-- An infeasible problem stays so. -/
  | unrepaired
  /-- The search ended well but without a solution. -/
  | endedWithoutSolution (status : Status)
  /-- The solve is over. -/
  | terminated (status : Status) (primal dual : α) (iterations hyperplanes : Nat)

namespace Diagnostic

variable {α : Type}

/-- How serious a remark is. -/
def level : Diagnostic α → Level
  | exteriorFeasible .. | bracketed .. | iterationCreated .. | entered .. => .trace
  | discarded (.redundant _) => .debug
  | primalInfeasible .. | dualClamped .. | interiorUpdated .. | primalSearchFailed ..
  | noInterior | accepted .. | nothingToRepair | notRepairable | rowRelaxed ..
  | repaired .. => .debug
  | terminating .. | integerCutsAdded .. | iterationLine .. | cutoffSet ..
  | boundingObjective .. | boundingVariables .. | resolving | unrepaired
  | terminated .. => .info
  | interiorInfeasible .. | primalCrossesDual .. | emptyRow .. | fixedIntegerDimension
  | pointInside .. | projectionFailed .. | noAuxiliary | nothingToBound
  | endedWithoutSolution .. => .warn
  | discarded .. | eventFailed .. | invalidIntegerCut .. | relaxationLength ..
  | solutionLength .. | noHyperplane .. | searchFailed .. | boundsReadFailed ..
  | boundsWriteFailed .. | finalBoundFailed .. | rowRefused .. | elasticFailed ..
  | rowReadFailed .. | rowWriteFailed .. => .error

end Diagnostic

end OuterApprox
