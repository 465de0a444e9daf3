import OuterApprox.Decimal.Shortest
import OuterApprox.Diagnostic
import OuterApprox.Text.Layout

/-!
# Texts of diagnostics

The words of every remark. Objective values and bounds have six places,
deviations and line search values three significant places after the first,
bracket ends six, and bounds put on variables the fewest digits that identify
them.

## Main definitions

* `Discard.text`: Why a linearization was given up.
* `IterationLine.text`: One line of the iteration table.
* `Diagnostic.text`: Any remark.
-/

namespace OuterApprox

open Decimal

/-- Why a linearization was given up, in words. -/
def Discard.text : Discard Float → String
  | pointLength length dimension =>
    s!"Hyperplane point has {length} coordinates, problem has {dimension} variables"
  | unknownConstraint index => s!"Hyperplane references unknown constraint {index}"
  | noAuxiliary => "Objective hyperplane requires an auxiliary objective variable"
  | noGradient subject error => s!"Cannot linearize {subject.text}: {error.message}"
  | valueNotFinite subject value =>
    s!"Cannot linearize {subject.text}: function value is {general value}"
  | unknownVariable subject index =>
    s!"Hyperplane for {subject.text} references unknown variable {index}"
  | coefficientNotFinite subject name coefficient =>
    s!"Hyperplane for {subject.text} discarded: coefficient of variable {name} is " ++
      general coefficient
  | constantNotFinite subject constant =>
    s!"Hyperplane for {subject.text} discarded: constant is {general constant}"
  | redundant subject => s!"Hyperplane for {subject.text} has no nonzero terms"

/-- One line of the iteration table. Columns keep their width up to moderate
    figures. -/
def IterationLine.text (l : IterationLine Float) : String :=
  String.join
    [ "Iteration ", Text.alignRight 4 (toString l.number),
      " | nodes ", Text.alignRight 6 (toString l.explored),
      "/", Text.alignLeft 6 (toString l.openNodes),
      " | hyperplanes ", Text.alignRight 3 (toString l.added),
      "/", Text.alignLeft 5 (toString l.total),
      " | dual ", Text.alignRight 14 (fixed 6 l.dual),
      " | primal ", Text.alignRight 14 (fixed 6 l.primal),
      " | gap ", scientific 2 l.gap,
      " | max dev ", scientific 2 l.deviation,
      " (c", toString l.constraint, ")" ]

namespace Diagnostic

/-- The interval from minus a bound to the bound. -/
def intervalText (bound : Float) : String :=
  s!"[{exponential (-bound)}, {exponential bound}]"

/-- A remark in words. -/
def text : Diagnostic Float → String
  | exteriorFeasible value =>
    s!"Line search: exterior point is feasible ({scientific 3 value})"
  | interiorInfeasible value =>
    s!"Line search: interior point is infeasible ({scientific 3 value}), using bisection"
  | bracketed iterations lower upper lowerValue upperValue =>
    s!"Line search: {iterations} iterations, bracket " ++
      s!"[{scientific 6 lower}, {scientific 6 upper}], " ++
      s!"h_in {scientific 3 lowerValue}, h_out {scientific 3 upperValue}"
  | iterationCreated number => s!"Created iteration {number}"
  | primalInfeasible value source deviation =>
    s!"Primal candidate {fixed 6 value} from {source.label} rejected: " ++
      s!"max deviation {scientific 3 deviation}"
  | primalCrossesDual value source dual =>
    s!"Primal candidate {fixed 6 value} from {source.label} crosses dual bound " ++
      s!"{fixed 6 dual}, rejected"
  | dualClamped value primal =>
    s!"Dual candidate {fixed 6 value} clamped to primal bound {fixed 6 primal}"
  | discarded reason => reason.text
  | emptyRow subject constant =>
    s!"Hyperplane for {subject.text} has no nonzero terms at a violated point " ++
      s!"({scientific 3 constant})"
  | interiorUpdated deviation =>
    s!"Interior point updated, max deviation {scientific 3 deviation}"
  | primalSearchFailed error => s!"Primal line search failed: {error.message}"
  | fixedIntegerDimension => "Fixed NLP returned a point of the wrong dimension"
  | pointInside constraint value =>
    s!"Point is in the interior of constraint {constraint} ({scientific 3 value}), " ++
      "no hyperplane"
  | noInterior => "No interior point, selecting hyperplanes with ECP"
  | projectionFailed error =>
    s!"Line search failed, using the candidate point: {error.message}"
  | noAuxiliary => "Nonlinear objective without an auxiliary objective variable"
  | entered before after => s!"Callback {before.label} -> {after.label}"
  | terminating reason => s!"Terminating search: {reason.text}"
  | eventFailed step error => s!"Backend error when {step.text}: {error.message}"
  | invalidIntegerCut indices => s!"Integer cut over {Text.indexList indices} is invalid"
  | integerCutsAdded count => s!"Added {count} integer cut(s)"
  | relaxationLength length => s!"Node relaxation has {length} values"
  | solutionLength length => s!"Integer solution has {length} values"
  | accepted objective => s!"Integer solution {fixed 6 objective} accepted without cuts"
  | noHyperplane objective =>
    s!"No hyperplane added for violated integer solution {fixed 6 objective}"
  | iterationLine line => line.text
  | cutoffSet value => s!"Setting cutoff value to {fixed 6 value}"
  | boundingObjective bound =>
    s!"Problem infeasible, bounding objective variable to {intervalText bound} " ++
      "and resolving"
  | searchFailed error => s!"Error when solving dual problem: {error.message}"
  | nothingToBound => "Dual problem unbounded and no variable to bound"
  | boundingVariables count bound =>
    s!"Dual problem unbounded, bounding {count} variable(s) to {intervalText bound} " ++
      "and resolving"
  | boundsReadFailed column error =>
    s!"Cannot read bounds of variable {column}: {error.message}"
  | boundsWriteFailed column error =>
    s!"Cannot update bounds of variable {column}: {error.message}"
  | finalBoundFailed error => s!"Cannot read final objective bound: {error.message}"
  | rowRefused name error => s!"Cannot add hyperplane {name}: {error.message}"
  | nothingToRepair => "No nonconvex hyperplane rows to repair"
  | elasticFailed error => s!"Elastic solve failed: {error.message}"
  | notRepairable => "Could not repair the infeasible dual problem"
  | rowReadFailed row error => s!"Cannot read row {row}: {error.message}"
  | rowWriteFailed row error => s!"Cannot relax row {row}: {error.message}"
  | rowRelaxed row before after =>
    s!"Relaxed row {row} from {fixed 6 before} to {fixed 6 after}"
  | repaired count => s!"Repaired {count} row(s) of the dual problem"
  | resolving => "Dual problem repaired, resolving"
  | unrepaired => "Dual problem infeasible and could not be repaired"
  | endedWithoutSolution status =>
    s!"Search ended with {status.label} but no feasible solution was found"
  | terminated status primal dual iterations hyperplanes =>
    s!"Terminated with {status.label}: primal {fixed 6 primal}, dual {fixed 6 dual}, " ++
      s!"{iterations} iteration(s), {hyperplanes} hyperplane(s)"

end Diagnostic

end OuterApprox
