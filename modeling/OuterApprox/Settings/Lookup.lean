import OuterApprox.Settings.Basic
import OuterApprox.Word

/-!
# Looking settings up by name

Settings read by category and key, as numbers or truth values. A choice is
reported by its position, an absent time limit as an infinite one, and a count
as a signed 64-bit number, so that a count of `2 ^ 63` and more comes out
negative.

## Main definitions

* `SettingValue`, `SettingValue.toScalar`: A value, and its numeric view.
* `Settings.lookup`: The value under a category and a key.
-/

namespace OuterApprox

/-- The value of a setting. -/
inductive SettingValue (α : Type) where
  /-- A number. -/
  | number (value : α)
  /-- A count or the position of a choice. -/
  | integer (value : Int)
  /-- A truth value. -/
  | flag (value : Bool)

namespace SettingValue

variable {α : Type} [Scalar α]

/-- The numeric view; truth values are zero and one. -/
def toScalar : SettingValue α → α
  | number v => v
  | integer n => Scalar.ofInt n
  | flag true => 1.0
  | flag false => 0.0

/-- A count as a signed 64-bit number. -/
def ofCount (n : Nat) : SettingValue α := .integer (Word.signed n)

end SettingValue

namespace Settings

variable {α : Type} [Scalar α]

/-- The setting under `key` in `category`, if there is one. -/
def lookup (s : Settings α) (category key : String) : Option (SettingValue α) :=
  match category, key with
  | "dual", "cut_strategy" =>
    some (.integer (match s.dual.strategy with
      | .cuttingPlane => 0
      | .supportingHyperplane => 1))
  | "dual", "max_hyperplanes_per_iteration" => some (.ofCount s.dual.maxHyperplanes)
  | "dual", "relaxation_max_lazy_constraints" => some (.ofCount s.dual.maxRelaxationCuts)
  | "dual", "use_integer_cuts" => some (.flag s.dual.useIntegerCuts)
  | "dual", "cutoff_tolerance" => some (.number s.dual.cutoffTolerance)
  | "dual", "unbounded_variable_bound" => some (.number s.dual.unboundedBound)
  | "dual", "unbounded_bound_scaling" => some (.number s.dual.unboundedScaling)
  | "dual", "auxiliary_objective_bound" => some (.number s.dual.auxiliaryBound)
  | "dual", "repair_max_constraints" => some (.ofCount s.dual.repairMaxRows)
  | "dual", "repair_slack_factor" => some (.number s.dual.repairSlackFactor)
  | "ecp", "constraint_selection_factor" => some (.number s.cuttingPlane.selectionFactor)
  | "esh", "linesearch_max_iterations" => some (.ofCount s.boundary.maxIterations)
  | "esh", "linesearch_lambda_tolerance" => some (.number s.boundary.widthTolerance)
  | "esh", "linesearch_constraint_tolerance" => some (.number s.boundary.deviationTolerance)
  | "esh", "interior_point_update" =>
    some (.integer (match s.boundary.interiorUpdate with
      | .keep => 0
      | .replace => 1
      | .average => 2))
  | "primal", "use_linesearch" => some (.flag s.primal.useLineSearch)
  | "termination", "absolute_gap_tolerance" => some (.number s.termination.absoluteGap)
  | "termination", "relative_gap_tolerance" => some (.number s.termination.relativeGap)
  | "termination", "constraint_tolerance" => some (.number s.termination.constraintTolerance)
  | "termination", "iteration_limit" => some (.ofCount s.termination.iterationLimit)
  | "termination", "time_limit" =>
    some (.number (s.termination.timeLimit.elim Scalar.infinity Duration.seconds))
  | "output", "iteration_report" => some (.flag s.output.iterationReport)
  | _, _ => none

end Settings

end OuterApprox
