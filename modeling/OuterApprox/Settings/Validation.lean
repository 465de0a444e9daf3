import OuterApprox.Settings.Basic
import OuterApprox.Error

/-!
# Admissible settings

The ranges settings must lie in. The requirements are listed in the order in
which they are checked, each with the error it raises, and the first one that
fails is reported. A comparison with an undefined value fails, so an undefined
setting never passes a requirement that names it.

## Main definitions

* `Settings.requirements`: What must hold, in order.
* `Settings.validate`: The first requirement that fails.

## Theorems

* `Settings.validate_eq_ok_iff`: Validation passes exactly if all requirements
  hold.
-/

namespace OuterApprox

namespace Settings

variable {α : Type} [Scalar α]

/-- What must hold of settings, in the order of checking, and the error raised
    otherwise. -/
def requirements (s : Settings α) : List (Bool × ModelError) :=
  let factor := s.cuttingPlane.selectionFactor
  [ (decide (0.0 < factor) && decide (factor ≤ 1.0),
      .invalidSetting "ecp" "constraint_selection_factor" "must be in (0, 1]"),
    (s.dual.maxHyperplanes != 0,
      .invalidSetting "dual" "max_hyperplanes_per_iteration" "must be positive"),
    (decide (1.0 ≤ s.dual.unboundedScaling),
      .invalidSetting "dual" "unbounded_bound_scaling" "must be at least 1"),
    (decide (0.0 < s.dual.unboundedBound),
      .invalidSetting "dual" "unbounded_variable_bound" "must be positive"),
    (decide (1.0 ≤ s.dual.repairSlackFactor),
      .invalidSetting "dual" "repair_slack_factor" "must be at least 1"),
    (decide (0.0 < s.boundary.widthTolerance),
      .invalidSetting "esh" "linesearch_lambda_tolerance" "must be positive"),
    (decide (0.0 ≤ s.boundary.deviationTolerance),
      .invalidSetting "esh" "linesearch_constraint_tolerance" "must be nonnegative"),
    (decide (0.0 ≤ s.termination.absoluteGap),
      .invalidSetting "termination" "absolute_gap_tolerance" "must be nonnegative"),
    (decide (0.0 ≤ s.termination.relativeGap),
      .invalidSetting "termination" "relative_gap_tolerance" "must be nonnegative"),
    (decide (0.0 ≤ s.termination.constraintTolerance),
      .invalidSetting "termination" "constraint_tolerance" "must be nonnegative"),
    (s.primal.fixedInteger != .every 0,
      .invalidSetting "primal" "fixed_nlp" "frequency must be positive") ]

/-- Fails with the first requirement that does not hold. -/
def validate (s : Settings α) : Except ModelError Unit :=
  match s.requirements.find? (fun r => !r.1) with
  | some (_, e) => .error e
  | none => .ok ()

theorem validate_eq_ok_iff (s : Settings α) :
    s.validate = .ok () ↔ ∀ r ∈ s.requirements, r.1 = true := by
  unfold validate
  cases h : s.requirements.find? (fun r => !r.1) with
  | none =>
    have hall := List.find?_eq_none.1 h
    simpa using hall
  | some r =>
    have hfails := List.find?_some h
    have hmem := List.mem_of_find?_eq_some h
    constructor
    · intro hok
      exact nomatch hok
    · intro hall
      rw [hall r hmem] at hfails
      exact nomatch hfails

end Settings

end OuterApprox
