import OuterApprox.Word

/-!
# Errors

What can go wrong, one constructor per cause. A `ModelError` comes from
describing or evaluating a problem, an `EngineError` is reported by a MILP
engine, and a `SolverError` is what a caller of the solver sees. Texts are made
in one place per type and nowhere else.

## Main definitions

* `ModelError`, `ModelError.message`: Problems, points, settings, line searches.
* `EngineError`, `EngineError.message`: Failures of a MILP engine.
-/

namespace OuterApprox

/-- The index under which evaluation errors report the objective: one that no
    constraint can have. -/
def objectiveIndex : Nat := Word.largest

/-- Why a value could not be given or a description was refused. -/
inductive ModelError where
  /-- A variable that does not exist was to be flagged. -/
  | variableOutOfRange (index count : Nat)
  /-- A variable that does not exist was to carry the objective. -/
  | auxiliaryOutOfRange (index count : Nat)
  /-- A function has no gradient at the point. -/
  | evaluation (constraint : Nat) (reason : String)
  /-- The epigraph of the objective needs a variable that was never named. -/
  | noAuxiliary
  /-- A point has the wrong number of coordinates. -/
  | dimension (expected actual : Nat)
  /-- A setting is outside its range. -/
  | invalidSetting (category key requirement : String)
  /-- A line search was given no constraints. -/
  | noConstraints
  /-- A line search was given no constraint that exists. -/
  | unknownConstraints
  deriving DecidableEq, Repr

namespace ModelError

/-- The kind of error, in reports. -/
def label : ModelError → String
  | variableOutOfRange .. | auxiliaryOutOfRange .. => "InvalidProblem"
  | evaluation .. | noAuxiliary => "Evaluation"
  | dimension .. => "DimensionMismatch"
  | invalidSetting .. => "InvalidSettings"
  | noConstraints | unknownConstraints => "Linesearch"

/-- The text shown to a reader. -/
def message : ModelError → String
  | variableOutOfRange i n =>
    s!"Invalid problem: variable {i} out of range ({n} variables)"
  | auxiliaryOutOfRange i n =>
    s!"Invalid problem: auxiliary objective variable {i} out of range ({n} variables)"
  | evaluation c reason => s!"Evaluation of constraint {c} failed: {reason}"
  | noAuxiliary =>
    s!"Evaluation of constraint {objectiveIndex} failed: " ++
      "problem has no auxiliary objective variable"
  | dimension expected actual =>
    s!"Dimension mismatch: expected {expected}, got {actual}"
  | invalidSetting category key requirement =>
    s!"Invalid setting {category}.{key}: {requirement}"
  | noConstraints => "Line search failed: no constraints to search"
  | unknownConstraints => "Line search failed: unknown constraint indices"

end ModelError

/-- A failure reported by a MILP engine. -/
inductive EngineError where
  /-- A row was refused. -/
  | cutRejected (reason : String)
  /-- The search gave no status. -/
  | solveFailed (reason : String)
  /-- The information does not exist for this event or state. -/
  | notAvailable (what : String)
  /-- A row or column that does not exist. -/
  | invalidIndex (index length : Nat)
  /-- An error code of the engine itself. -/
  | native (code : Int) (reason : String)
  deriving DecidableEq, Repr

namespace EngineError

/-- The text shown to a reader. -/
def message : EngineError → String
  | cutRejected reason => s!"Constraint rejected: {reason}"
  | solveFailed reason => s!"Solve failed: {reason}"
  | notAvailable what => s!"Not available: {what}"
  | invalidIndex index length => s!"Invalid index {index} ({length} available)"
  | native code reason => s!"Native solver error {code}: {reason}"

end EngineError

end OuterApprox
