import OuterApprox.Error

/-!
# Discarded linearizations

Why a function could not be linearized at a point. A hyperplane is built whole
or not at all, so each of these ends the attempt.

## Main definitions

* `CutSubject`: What was to be linearized.
* `Discard`: Why there is no hyperplane.
-/

namespace OuterApprox

/-- What a hyperplane is about, by name. -/
inductive CutSubject where
  /-- A constraint. -/
  | constraint (name : String)
  /-- The epigraph of the objective. -/
  | objective
  deriving DecidableEq, Repr

/-- The subject in words. -/
def CutSubject.text : CutSubject → String
  | constraint name => "constraint " ++ name
  | objective => "objective"

/-- Why there is no hyperplane. -/
inductive Discard (α : Type) where
  /-- The point does not have one coordinate per variable. -/
  | pointLength (length dimension : Nat)
  /-- There is no such constraint. -/
  | unknownConstraint (index : Nat)
  /-- No variable carries the objective. -/
  | noAuxiliary
  /-- The gradient does not exist. -/
  | noGradient (subject : CutSubject) (error : ModelError)
  /-- The function has no finite value. -/
  | valueNotFinite (subject : CutSubject) (value : α)
  /-- The gradient names a variable that does not exist. -/
  | unknownVariable (subject : CutSubject) (index : Nat)
  /-- A coefficient is not finite. -/
  | coefficientNotFinite (subject : CutSubject) (name : String) (coefficient : α)
  /-- The constant is not finite. -/
  | constantNotFinite (subject : CutSubject) (constant : α)
  /-- The gradient vanishes at a point that is not violated. -/
  | redundant (subject : CutSubject)

end OuterApprox
