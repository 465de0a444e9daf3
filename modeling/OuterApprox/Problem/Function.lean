import OuterApprox.SparseVector
import OuterApprox.Error

/-!
# Functions

What the loop needs to know about a function: its value and its gradient at a
point. A value may be undefined or infinite outside the domain; a gradient that
does not exist is an error. Both are functions in the mathematical sense, so an
evaluation repeated at the same point gives the same answer.

## Main definitions

* `SmoothFunction`: A value and a gradient.
* `Affine`, `Affine.toFunction`: A linear form plus a constant.
-/

namespace OuterApprox

/-- A scalar function of points with first derivatives. -/
structure SmoothFunction (α : Type) where
  /-- The value at a point. -/
  value : Point α → α
  /-- The gradient at a point, or why there is none. -/
  gradient : Point α → Except ModelError (SparseVector α)

/-- A linear form plus a constant. Terms come in any order and may repeat a
    variable. -/
structure Affine (α : Type) where
  /-- Variable and coefficient pairs. -/
  terms : List (Nat × α)
  /-- The constant. -/
  constant : α

namespace Affine

variable {α : Type} [Scalar α]

/-- The value at a point; terms are added up in the order given. -/
def value (f : Affine α) (x : Point α) : α :=
  Scalar.sum (f.terms.map fun p => p.2 * x.coord p.1) + f.constant

/-- The gradient, the same everywhere: terms of one variable are merged. -/
def gradient (f : Affine α) : SparseVector α := SparseVector.collect f.terms

/-- An affine function as a function. -/
def toFunction (f : Affine α) : SmoothFunction α where
  value := f.value
  gradient _ := .ok f.gradient

end Affine

end OuterApprox
