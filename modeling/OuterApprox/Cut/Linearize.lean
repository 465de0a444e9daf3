import OuterApprox.Cut.Hyperplane
import OuterApprox.Diagnostic

/-!
# Linearizing at a point

The first-order expansion of a constraint, or of the epigraph of the objective,
at a point. It is built whole or not at all: a missing gradient, a value or
coefficient that is not finite, or a variable that does not exist discards it,
and the reason says which. Where the gradient vanishes the expansion is a
constant; it is kept only if it is positive, because then it says that the
problem has no solution.

## Main definitions

* `Expansion`: The value and the gradient at a point.
* `Problem.expansion`: Evaluating the target of a request.
* `collectTerms`: Checking coefficients and moving the expansion to the origin.
* `Problem.linearize`: The linearization of a request, or why there is none.
* `Problem.linearizeRemarks`: What there is to say about it.
-/

namespace OuterApprox

/-- A value and a gradient at a point, and what they belong to. -/
structure Expansion (α : Type) where
  /-- What is expanded, by name. -/
  subject : CutSubject
  /-- The value. -/
  value : α
  /-- The gradient. -/
  gradient : Except ModelError (SparseVector α)

namespace Problem

variable {α : Type} [Scalar α]

/-- Evaluate a target at a point. -/
def expansion (p : Problem α) (target : CutTarget) (x : Point α) :
    Except (Discard α) (Expansion α) :=
  match target with
  | .constraint i =>
    match p.constraints[i]? with
    | none => .error (.unknownConstraint i)
    | some c => .ok ⟨.constraint c.name, c.residual x, c.function.gradient x⟩
  | .objective =>
    match p.epigraphValue x with
    | none => .error .noAuxiliary
    | some v => .ok ⟨.objective, v, p.epigraphGradient x⟩

/-- Check the coefficients in order and subtract each from the constant times
    its coordinate. Vanishing coefficients contribute nothing. -/
def collectTerms (p : Problem α) (subject : CutSubject) (x : Point α) :
    List (Nat × α) → α → Except (Discard α) α
  | [], constant => .ok constant
  | (i, c) :: rest, constant =>
    match p.vars[i]? with
    | none => .error (.unknownVariable subject i)
    | some v =>
      if !Scalar.isFinite c then .error (.coefficientNotFinite subject v.name c)
      else if c == 0.0 then p.collectTerms subject x rest constant
      else p.collectTerms subject x rest (constant - c * x.coord i)

/-- The linearization of a request, or why there is none. -/
def linearize (p : Problem α) (h : Hyperplane α) : Except (Discard α) (Linearization α) :=
  if h.point.length ≠ p.dimension then .error (.pointLength h.point.length p.dimension)
  else
    match p.expansion h.target h.point with
    | .error e => .error e
    | .ok ⟨subject, _, .error e⟩ => .error (.noGradient subject e)
    | .ok ⟨subject, value, .ok gradient⟩ =>
      if !Scalar.isFinite value then .error (.valueNotFinite subject value)
      else
        match p.collectTerms subject h.point gradient.entries value with
        | .error e => .error e
        | .ok constant =>
          -- A sorted gradient gives sorted terms; only the zeros go.
          let terms := gradient.filter fun c => !(c == 0.0)
          if !Scalar.isFinite constant then .error (.constantNotFinite subject constant)
          else if terms.entries.isEmpty && decide (constant ≤ 0.0) then
            .error (.redundant subject)
          else .ok ⟨p.dimension, terms, constant⟩

/-- The name of a target, for reports. -/
def subjectOf (p : Problem α) : CutTarget → CutSubject
  | .constraint i => .constraint ((p.constraints[i]?).elim "" (·.name))
  | .objective => .objective

/-- What there is to say about the linearization of a request. -/
def linearizeRemarks (p : Problem α) (h : Hyperplane α) : List (Diagnostic α) :=
  match p.linearize h with
  | .error reason => [.discarded reason]
  | .ok l =>
    if l.terms.entries.isEmpty then [.emptyRow (p.subjectOf h.target) l.constant] else []

end Problem

end OuterApprox
