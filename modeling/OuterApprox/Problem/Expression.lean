import OuterApprox.Problem.Function
import OuterApprox.Scalar.Double

/-!
# Expressions

Functions given by expressions: one for the value, one for each partial
derivative, and possibly a guard that says where the gradient exists. Nothing
is simplified or differentiated here; an expression is evaluated as written.

## Main definitions

* `Elementary`: The functions an expression may use beyond arithmetic.
* `Expression`, `Expression.eval`: Expressions and their values.
* `Guard`, `ExpressionFunction`: A function given by expressions.
-/

namespace OuterApprox

/-- Scalars with the elementary functions. -/
class Elementary (α : Type) extends Scalar α where
  /-- Square root. -/
  sqrt : α → α
  /-- Exponential. -/
  exp : α → α
  /-- Natural logarithm. -/
  ln : α → α

/-- Double precision with the elementary functions of the machine. -/
instance instElementaryFloat : Elementary Float :=
  { instScalarFloat with sqrt := Float.sqrt, exp := Float.exp, ln := Float.log }

/-- An expression in the coordinates of a point. -/
inductive Expression (α : Type) where
  /-- A constant. -/
  | const (c : α)
  /-- A coordinate. -/
  | coord (i : Nat)
  /-- A sum. -/
  | add (a b : Expression α)
  /-- A difference. -/
  | sub (a b : Expression α)
  /-- A product. -/
  | mul (a b : Expression α)
  /-- A quotient. -/
  | div (a b : Expression α)
  /-- The negative. -/
  | neg (a : Expression α)
  /-- The square, a product of equal factors. -/
  | square (a : Expression α)
  /-- The square root. -/
  | sqrt (a : Expression α)
  /-- The exponential. -/
  | exp (a : Expression α)
  /-- The natural logarithm. -/
  | ln (a : Expression α)
  /-- The absolute value. -/
  | abs (a : Expression α)

namespace Expression

variable {α : Type} [Elementary α]

/-- The value at a point. -/
def eval (x : Point α) : Expression α → α
  | const c => c
  | coord i => x.coord i
  | add a b => a.eval x + b.eval x
  | sub a b => a.eval x - b.eval x
  | mul a b => a.eval x * b.eval x
  | div a b => a.eval x / b.eval x
  | neg a => -(a.eval x)
  | square a => a.eval x * a.eval x
  | sqrt a => Elementary.sqrt (a.eval x)
  | exp a => Elementary.exp (a.eval x)
  | ln a => Elementary.ln (a.eval x)
  | abs a => Scalar.abs (a.eval x)

end Expression

/-- Where a gradient exists: where the expression is positive. -/
structure Guard (α : Type) where
  /-- Positive where the gradient exists. -/
  expression : Expression α
  /-- The constraint named in the error elsewhere. -/
  constraint : Nat
  /-- The reason given in the error elsewhere. -/
  reason : String

/-- A function given by expressions. -/
structure ExpressionFunction (α : Type) where
  /-- The value. -/
  value : Expression α
  /-- The partial derivatives by variable; the last one given for a variable
      counts. -/
  partials : List (Nat × Expression α)
  /-- Where the gradient exists, if not everywhere. -/
  guard : Option (Guard α)

namespace ExpressionFunction

variable {α : Type} [Elementary α]

/-- The function that evaluates the expressions. -/
def toFunction (f : ExpressionFunction α) : SmoothFunction α where
  value x := f.value.eval x
  gradient x :=
    let g := SparseVector.ofList (f.partials.map fun p => (p.1, p.2.eval x))
    match f.guard with
    | none => .ok g
    | some guard =>
      if 0.0 < guard.expression.eval x then .ok g
      else .error (.evaluation guard.constraint guard.reason)

end ExpressionFunction

end OuterApprox
