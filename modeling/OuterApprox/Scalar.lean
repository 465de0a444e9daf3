/-!
# Scalars

The numbers every definition of this library computes with. An outer
approximation loop runs on floating-point numbers, but most of what it is
supposed to achieve is a statement of exact arithmetic: a cut keeps every
feasible point, a repaired row admits a given point, a midpoint of two interior
points is interior. Each algorithm is therefore written once, generic in a type
of scalars, and read twice: over `Float` it runs, and over the extension of an
ordered field it can be reasoned about exactly.

A scalar type has the four operations, an order that need not be total, an
infinite value, and an undefined value that compares with nothing. Nothing is
assumed about how the operations round, so the class carries operations only
and no laws.

## Main definitions

* `Scalar`: The operations.
* `Scalar.max`, `Scalar.min`: Extrema that prefer a defined operand.
* `Scalar.negZero`, `Scalar.sum`: The neutral start of a sum, and the sum.
* `Point`, `Point.coord`: Points and their coordinates, undefined past the end.
-/

namespace OuterApprox

/-- Arithmetic with an infinite and an undefined value.

    The order is a pair of decidable relations rather than a linear order: an
    undefined value is neither below nor above anything, itself included. -/
class Scalar (α : Type) extends
    Add α, Sub α, Mul α, Div α, Neg α, LT α, LE α, BEq α, OfScientific α where
  /-- The strict order can be tested. -/
  decLt : ∀ a b : α, Decidable (a < b)
  /-- The weak order can be tested. -/
  decLe : ∀ a b : α, Decidable (a ≤ b)
  /-- The value above all finite ones. -/
  infinity : α
  /-- The result of an operation that has none. -/
  undefined : α
  /-- Whether a value is the undefined one. -/
  isUndefined : α → Bool
  /-- Whether a value is neither infinite nor undefined. -/
  isFinite : α → Bool
  /-- Absolute value. -/
  abs : α → α
  /-- The nearest integral value, a half going away from zero. -/
  round : α → α
  /-- The nearest integer, a half going away from zero. Values outside the
      64-bit range give its nearest end, and the undefined value gives zero. -/
  nearestInt : α → Int
  /-- The scalar nearest to a natural number. -/
  ofNat : Nat → α
  /-- The scalar nearest to an integer. -/
  ofInt : Int → α

namespace Scalar

variable {α : Type} [Scalar α]

instance (a b : α) : Decidable (a < b) := decLt a b

instance (a b : α) : Decidable (a ≤ b) := decLe a b

/-- The larger of two values, the second one if they are equal; a defined
    operand wins over an undefined one. -/
def max (a b : α) : α :=
  if isUndefined b then a else if b < a then a else b

/-- The smaller of two values, the second one if they are equal; a defined
    operand wins over an undefined one. -/
def min (a b : α) : α :=
  if isUndefined b then a else if a < b then a else b

/-- Zero approached from below. Adding it changes no value, not even the sign
    of a zero, so sums start from it. -/
def negZero : α := -(0.0 : α)

/-- The sum of a list, added up from the left. -/
def sum (xs : List α) : α := xs.foldl (· + ·) negZero

end Scalar

/-- A point: one coordinate per variable. -/
abbrev Point (α : Type) := List α

namespace Point

variable {α : Type} [Scalar α]

/-- Coordinate `i`, undefined when the point is too short. -/
def coord (x : Point α) (i : Nat) : α := (x[i]?).getD Scalar.undefined

/-- The value at `i` replaced; a point too short is left alone. -/
def setCoord (x : Point α) (i : Nat) (v : α) : Point α := List.set x i v

/-- The point at parameter `t` on the segment from `a` to `b`. -/
def between (a b : Point α) (t : α) : Point α :=
  List.zipWith (fun u v => u + t * (v - u)) a b

/-- The midpoint of two points. -/
def midpoint (a b : Point α) : Point α :=
  List.zipWith (fun u v => 0.5 * (u + v)) a b

end Point

end OuterApprox
