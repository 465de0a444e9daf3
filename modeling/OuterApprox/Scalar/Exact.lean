import OuterApprox.Scalar

/-!
# Exact scalars

The rational numbers, extended by two infinities and an undefined value. Nothing
is rounded, so a definition read over these scalars is the algorithm as one
would write it down on paper, and what it achieves there is what the algorithm
achieves apart from rounding.

The extension follows the usual rules for infinite values: a sum of opposite
infinities, a product of zero and an infinity, and a quotient of zeros or of
infinities are undefined, and the undefined value spreads through every
operation and compares with nothing. Zero has no sign; a nonzero number over
zero is infinite with the sign of the number.

## Main definitions

* `Exact`: Extended rationals.
* `Exact.add`, `Exact.neg`, `Exact.mul`, `Exact.div`: Their arithmetic.
* `Exact.below`, `Exact.notAbove`: Their order.
* `instScalarExact`: Extended rationals as scalars.
-/

namespace OuterApprox

/-- A rational number, an infinity, or no number. -/
inductive Exact where
  /-- A rational number. -/
  | finite (value : Rat)
  /-- An infinity. -/
  | infinite (negative : Bool)
  /-- No number. -/
  | undefined
  deriving DecidableEq

namespace Exact

/-- Sum. -/
def add : Exact → Exact → Exact
  | finite a, finite b => finite (a + b)
  | undefined, _ => undefined
  | _, undefined => undefined
  | infinite s, infinite t => if s = t then infinite s else undefined
  | infinite s, finite _ => infinite s
  | finite _, infinite t => infinite t

/-- Negative. -/
def neg : Exact → Exact
  | finite a => finite (-a)
  | infinite s => infinite !s
  | undefined => undefined

/-- Product. -/
def mul : Exact → Exact → Exact
  | finite a, finite b => finite (a * b)
  | undefined, _ => undefined
  | _, undefined => undefined
  | infinite s, infinite t => infinite (s != t)
  | infinite s, finite b => if b = 0 then undefined else infinite (s != decide (b < 0))
  | finite a, infinite t => if a = 0 then undefined else infinite (decide (a < 0) != t)

/-- Quotient. -/
def div : Exact → Exact → Exact
  | finite a, finite b =>
    if b = 0 then (if a = 0 then undefined else infinite (decide (a < 0))) else finite (a / b)
  | undefined, _ => undefined
  | _, undefined => undefined
  | infinite _, infinite _ => undefined
  | infinite s, finite b => infinite (s != decide (b < 0))
  | finite _, infinite _ => finite 0

/-- Strictly below. -/
def below : Exact → Exact → Bool
  | finite a, finite b => decide (a < b)
  | infinite true, finite _ => true
  | finite _, infinite false => true
  | infinite true, infinite false => true
  | _, _ => false

/-- Below or equal. -/
def notAbove : Exact → Exact → Bool
  | finite a, finite b => decide (a ≤ b)
  | infinite true, finite _ => true
  | finite _, infinite false => true
  | infinite s, infinite t => s || !t
  | _, _ => false

/-- The nearest integer to a rational, a half going away from zero. -/
def nearest (q : Rat) : Int :=
  if q < 0 then -((-q + 1 / 2).floor) else (q + 1 / 2).floor

end Exact

/-- Extended rationals as scalars. -/
instance instScalarExact : Scalar Exact where
  add := Exact.add
  sub a b := a.add b.neg
  mul := Exact.mul
  div := Exact.div
  neg := Exact.neg
  lt a b := a.below b = true
  le a b := a.notAbove b = true
  beq a b := a.notAbove b && b.notAbove a
  ofScientific m s e := .finite (OfScientific.ofScientific m s e)
  decLt _ _ := inferInstanceAs (Decidable (_ = true))
  decLe _ _ := inferInstanceAs (Decidable (_ = true))
  infinity := .infinite false
  undefined := .undefined
  isUndefined
    | .undefined => true
    | _ => false
  isFinite
    | .finite _ => true
    | _ => false
  abs
    | .finite a => .finite a.abs
    | .infinite _ => .infinite false
    | .undefined => .undefined
  round
    | .finite a => .finite (Exact.nearest a)
    | other => other
  nearestInt
    | .finite a => max (-0x8000000000000000) (min 0x7fffffffffffffff (Exact.nearest a))
    | .infinite false => 0x7fffffffffffffff
    | .infinite true => -0x8000000000000000
    | .undefined => 0
  ofNat n := .finite n
  ofInt n := .finite n

end OuterApprox
