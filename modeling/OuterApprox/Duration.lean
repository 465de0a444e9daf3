import OuterApprox.Scalar
import OuterApprox.Decimal.Magnitude
import OuterApprox.Word

/-!
# Durations

Spans of time in whole nanoseconds. A number of seconds is converted by
rounding its exact value once, a half going to the even nanosecond; the seconds
of a duration must fit in sixty-four bits.

## Main definitions

* `Duration`: Nanoseconds, which can be added.
* `Duration.ofSeconds?`: From a number of seconds, if representable.
* `Duration.seconds`: Back to a number of seconds.
-/

namespace OuterApprox

/-- A span of time. -/
@[ext]
structure Duration where
  /-- Its length in nanoseconds. -/
  nanoseconds : Nat
  deriving DecidableEq, Repr

namespace Duration

/-- Nanoseconds in a second. -/
def perSecond : Nat := 1000000000

/-- The span of no time. -/
def zero : Duration := ⟨0⟩

instance : Add Duration := ⟨fun a b => ⟨a.nanoseconds + b.nanoseconds⟩⟩

/-- The duration nearest to a number of seconds. A negative or undefined number
    counts as zero; an infinite one, or one of `2 ^ 64` seconds and more, has no
    duration. -/
def ofSeconds? (seconds : Float) : Option Duration :=
  match Decimal.Shape.ofFloat seconds with
  | .undefined => some zero
  | .infinite true => some zero
  | .infinite false => none
  | .finite true _ => some zero
  | .finite false v =>
    let n := Decimal.roundDiv (v.numerator * perSecond) v.denominator
    if n < Word.size * perSecond then some ⟨n⟩ else none

/-- The length in seconds: whole seconds plus the fraction. -/
def seconds {α : Type} [Scalar α] (d : Duration) : α :=
  Scalar.ofNat (d.nanoseconds / perSecond) +
    Scalar.ofNat (d.nanoseconds % perSecond) / 1e9

end Duration

end OuterApprox
