/-!
# Magnitudes of doubles

A finite double is a sign and a magnitude `m * 2 ^ q` with natural `m`. Every
decimal text in this library is computed from the magnitude in exact natural
arithmetic: no power of ten is ever rounded, so a tie in a text is a tie of the
value itself.

## Main definitions

* `twoTo`, `tenTo`: Powers.
* `Magnitude`: A mantissa and a binary exponent.
* `Shape`, `Shape.ofFloat`: What a double holds.
* `Magnitude.numerator`, `Magnitude.denominator`: The value as a fraction.
* `roundDiv`: The nearest natural to a fraction, a half going to the even one.
* `floorLog`: The decimal exponent of a positive fraction.
-/

namespace OuterApprox

namespace Decimal

/-- A power of two. -/
def twoTo (n : Nat) : Nat := Nat.pow 2 n

/-- A power of ten. -/
def tenTo (n : Nat) : Nat := Nat.pow 10 n

/-- The nonnegative number `mantissa * 2 ^ exponent`. -/
structure Magnitude where
  /-- The integral factor. -/
  mantissa : Nat
  /-- The power of two it is scaled by. -/
  exponent : Int

/-- What a double holds. -/
inductive Shape where
  /-- No number. -/
  | undefined
  /-- An infinity. -/
  | infinite (negative : Bool)
  /-- A signed magnitude; zero has a sign too. -/
  | finite (negative : Bool) (magnitude : Magnitude)

/-- Read the three fields of a double: the sign, eleven bits of biased exponent
    and fifty-two bits of fraction. A subnormal has no hidden bit. -/
def Shape.ofFloat (x : Float) : Shape :=
  let bits := x.toBits.toNat
  let negative := bits / twoTo 63 == 1
  let biased : Nat := bits / twoTo 52 % twoTo 11
  let fraction : Nat := bits % twoTo 52
  if biased = 2047 then
    if fraction = 0 then .infinite negative else .undefined
  else if biased = 0 then
    .finite negative ⟨fraction, -1074⟩
  else
    .finite negative ⟨twoTo 52 + fraction, (biased : Int) - 1075⟩

namespace Magnitude

/-- The numerator of the magnitude as a fraction. -/
def numerator (v : Magnitude) : Nat := v.mantissa * twoTo v.exponent.toNat

/-- The denominator of the magnitude as a fraction, a power of two. -/
def denominator (v : Magnitude) : Nat := twoTo (-v.exponent).toNat

end Magnitude

/-- The natural number nearest to `num / den`; a half goes to the even one. -/
def roundDiv (num den : Nat) : Nat :=
  let q := num / den
  let r := num % den
  if 2 * r < den then q
  else if den < 2 * r then q + 1
  else if q % 2 = 0 then q else q + 1

/-- The number of decimal digits of `n`; zero has one. -/
def digitCount (n : Nat) : Nat := (Nat.toDigits 10 n).length

/-- The exponent `e` with `10 ^ e ≤ num / den < 10 ^ (e + 1)`, for a positive
    fraction. Below one, `10 ^ e` is the first power that the reciprocal,
    rounded up, does not exceed. -/
def floorLog (num den : Nat) : Int :=
  if den ≤ num then (digitCount (num / den) : Int) - 1
  else -(digitCount ((den + num - 1) / num - 1) : Int)

/-- The fraction `num / den` times `10 ^ k`, as a numerator and denominator. -/
def scaleTen (num den : Nat) (k : Int) : Nat × Nat :=
  (num * tenTo k.toNat, den * tenTo (-k).toNat)

end Decimal

end OuterApprox
