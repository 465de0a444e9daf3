import OuterApprox.Decimal.Rounded

/-!
# Shortest decimal texts

The fewest digits that identify a double: among all decimals that lie in the
interval of reals rounding to it, one with the least number of digits, and of
those the nearest. The interval ends halfway to the neighbouring doubles; its
ends belong to it when the mantissa is even, because a tie in reading goes to
the even mantissa. On a given decimal grid only the two neighbours of the value
can be nearest, so only those are tried.

## Main definitions

* `Magnitude.holds`: Whether a decimal reads back as the magnitude.
* `shortest`: The digits and the exponent of the last one.
* `exponential`: Shortest digits with an exponent.
* `general`: Shortest digits, positional for moderate exponents.
-/

namespace OuterApprox

namespace Decimal

namespace Magnitude

/-- Whether the next smaller magnitude is half as far away as the next larger
    one: at a power of two, unless the exponent is already the least. -/
def isPowerEdge (v : Magnitude) : Bool :=
  v.mantissa == twoTo 52 && decide (-1074 < v.exponent)

/-- Whether `digits * 10 ^ k` lies in the interval of reals that round to the
    magnitude. All three numbers are compared in quarters of a unit of the
    last binary place. -/
def holds (v : Magnitude) (digits : Nat) (k : Int) : Bool :=
  let (num, den) := scaleTen (4 * digits * v.denominator) (twoTo v.exponent.toNat) k
  let low := 4 * v.mantissa - (if v.isPowerEdge then 1 else 2)
  let high := 4 * v.mantissa + 2
  if v.mantissa % 2 = 0 then decide (low * den ≤ num) && decide (num ≤ high * den)
  else decide (low * den < num) && decide (num < high * den)

end Magnitude

/-- On the grid of multiples of `10 ^ k`, the neighbour of the value that reads
    back. Of two, the nearer; halfway, the larger. -/
def onGrid (v : Magnitude) (k : Int) : Option Nat :=
  -- The value in units of the grid lies between `below` and its successor.
  let (num, den) := scaleTen v.numerator v.denominator (-k)
  let below := num / den
  match v.holds below k, v.holds (below + 1) k with
  | true, true => some (if 2 * (num % den) < den then below else below + 1)
  | true, false => some below
  | false, true => some (below + 1)
  | false, false => none

/-- Try finer and finer grids, at most `fuel` of them. Seventeen digits always
    identify a double, so the fuel never runs out before a hit. -/
def shortestFrom (v : Magnitude) : Nat → Int → Nat × Int
  | 0, k => (0, k)
  | fuel + 1, k =>
    match onGrid v k with
    | some d => (d, k)
    | none => shortestFrom v fuel (k - 1)

/-- The shortest digits of a magnitude and the exponent of the last digit. -/
def shortest (v : Magnitude) : Nat × Int :=
  if v.mantissa = 0 then (0, 0)
  else shortestFrom v 18 (floorLog v.numerator v.denominator)

/-- Remove trailing zeros, at most `fuel` of them. -/
def trimZeros : Nat → Nat × Int → Nat × Int
  | 0, p => p
  | fuel + 1, (d, k) => if d % 10 = 0 then trimZeros fuel (d / 10, k + 1) else (d, k)

/-- The shortest digits without trailing zeros, and the exponent of the last. -/
def significand (v : Magnitude) : Nat × Int :=
  if v.mantissa = 0 then (0, 0) else trimZeros 18 (shortest v)

/-- A mantissa with one digit before the point, and an exponent. -/
def exponentialDigits (d : Nat) (k : Int) : String :=
  let n := digitCount d
  pointed (n - 1) d ++ "e" ++ toString (k + (n - 1 : Nat))

/-- Shortest digits with a decimal exponent. -/
def exponential (x : Float) : String :=
  match Shape.ofFloat x with
  | .undefined => undefinedText
  | .infinite negative => infiniteText negative
  | .finite negative v =>
    let (d, k) := significand v
    signText negative ++ exponentialDigits d k

/-- Digits written positionally, with at least one place after the point. -/
def positional (d : Nat) (k : Int) : String :=
  if 0 ≤ k then paddedDigits 1 (d * tenTo k.toNat) ++ ".0"
  else pointed (-k).toNat d

/-- Shortest digits: positional from `1e-4` up to but not including `1e16`, with
    an exponent outside, and zero positional. -/
def general (x : Float) : String :=
  match Shape.ofFloat x with
  | .undefined => undefinedText
  | .infinite negative => infiniteText negative
  | .finite negative v =>
    let (d, k) := significand v
    let e := k + (digitCount d - 1 : Nat)
    signText negative ++
      (if d = 0 then "0.0"
        else if -4 ≤ e && decide (e < 16) then positional d k
        else exponentialDigits d k)

end Decimal

end OuterApprox
