import OuterApprox.Decimal.Magnitude

/-!
# Rounded decimal texts

Numbers written with a given number of digits: a fixed number of places after
the point, or a mantissa with a fixed number of places and a decimal exponent.
Both round the exact value once, a half going to the even digit. Infinities and
the undefined value are written by name, and every negative number keeps its
sign, negative zero included.

## Main definitions

* `fixed`: A fixed number of places.
* `scientific`: A mantissa with a fixed number of places, and an exponent.
-/

namespace OuterApprox

namespace Decimal

/-- The sign in front of a number's digits. -/
def signText (negative : Bool) : String := if negative then "-" else ""

/-- The text of a value that has no digits. -/
def infiniteText (negative : Bool) : String := signText negative ++ "inf"

/-- The text of the undefined value. -/
def undefinedText : String := "NaN"

/-- The digits of `n`, with zeros in front up to `width`. -/
def paddedDigits (width n : Nat) : String :=
  let ds := Nat.toDigits 10 n
  String.ofList (List.replicate (width - ds.length) '0' ++ ds)

/-- The digits of `n` with a point before the last `places` of them. -/
def pointed (places n : Nat) : String :=
  if places = 0 then paddedDigits 1 n
  else paddedDigits 1 (n / tenTo places) ++ "." ++ paddedDigits places (n % tenTo places)

/-- A number with `places` digits after the point. -/
def fixed (places : Nat) (x : Float) : String :=
  match Shape.ofFloat x with
  | .undefined => undefinedText
  | .infinite negative => infiniteText negative
  | .finite negative v =>
    signText negative ++
      pointed places (roundDiv (v.numerator * tenTo places) v.denominator)

/-- The mantissa with `places` digits after its point, as a natural number, and
    the decimal exponent. Rounding up to the next power of ten moves the point. -/
def scientificDigits (places : Nat) (v : Magnitude) : Nat × Int :=
  if v.mantissa = 0 then (0, 0)
  else
    let e := floorLog v.numerator v.denominator
    let (num, den) := scaleTen v.numerator v.denominator (places - e)
    let d := roundDiv num den
    -- Rounding up can reach the next power of ten, which has one digit more.
    if d = tenTo (places + 1) then (tenTo places, e + 1) else (d, e)

/-- A number as a mantissa with `places` digits after the point and a decimal
    exponent. -/
def scientific (places : Nat) (x : Float) : String :=
  match Shape.ofFloat x with
  | .undefined => undefinedText
  | .infinite negative => infiniteText negative
  | .finite negative v =>
    let (d, e) := scientificDigits places v
    signText negative ++ pointed places d ++ "e" ++ toString e

end Decimal

end OuterApprox
