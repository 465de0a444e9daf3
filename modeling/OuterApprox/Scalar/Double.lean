import OuterApprox.Scalar

/-!
# Double-precision scalars

The scalars the loop runs on. Every operation is the IEEE one, so that results
agree bit for bit with any other double-precision evaluation in the same order.

## Main definitions

* `instScalarFloat`: `Float` as scalars.
-/

namespace OuterApprox

/-- Double precision. Integers are converted through the decimal reader, which
    rounds to nearest at every magnitude. -/
instance instScalarFloat : Scalar Float where
  decLt := Float.decLt
  decLe := Float.decLe
  infinity := 1.0 / 0.0
  undefined := 0.0 / 0.0
  isUndefined := Float.isNaN
  isFinite := Float.isFinite
  abs := Float.abs
  round := Float.round
  nearestInt x := x.round.toInt64.toInt
  ofNat n := Float.ofScientific n false 0
  ofInt n := if n < 0 then -(Float.ofScientific n.natAbs false 0)
    else Float.ofScientific n.natAbs false 0

end OuterApprox
