import OuterApprox.Scalar.Double
import OuterApprox.Scalar.Exact
import OuterApprox.Problem.Basic

/-!
# The ends of the order

The one law about scalars that the ledgers rely on. A bound starts at the
infinite value that everything is better than, and moves to a value only if that
is strictly better than the present one. So the starting value is never taken up
again, and "the bound is still infinite" says the same as "nothing was accepted",
provided that nothing lies beyond the infinities. Rounding does not matter for
that: the law holds of double-precision numbers just as it holds of exact ones.

## Main definitions

* `Scalar.ExtremeInfinity`: Nothing is above infinity or below its negative.

## Theorems

* `floatExtreme`, `exactExtreme`: The law for both kinds of scalars.
* `Sense.not_better_worst`: The worst value is better than nothing.
-/

namespace OuterApprox

/-- Nothing lies beyond the infinities. -/
class Scalar.ExtremeInfinity (α : Type) [Scalar α] : Prop where
  /-- Nothing is above infinity. -/
  not_infinity_lt : ∀ a : α, ¬ (Scalar.infinity : α) < a
  /-- Nothing is below negative infinity. -/
  not_lt_neg_infinity : ∀ a : α, ¬ a < -(Scalar.infinity : α)

namespace DoubleOrder

open Float.Model

/-- Doubles are compared by their unpacked forms. -/
theorem lt_iff_unpack (a b : Float) :
    a < b ↔ a.toModel.unpack.lt b.toModel.unpack = true := by
  change Float.lt a b = true ↔ _
  exact decide_eq_true_iff

/-- Infinity is unpacked to an infinity with its sign. -/
theorem unpack_infinity :
    (Scalar.infinity : Float).toModel.unpack = .infinity .positive := rfl

theorem unpack_neg_infinity :
    (-(Scalar.infinity : Float)).toModel.unpack = .infinity .negative := rfl

/-- Nothing is above infinity, whatever its kind. -/
theorem infinity_lt_eq_false (u : UnpackedFloat) :
    (UnpackedFloat.infinity .positive).lt u = false := by
  cases u with
  | infinity s => cases s <;> decide
  | notANumber => rfl
  | zero s => rfl
  | finite s m e h => rfl

/-- Nothing is below minus infinity. -/
theorem lt_neg_infinity_eq_false (u : UnpackedFloat) :
    u.lt (UnpackedFloat.infinity .negative) = false := by
  cases u with
  | infinity s => cases s <;> decide
  | notANumber => rfl
  | zero s => rfl
  | finite s m e h => rfl

end DoubleOrder

instance floatExtreme : Scalar.ExtremeInfinity Float where
  not_infinity_lt a h := by
    rw [DoubleOrder.lt_iff_unpack, DoubleOrder.unpack_infinity,
      DoubleOrder.infinity_lt_eq_false] at h
    exact Bool.false_ne_true h
  not_lt_neg_infinity a h := by
    rw [DoubleOrder.lt_iff_unpack, DoubleOrder.unpack_neg_infinity,
      DoubleOrder.lt_neg_infinity_eq_false] at h
    exact Bool.false_ne_true h

instance exactExtreme : Scalar.ExtremeInfinity Exact where
  not_infinity_lt a h := by
    cases a with
    | finite q => exact Bool.false_ne_true h
    | infinite s => cases s <;> exact Bool.false_ne_true h
    | undefined => exact Bool.false_ne_true h
  not_lt_neg_infinity a h := by
    cases a with
    | finite q => exact Bool.false_ne_true h
    | infinite s => cases s <;> exact Bool.false_ne_true h
    | undefined => exact Bool.false_ne_true h

/-- The worst value of a sense is better than nothing. -/
theorem Sense.not_better_worst {α : Type} [Scalar α] [Scalar.ExtremeInfinity α]
    (sense : Sense) (b : α) : sense.better sense.worst b = false := by
  cases sense with
  | minimize => exact decide_eq_false (Scalar.ExtremeInfinity.not_infinity_lt b)
  | maximize => exact decide_eq_false (Scalar.ExtremeInfinity.not_lt_neg_infinity b)

end OuterApprox
