import OuterApprox.Proofs.DoubleRounding
import OuterApprox.Proofs.ExactArithmetic

/-!
# The order of bounds

The laws of the order that a comparison of a primal bound with a dual one rests
on. They are stated for both senses at once, with `Sense.better` in the place of
the order, and hold of double-precision numbers as well as of exact ones: none of
them needs a sum to be exact. The one that takes work is that an improvement by
something that is not negative makes nothing worse, and for doubles that is
`DoubleOrder.lt_of_lt_sub`.

## Main definitions

* `Scalar.BoundOrder`: The laws.

## Theorems

* `floatBoundOrder`, `exactBoundOrder`: The laws for both kinds of scalars.
* `Sense.not_better_best`: Nothing is better than the best value.
* `Sense.better_worst_of_better`: What is better than anything is better than the
  worst value.
-/

namespace OuterApprox

/-- The order of the scalars, as far as bounds are concerned. -/
class Scalar.BoundOrder (α : Type) [Scalar α] : Prop extends Scalar.ExtremeInfinity α where
  /-- Nothing is better than itself. -/
  better_irrefl : ∀ (sense : Sense) (a : α), sense.better a a = false
  /-- What is better than an improved value is better than the value. -/
  better_of_improve : ∀ (sense : Sense) {a b t : α}, 0.0 ≤ t →
    sense.better a (sense.improve b t) = true → sense.better a b = true
  /-- What compares at all is defined. -/
  defined_of_better : ∀ (sense : Sense) {a b : α}, sense.better a b = true →
    Scalar.isUndefined a = false ∧ Scalar.isUndefined b = false
  /-- Everything that is defined is better than the worst value, which is itself defined. -/
  defined_iff : ∀ (sense : Sense) (a : α), Scalar.isUndefined a = false ↔
    a = sense.worst ∨ sense.better a sense.worst = true
  /-- The ends of the order differ. -/
  best_better_worst : ∀ sense : Sense, sense.better (sense.best : α) sense.worst = true
  /-- What is not finite is at an end of the order or undefined. -/
  cases_of_not_finite : ∀ (sense : Sense) {a : α}, Scalar.isFinite a = false →
    a = sense.best ∨ a = sense.worst ∨ Scalar.isUndefined a = true
  /-- The ends of the order are not finite. -/
  isFinite_worst : ∀ sense : Sense, Scalar.isFinite (sense.worst : α) = false
  /-- A finite amount does not improve the worst value. -/
  improve_worst : ∀ (sense : Sense) {t : α}, 0.0 ≤ t → Scalar.isFinite t = true →
    sense.improve sense.worst t = sense.worst
  /-- An infinite amount takes the worst value out of the order. -/
  improve_worst_undefined : ∀ (sense : Sense) {t : α}, 0.0 ≤ t → Scalar.isFinite t = false →
    Scalar.isUndefined (sense.improve sense.worst t) = true

/-- Nothing is better than the best value. -/
theorem Sense.not_better_best {α : Type} [Scalar α] [Scalar.ExtremeInfinity α]
    (sense : Sense) (a : α) : sense.better a sense.best = false := by
  cases sense with
  | minimize => exact decide_eq_false (Scalar.ExtremeInfinity.not_lt_neg_infinity a)
  | maximize => exact decide_eq_false (Scalar.ExtremeInfinity.not_infinity_lt a)

/-- What is better than anything is better than the worst value. -/
theorem Sense.better_worst_of_better {α : Type} [Scalar α] [Scalar.BoundOrder α]
    (sense : Sense) {a b : α} (h : sense.better a b = true) :
    sense.better a sense.worst = true := by
  have hdefined := (Scalar.BoundOrder.defined_of_better sense h).1
  rcases (Scalar.BoundOrder.defined_iff sense a).1 hdefined with heq | hbetter
  · rw [heq, Sense.not_better_worst] at h
    exact nomatch h
  · exact hbetter

namespace DoubleOrder

open Float.Model Float.Model.UnpackedFloat

/-- A double that is a number is below infinity or is infinity. -/
theorem lt_infinity_or_eq {a : Float} (h : a.isNaN = false) :
    a = Scalar.infinity ∨ a < Scalar.infinity := by
  rw [lt_iff_unpack, unpack_infinity]
  change a.toModel.unpack.isNaN = false at h
  cases hu : a.toModel.unpack with
  | infinity s =>
    cases s with
    | negative => exact .inr rfl
    | positive => exact .inl (congrArg Float.ofModel (eq_pack_infinity hu))
  | notANumber => rw [hu] at h; exact nomatch h
  | zero s => exact .inr rfl
  | finite s m e hm => exact .inr rfl

/-- A double that is a number is above minus infinity or is minus infinity. -/
theorem neg_infinity_lt_or_eq {a : Float} (h : a.isNaN = false) :
    a = -Scalar.infinity ∨ -Scalar.infinity < a := by
  rw [lt_iff_unpack, unpack_neg_infinity]
  change a.toModel.unpack.isNaN = false at h
  cases hu : a.toModel.unpack with
  | infinity s =>
    cases s with
    | negative => exact .inl (congrArg Float.ofModel (eq_pack_infinity hu))
    | positive => exact .inr rfl
  | notANumber => rw [hu] at h; exact nomatch h
  | zero s => exact .inr rfl
  | finite s m e hm => exact .inr rfl

/-- A double that is not finite is an infinity or no number. -/
theorem cases_of_not_finite {a : Float} (h : a.isFinite = false) :
    a = Scalar.infinity ∨ a = -Scalar.infinity ∨ a.isNaN = true := by
  change a.toModel.unpack.isFinite = false at h
  change _ ∨ _ ∨ a.toModel.unpack.isNaN = true
  cases hu : a.toModel.unpack with
  | infinity s =>
    have ha : a = Float.ofModel (Float.Model.pack (.infinity s)) :=
      congrArg Float.ofModel (eq_pack_infinity hu)
    cases s with
    | negative => exact .inr (.inl ha)
    | positive => exact .inl ha
  | notANumber => exact .inr (.inr rfl)
  | zero s => rw [hu] at h; exact nomatch h
  | finite s m e hm => rw [hu] at h; exact nomatch h

/-- Doubles that compare are numbers. -/
theorem defined_of_better (sense : Sense) {a b : Float} (h : sense.better a b = true) :
    a.isNaN = false ∧ b.isNaN = false := by
  cases sense with
  | minimize =>
    have hlt := (lt_iff_position a b).1 (of_decide_eq_true h)
    exact ⟨hlt.1, hlt.2.1⟩
  | maximize =>
    have hlt := (lt_iff_position b a).1 (of_decide_eq_true h)
    exact ⟨hlt.2.1, hlt.1⟩

/-- Infinity less a finite double is infinity. -/
theorem infinity_sub {t : Float} (h : t.isFinite = true) :
    (Scalar.infinity : Float) - t = Scalar.infinity := by
  change t.toModel.unpack.isFinite = true at h
  change Float.ofModel (Float.Model.pack
    (UnpackedFloat.sub Format.binary64 (.infinity .positive) t.toModel.unpack)) = _
  -- The case analysis is that of the subtraction, on the second operand.
  cases hu : t.toModel.unpack with
  | infinity s => rw [hu] at h; exact nomatch h
  | notANumber => rw [hu] at h; exact nomatch h
  | zero s => rfl
  | finite s m e hm => rfl

/-- Minus infinity and a finite double is minus infinity. -/
theorem neg_infinity_add {t : Float} (h : t.isFinite = true) :
    -(Scalar.infinity : Float) + t = -Scalar.infinity := by
  change t.toModel.unpack.isFinite = true at h
  change Float.ofModel (Float.Model.pack
    (UnpackedFloat.add Format.binary64 (.infinity .negative) t.toModel.unpack)) = _
  cases hu : t.toModel.unpack with
  | infinity s => rw [hu] at h; exact nomatch h
  | notANumber => rw [hu] at h; exact nomatch h
  | zero s => rfl
  | finite s m e hm => rfl

/-- The only amount that is not negative and not finite is infinity. -/
theorem eq_infinity_of_nonneg {t : Float} (hpos : 0.0 ≤ t) (hinf : t.isFinite = false) :
    t = Scalar.infinity := by
  rcases cases_of_not_finite hinf with rfl | rfl | hnan
  · rfl
  · exact absurd hpos (by decide)
  -- A double that is no number is not above zero either.
  · change t.toModel.unpack.isNaN = true at hnan
    change Float.le 0.0 t = true at hpos
    have hle : (UnpackedFloat.zero .positive).le t.toModel.unpack = true := of_decide_eq_true hpos
    cases hu : t.toModel.unpack with
    | notANumber => rw [hu] at hle; exact nomatch hle
    | infinity s => rw [hu] at hnan; exact nomatch hnan
    | zero s => rw [hu] at hnan; exact nomatch hnan
    | finite s m e hm => rw [hu] at hnan; exact nomatch hnan

end DoubleOrder

instance floatBoundOrder : Scalar.BoundOrder Float where
  better_irrefl sense a := by
    have hirrefl : ¬ a < a := fun h => lt_irrefl _ ((DoubleOrder.lt_iff_position a a).1 h).2.2
    cases sense <;> exact decide_eq_false hirrefl
  better_of_improve sense {a b t} ht h := by
    cases sense with
    | minimize => exact decide_eq_true (DoubleOrder.lt_of_lt_sub ht (of_decide_eq_true h))
    | maximize => exact decide_eq_true (DoubleOrder.lt_of_add_lt ht (of_decide_eq_true h))
  defined_of_better sense {a b} h := DoubleOrder.defined_of_better sense h
  defined_iff sense a := by
    constructor
    · intro h
      cases sense with
      | minimize => exact (DoubleOrder.lt_infinity_or_eq h).imp_right decide_eq_true
      | maximize => exact (DoubleOrder.neg_infinity_lt_or_eq h).imp_right decide_eq_true
    · rintro (rfl | h)
      · cases sense <;> rfl
      · exact (DoubleOrder.defined_of_better sense h).1
  best_better_worst sense := by cases sense <;> decide
  cases_of_not_finite sense {a} h := by
    rcases DoubleOrder.cases_of_not_finite h with rfl | rfl | hnan
    · cases sense with
      | minimize => exact .inr (.inl rfl)
      | maximize => exact .inl rfl
    · cases sense with
      | minimize => exact .inl rfl
      | maximize => exact .inr (.inl rfl)
    · exact .inr (.inr hnan)
  isFinite_worst sense := by cases sense <;> rfl
  improve_worst sense {t} _ h := by
    cases sense with
    | minimize => exact DoubleOrder.infinity_sub h
    | maximize => exact DoubleOrder.neg_infinity_add h
  improve_worst_undefined sense {t} hpos h := by
    rw [DoubleOrder.eq_infinity_of_nonneg hpos h]
    cases sense <;> rfl

namespace Exact

/-- No exact value is below itself. -/
theorem not_lt_self (a : Exact) : ¬ a < a := by
  cases a with
  | finite q => exact fun h => lt_irrefl q ((finite_lt q q).1 h)
  | infinite s => cases s <;> exact Bool.false_ne_true
  | undefined => exact Bool.false_ne_true

/-- Exact values that compare are defined. -/
theorem defined_of_lt {a b : Exact} (h : a < b) :
    Scalar.isUndefined a = false ∧ Scalar.isUndefined b = false := by
  rcases a with q | ⟨_ | _⟩ | _ <;> rcases b with r | ⟨_ | _⟩ | _ <;>
    first | exact ⟨rfl, rfl⟩ | exact absurd h Bool.false_ne_true

-- What is not negative is a number or infinity, and a difference with infinity is below
-- nothing but infinity.
theorem lt_of_lt_sub {a b t : Exact} (ht : 0.0 ≤ t) (h : a < b - t) : a < b := by
  rw [zero_eq] at ht
  rcases t with t | ⟨_ | _⟩ | _
  · rcases b with b | s | _
    · rcases a with a | ⟨_ | _⟩ | _
      · rw [finite_sub, finite_lt] at h
        rw [finite_le] at ht
        rw [finite_lt]
        linarith
      · exact h
      · exact h
      · exact h
    · exact h
    · exact h
  · rcases b with b | ⟨_ | _⟩ | _
    · exact absurd h (Scalar.ExtremeInfinity.not_lt_neg_infinity a)
    · rcases a with a | ⟨_ | _⟩ | _ <;> exact absurd h Bool.false_ne_true
    · exact h
    · exact h
  · exact absurd ht Bool.false_ne_true
  · exact absurd ht Bool.false_ne_true

/-- The same for a sum, which is above nothing but minus infinity where it is infinite. -/
theorem lt_of_add_lt {a b t : Exact} (ht : 0.0 ≤ t) (h : b + t < a) : b < a := by
  rw [zero_eq] at ht
  rcases t with t | ⟨_ | _⟩ | _
  · rcases b with b | s | _
    · rcases a with a | ⟨_ | _⟩ | _
      · rw [finite_add, finite_lt] at h
        rw [finite_le] at ht
        rw [finite_lt]
        -- Three numbers: this is the law of the rationals.
        linarith
      · exact h
      · exact h
      · exact h
    · exact h
    · exact h
  · rcases b with b | ⟨_ | _⟩ | _
    · exact absurd h (Scalar.ExtremeInfinity.not_infinity_lt a)
    · exact h
    · rcases a with a | ⟨_ | _⟩ | _ <;> exact absurd h Bool.false_ne_true
    · exact h
  · exact absurd ht Bool.false_ne_true
  · exact absurd ht Bool.false_ne_true

end Exact

instance exactBoundOrder : Scalar.BoundOrder Exact where
  better_irrefl sense a := by
    cases sense <;> exact decide_eq_false (Exact.not_lt_self a)
  better_of_improve sense {a b t} ht h := by
    cases sense with
    | minimize => exact decide_eq_true (Exact.lt_of_lt_sub ht (of_decide_eq_true h))
    | maximize => exact decide_eq_true (Exact.lt_of_add_lt ht (of_decide_eq_true h))
  defined_of_better sense {a b} h := by
    cases sense with
    | minimize => exact Exact.defined_of_lt (of_decide_eq_true h)
    | maximize => exact (Exact.defined_of_lt (of_decide_eq_true h)).symm
  defined_iff sense a := by
    rcases a with q | ⟨_ | _⟩ | _
    · exact ⟨fun _ => .inr (by cases sense <;> rfl), fun _ => rfl⟩
    all_goals cases sense <;> decide
  best_better_worst sense := by cases sense <;> rfl
  cases_of_not_finite sense {a} h := by
    rcases a with q | ⟨_ | _⟩ | _
    · exact nomatch h
    · cases sense with
      | minimize => exact .inr (.inl rfl)
      | maximize => exact .inl rfl
    · cases sense with
      | minimize => exact .inl rfl
      | maximize => exact .inr (.inl rfl)
    · exact .inr (.inr rfl)
  isFinite_worst sense := by cases sense <;> rfl
  improve_worst sense {t} _ h := by
    rw [Exact.eq_finite h]
    cases sense <;> rfl
  improve_worst_undefined sense {t} hpos h := by
    rw [Exact.zero_eq] at hpos
    rcases t with q | ⟨_ | _⟩ | _
    · exact nomatch h
    · cases sense <;> rfl
    · exact absurd hpos Bool.false_ne_true
    · exact absurd hpos Bool.false_ne_true

end OuterApprox
