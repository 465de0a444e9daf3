import OuterApprox.Proofs.Normalizing
import OuterApprox.Proofs.Reflection

/-!
# Margins

Two things are made of a single number. Its negative and itself are the ends of an interval
around zero, which is empty if the number is negative and no interval at all if it is undefined.
And a bound is made worse by it, to have a margin behind the bound. Neither needs more than the
sign of the number, as long as that is known: a quotient of two positive numbers might have none,
being undefined if both are infinite, and a negative margin may be so small that rounding loses it.

## Main definitions

* `Scalar.MarginOrder`: The laws.

## Theorems

* `DoubleOrder.units_div_nonneg_iff`: Quotients of positive doubles.
* `DoubleOrder.isNaN_add`: Sums that are numbers.
* `floatMarginOrder`, `exactMarginOrder`: The laws for both kinds of scalars.
* `Sense.asGood_worsen_iff`: When a bound is as good as what is made from it.
-/

namespace OuterApprox

/-- An order of numbers, as far as intervals around zero and margins are concerned. -/
class Scalar.MarginOrder (α : Type) [Scalar α] : Prop extends Scalar.NumberOrder α where
  /-- What is at least its negative is not negative. -/
  neg_le_self_iff : ∀ a : α, -a ≤ a ↔ 0.0 ≤ a
  /-- A positive number is not negative over one that is at least one, unless both are
  infinite. -/
  nonneg_div_iff : ∀ {u s : α}, 0.0 < u → 1.0 ≤ s →
    (0.0 ≤ u / s ↔ Scalar.isFinite u = true ∨ Scalar.isFinite s = true)
  /-- What is finite is a number. -/
  defined_of_isFinite : ∀ {a : α}, Scalar.isFinite a = true → Scalar.isUndefined a = false
  /-- A finite number with a margin is a number. -/
  defined_worsen : ∀ (sense : Sense) {a t : α}, Scalar.isFinite a = true → 0.0 ≤ t →
    Scalar.isUndefined (sense.worsen a t) = false
  /-- What is no margin makes nothing worse. -/
  not_better_of_no_margin : ∀ (sense : Sense) {a t : α}, ¬ 0.0 ≤ t →
    sense.better a (sense.worsen a t) = false

namespace DoubleOrder

open Float.Model Float.Model.UnpackedFloat

theorem isNaN_of_isFinite {x : UnpackedFloat} (h : x.isFinite = true) : x.isNaN = false := by
  cases x with
  | notANumber => exact absurd h Bool.false_ne_true
  | infinity s | zero s | finite s m e hm => rfl

theorem neg_le_self_iff (a : Float) : -a ≤ a ↔ 0.0 ≤ a := by
  rw [le_iff_position, le_iff_position, isNaN_neg, position_neg, position_zero]
  constructor
  · rintro ⟨ha, -, hle⟩
    exact ⟨rfl, ha, by omega⟩
  · rintro ⟨-, ha, hle⟩
    exact ⟨ha, ha, by omega⟩

/-- A positive number over another one is not negative, unless both are infinite. -/
theorem units_div_nonneg_iff {x y : UnpackedFloat} (hx : InFormat x) (hy : InFormat y)
    (hxpos : 0 < units x) (hypos : 0 < units y) :
    (stored (UnpackedFloat.div Format.binary64 x y)).isNaN = false ∧
        0 ≤ units (stored (UnpackedFloat.div Format.binary64 x y)) ↔
      x.isFinite = true ∨ y.isFinite = true := by
  -- Infinite or finite, on both sides of the quotient.
  rcases cases_of_units_pos hx hxpos with rfl | ⟨m, e, hm, rfl, hrep⟩ <;>
    rcases cases_of_units_pos hy hypos with rfl | ⟨n, f, hn, rfl, hrep'⟩
  · rw [show UnpackedFloat.div Format.binary64 (.infinity .positive) (.infinity .positive) =
      .notANumber from rfl, stored_notANumber]
    exact iff_of_false (fun h => Bool.false_ne_true h.1.symm)
      (fun h => h.elim Bool.false_ne_true Bool.false_ne_true)
  · rw [show UnpackedFloat.div Format.binary64 (.infinity .positive) (.finite .positive n f hn) =
      .infinity .positive from rfl, stored_infinity]
    exact iff_of_true ⟨rfl, hxpos.le⟩ (.inr rfl)
  · rw [show UnpackedFloat.div Format.binary64 (.finite .positive m e hm) (.infinity .positive) =
      .zero .positive from rfl, stored_zero]
    exact iff_of_true ⟨rfl, le_rfl⟩ (.inl rfl)
  · refine iff_of_true ?_ (.inl rfl)
    -- The quotient may be too small for a double, and then it is zero.
    rcases div_finite .positive .positive hm hn hrep.exponent hrep'.exponent with
      ⟨-, hdiv⟩ | ⟨m', e', h, hdiv, hrep''⟩
    · rw [hdiv, stored_zero]
      exact ⟨rfl, le_rfl⟩
    · rw [hdiv]
      refine ⟨isNaN_stored _ e' h, ?_⟩
      rw [units_stored _ h hrep'']
      exact Int.natCast_nonneg _

theorem nonneg_div_iff {u s : Float} (hu : 0.0 < u) (hs : 1.0 ≤ s) :
    0.0 ≤ u / s ↔ u.isFinite = true ∨ s.isFinite = true := by
  obtain ⟨-, -, hu⟩ := (lt_iff_position _ _).1 hu
  obtain ⟨-, -, hs⟩ := (le_iff_position _ _).1 hs
  rw [position_one] at hs
  have hspos : 0 < position s := lt_of_lt_of_le (Int.natCast_pos.2 (magnitude_pos 0 (by decide))) hs
  rw [le_iff_position]
  exact (and_iff_right rfl).trans
    (units_div_nonneg_iff (inFormat_unpack u.toModel) (inFormat_unpack s.toModel) hu hspos)

theorem isNaN_normalize (n : Int) {e : Int} (he : -1074 ≤ e) :
    (stored (UnpackedFloat.normalize Format.binary64 n e .positive)).isNaN = false := by
  have hround : ∀ (s : Sign) {m : Nat}, 0 < m →
      (stored (UnpackedFloat.round Format.binary64 s m e)).isNaN = false := by
    intro s m hm
    obtain ⟨m', e', h, hround, -⟩ := exists_round s hm he
    rw [hround]
    exact isNaN_stored s e' h
  rcases lt_trichotomy n 0 with hneg | rfl | hpos
  · simp only [UnpackedFloat.normalize, compare_lt_iff_lt.2 hneg]
    exact hround .negative (Int.pos_iff_toNat_pos.1 (neg_pos.2 hneg))
  · simp only [UnpackedFloat.normalize, compare_eq_iff_eq.2 (rfl : (0 : Int) = 0)]
    rfl
  · simp only [UnpackedFloat.normalize, compare_gt_iff_gt.2 hpos]
    exact hround .positive (Int.pos_iff_toNat_pos.1 hpos)

/-- A sum with a finite number is a number if the other operand is. -/
theorem isNaN_add {x y : UnpackedFloat} (hx : InFormat x) (hy : InFormat y)
    (hfin : x.isFinite = true) :
    (stored (UnpackedFloat.add Format.binary64 x y)).isNaN = y.isNaN := by
  -- An operand that is passed on is the sum, and it is a number if the second one is.
  have hsame : ∀ u, InFormat u → UnpackedFloat.add Format.binary64 x y = u →
      u.isNaN = y.isNaN → (stored (UnpackedFloat.add Format.binary64 x y)).isNaN = y.isNaN := by
    rintro u hu rfl hnan
    rw [stored_of_inFormat hu, hnan]
  cases x with
  | notANumber | infinity s => exact absurd hfin Bool.false_ne_true
  | zero s =>
      cases y with
      | notANumber | infinity t | finite t n f k => exact hsame _ hy rfl rfl
      | zero t => cases s <;> cases t <;> rfl
  | finite s m e h =>
      cases y with
      | notANumber | infinity t => exact hsame _ hy rfl rfl
      | zero t => exact hsame _ hx rfl rfl
      | finite t n f k => exact isNaN_normalize _ (le_min hx.1.exponent hy.1.exponent)

theorem isNaN_add_notANumber (x : UnpackedFloat) {y : UnpackedFloat} (h : y.isNaN = true) :
    (stored (UnpackedFloat.add Format.binary64 x y)).isNaN = true := by
  cases y with
  | notANumber =>
      rw [add_notANumber, stored_notANumber]
      rfl
  | infinity t | zero t | finite t n f k => exact absurd h Bool.false_ne_true

/-- Nothing is below its sum with what is not a margin. -/
theorem not_lt_add_self {a t : Float} (ht : ¬ 0.0 ≤ t) : ¬ a < a + t := by
  intro hlt
  obtain ⟨-, hdef, hpos⟩ := (lt_iff_position _ _).1 hlt
  have hnum : t.isNaN = false := by
    by_contra hnan
    have hsum := isNaN_add_notANumber a.toModel.unpack (Bool.not_eq_false _ ▸ hnan)
    exact Bool.false_ne_true (hdef.symm.trans hsum)
  have hneg : position t ≤ 0 := by
    by_contra hc
    exact ht ((le_iff_position _ _).2 ⟨rfl, hnum, by rw [position_zero]; omega⟩)
  -- To add what is not positive rounds to no more than the other operand.
  obtain ⟨-, -, hle⟩ := units_add (inFormat_unpack a.toModel) (inFormat_unpack t.toModel) hdef
  exact absurd hpos (not_lt.2 (hle (by unfold position at hneg; omega)))

theorem isNaN_add_of_isFinite {a : Float} (ha : a.isFinite = true) (t : Float) :
    (a + t).isNaN = t.isNaN :=
  isNaN_add (inFormat_unpack a.toModel) (inFormat_unpack t.toModel) ha

end DoubleOrder

open DoubleOrder in
instance floatMarginOrder : Scalar.MarginOrder Float where
  neg_le_self_iff := DoubleOrder.neg_le_self_iff
  nonneg_div_iff := DoubleOrder.nonneg_div_iff
  defined_of_isFinite h := isNaN_of_isFinite h
  defined_worsen sense {a t} ha ht := by
    have hnum : t.isNaN = false := ((le_iff_position _ _).1 ht).2.1
    cases sense with
    | minimize => exact (isNaN_add_of_isFinite ha t).trans hnum
    | maximize =>
        have hneg := isNaN_add_of_isFinite ((isFinite_neg a).trans ha) t
        exact (isNaN_neg_add a t).symm.trans (hneg.trans hnum)
  not_better_of_no_margin sense {a t} ht := by
    cases sense with
    | minimize => exact decide_eq_false (not_lt_add_self ht)
    | maximize => exact decide_eq_false fun hlt => not_lt_add_self ht ((sub_lt_iff a a t).1 hlt)

namespace Exact

theorem neg_le_self_iff (a : Exact) : -a ≤ a ↔ 0.0 ≤ a := by
  rw [zero_eq]
  rcases a with q | ⟨_ | _⟩ | _
  · rw [finite_neg, finite_le, finite_le]
    constructor <;> intro h <;> linarith
  · exact iff_of_true rfl rfl
  · exact iff_of_false Bool.false_ne_true Bool.false_ne_true
  · exact iff_of_false Bool.false_ne_true Bool.false_ne_true

theorem nonneg_div_iff {u s : Exact} (hu : 0.0 < u) (hs : 1.0 ≤ s) :
    0.0 ≤ u / s ↔ Scalar.isFinite u = true ∨ Scalar.isFinite s = true := by
  rw [zero_eq] at *
  rw [one_eq] at hs
  rcases s with r | ⟨_ | _⟩ | _
  · rw [finite_le] at hs
    have hpos : 0 < r := zero_lt_one.trans_le hs
    rcases u with q | ⟨_ | _⟩ | _
    · rw [finite_lt] at hu
      rw [finite_div q hpos.ne', finite_le]
      exact iff_of_true (div_pos hu hpos).le (.inl rfl)
    · -- Infinity over a positive number is infinity.
      have hdiv : infinite false / finite r = infinite (false != decide (r < 0)) := rfl
      rw [hdiv, decide_eq_false (not_lt.2 hpos.le)]
      exact iff_of_true rfl (.inr rfl)
    · exact absurd hu Bool.false_ne_true
    · exact absurd hu Bool.false_ne_true
  · rcases u with q | ⟨_ | _⟩ | _
    · exact iff_of_true ((finite_le 0 0).2 le_rfl) (.inl rfl)
    · exact iff_of_false Bool.false_ne_true fun h => h.elim Bool.false_ne_true Bool.false_ne_true
    · exact absurd hu Bool.false_ne_true
    · exact absurd hu Bool.false_ne_true
  · exact absurd hs Bool.false_ne_true
  · exact absurd hs Bool.false_ne_true

theorem defined_add {q : ℚ} {t : Exact} (ht : Scalar.isUndefined t = false) :
    Scalar.isUndefined (finite q + t) = false := by
  rcases t with r | s | _
  · rfl
  · rfl
  · exact absurd ht.symm Bool.false_ne_true

theorem not_lt_add_self {a t : Exact} (ht : ¬ 0.0 ≤ t) : ¬ a < a + t := by
  rw [zero_eq] at ht
  rcases t with r | ⟨_ | _⟩ | _
  · rw [finite_le] at ht
    rcases a with q | ⟨_ | _⟩ | _
    · rw [finite_add, finite_lt]
      linarith
    · exact Bool.false_ne_true
    · exact Bool.false_ne_true
    · exact Bool.false_ne_true
  · exact absurd rfl ht
  · rcases a with q | ⟨_ | _⟩ | _ <;> exact Bool.false_ne_true
  · rcases a with q | ⟨_ | _⟩ | _ <;> exact Bool.false_ne_true

theorem sub_lt_iff (a b t : Exact) : b - t < a ↔ -a < -b + t := by
  rcases a with q | ⟨_ | _⟩ | _ <;> rcases b with r | ⟨_ | _⟩ | _ <;>
    rcases t with s | ⟨_ | _⟩ | _
  case finite.finite.finite =>
    rw [finite_neg, finite_neg, finite_add, finite_sub, finite_lt, finite_lt]
    constructor <;> intro h <;> linarith
  all_goals exact Iff.rfl

end Exact

instance exactMarginOrder : Scalar.MarginOrder Exact where
  neg_le_self_iff := Exact.neg_le_self_iff
  nonneg_div_iff := Exact.nonneg_div_iff
  defined_of_isFinite h := by
    rw [Exact.eq_finite h]
    rfl
  defined_worsen sense {a t} ha ht := by
    have hnum : Scalar.isUndefined t = false := (Scalar.NumberOrder.defined_of_le ht).2
    rw [Exact.eq_finite ha]
    cases sense with
    | minimize => exact Exact.defined_add hnum
    | maximize => exact Exact.defined_add ((Scalar.Reflective.isUndefined_neg t).trans hnum)
  not_better_of_no_margin sense {a t} ht := by
    cases sense with
    | minimize => exact decide_eq_false (Exact.not_lt_add_self ht)
    | maximize =>
        exact decide_eq_false fun hlt =>
          Exact.not_lt_add_self ht ((Exact.sub_lt_iff a a t).1 hlt)

/-- A finite bound is not excluded by the cutoff that is made from it exactly if the tolerance
is not negative or is lost in rounding. -/
theorem Sense.asGood_worsen_iff {α : Type} [Scalar α] [Scalar.MarginOrder α] (sense : Sense)
    {a t : α} (ha : Scalar.isFinite a = true) :
    sense.asGood a (sense.worsen a t) = true ↔ 0.0 ≤ t ∨ (sense.worsen a t == a) = true := by
  have hdef : Scalar.isUndefined a = false := Scalar.MarginOrder.defined_of_isFinite ha
  constructor
  · intro hgood
    by_cases ht : 0.0 ≤ t
    · exact .inl ht
    · -- Then the cutoff is no worse than the bound either.
      have hback : sense.asGood (sense.worsen a t) a = true :=
        sense.asGood_iff.2 ⟨(sense.asGood_iff.1 hgood).2.1, hdef,
          Scalar.MarginOrder.not_better_of_no_margin sense ht⟩
      exact .inr (sense.beq_of_asGood hback hgood)
  · rintro (ht | heq)
    · refine sense.asGood_iff.2 ⟨hdef, Scalar.MarginOrder.defined_worsen sense ha ht, ?_⟩
      -- To make a bound worse in one sense is to make it better in the other.
      cases sense with
      | minimize =>
          exact decide_eq_false fun hlt => Bool.false_ne_true
            ((Scalar.BoundOrder.better_irrefl .maximize a).symm.trans
              (Scalar.BoundOrder.better_of_improve .maximize ht (decide_eq_true hlt)))
      | maximize =>
          exact decide_eq_false fun hlt => Bool.false_ne_true
            ((Scalar.BoundOrder.better_irrefl .minimize a).symm.trans
              (Scalar.BoundOrder.better_of_improve .minimize ht (decide_eq_true hlt)))
    · obtain ⟨hle, hge⟩ := (Scalar.NumberOrder.beq_iff _ _).1 heq
      cases sense with
      | minimize => exact decide_eq_true hge
      | maximize => exact decide_eq_true hle

end OuterApprox
