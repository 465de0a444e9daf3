import OuterApprox.Scalar.Exact
import OuterApprox.Engine.Enumeration
import Mathlib.Algebra.BigOperators.Group.List.Basic
import Mathlib.Algebra.Order.Field.Rat
import Mathlib.Tactic.Ring
import Mathlib.Tactic.Linarith

/-!
# Exact arithmetic

Reading off rational facts from exact scalars. The scalars have values that are
no numbers, and every operation is defined on them too; what a cut does to a
point is a matter of the numbers alone. Here the operations on finite values are
reduced to those of the rationals, and a fold over the terms of a row to one sum.

A coefficient that vanishes is dropped from a row before it is handed over. The
sum that stands for a row is taken over all terms, and dropping zeros does not
change it.

## Main definitions

* `Exact.toRat`: The number a finite value is.
* `Point.Finite`: All coordinates are numbers.
* `weigh`: The sum of coefficients times coordinates.
* `Row.Satisfied`: A row holds at a point.

## Theorems

* `Exact.eq_finite`: A finite value is its number.
* `Exact.eq_finite_of_le`: What lies between numbers is a number.
* `Exact.le_of_finite_le`: It puts them in order.
* `weigh_filter_ne_zero`: Dropping zeros does not change the sum.
* `sum_mul_coord`, `Row.activity_eq_weigh`: Sums of products, and the left-hand side of a row.
* `Row.satisfied_iff`: A row holds at a point exactly if its sum is small enough.
-/

namespace OuterApprox

namespace Exact

/-- The number a finite value is, and zero for the other values. -/
def toRat : Exact → ℚ
  | finite q => q
  | _ => 0

@[simp] theorem toRat_finite (q : ℚ) : (finite q).toRat = q := rfl

@[simp] theorem finite_add (a b : ℚ) : finite a + finite b = finite (a + b) := rfl

@[simp] theorem finite_sub (a b : ℚ) : finite a - finite b = finite (a - b) := by
  rw [sub_eq_add_neg]
  rfl

/-- Taking a number off is adding its negative. -/
theorem sub_finite (a : Exact) (b : ℚ) : a - finite b = a + finite (-b) := rfl

@[simp] theorem finite_mul (a b : ℚ) : finite a * finite b = finite (a * b) := rfl

@[simp] theorem finite_neg (a : ℚ) : -finite a = finite (-a) := rfl

/-- Division by a number that is not zero is division in the rationals. -/
theorem finite_div (a : ℚ) {b : ℚ} (hb : b ≠ 0) : finite a / finite b = finite (a / b) :=
  if_neg hb

@[simp] theorem finite_lt (a b : ℚ) : finite a < finite b ↔ a < b := decide_eq_true_iff

@[simp] theorem finite_le (a b : ℚ) : finite a ≤ finite b ↔ a ≤ b := decide_eq_true_iff

@[simp] theorem zero_eq : (0.0 : Exact) = finite 0 := by decide +kernel

@[simp] theorem one_eq : (1.0 : Exact) = finite 1 := by decide +kernel

@[simp] theorem half_eq : (0.5 : Exact) = finite (1 / 2) := by decide +kernel

@[simp] theorem isFinite_finite (q : ℚ) : Scalar.isFinite (finite q) = true := rfl

@[simp] theorem isUndefined_finite (q : ℚ) : Scalar.isUndefined (finite q) = false := rfl

/-- A finite value is the number it is. -/
theorem eq_finite {a : Exact} (h : Scalar.isFinite a = true) : a = finite a.toRat := by
  cases a with
  | finite q => rfl
  | infinite s => exact absurd h Bool.false_ne_true
  | undefined => exact absurd h Bool.false_ne_true

/-- A value that compares with two numbers on either side is a number. -/
theorem eq_finite_of_le {a : Exact} {q r : ℚ} (hq : finite q ≤ a) (hr : a ≤ finite r) :
    a = finite a.toRat := by
  cases a with
  | finite _ => rfl
  | infinite s =>
      cases s with
      | false => exact absurd hr Bool.false_ne_true
      | true => exact absurd hq Bool.false_ne_true
  | undefined => exact absurd hq Bool.false_ne_true

/-- What is below is at most. -/
theorem le_of_lt {a b : Exact} (h : a < b) : a ≤ b := by
  cases a with
  | finite q =>
      -- The cases are those of the comparison: two numbers, or an infinity on one side.
      cases b with
      | finite r => exact (finite_le q r).2 ((finite_lt q r).1 h).le
      | infinite s => cases s <;> exact h
      | undefined => exact absurd h Bool.false_ne_true
  | infinite s =>
      cases s with
      | false => exact absurd h Bool.false_ne_true
      | true =>
          cases b with
          | finite r => exact h
          | infinite t => cases t <;> rfl
          | undefined => exact absurd h Bool.false_ne_true
  | undefined => exact absurd h Bool.false_ne_true

/-- The undefined value is at most nothing. -/
theorem not_undefined_le (a : Exact) : ¬ undefined ≤ a := Bool.false_ne_true

/-- Nothing is at most the undefined value. -/
theorem not_le_undefined (a : Exact) : ¬ a ≤ undefined := by
  cases a with
  | finite q => exact Bool.false_ne_true
  | infinite s => cases s <;> exact Bool.false_ne_true
  | undefined => exact Bool.false_ne_true

/-- What lies above a number and below another puts them in order. -/
theorem le_of_finite_le {a : Exact} {q r : ℚ} (hq : finite q ≤ a) (hr : a ≤ finite r) :
    q ≤ r := by
  have heq := eq_finite_of_le hq hr
  rw [heq, finite_le] at hq hr
  exact hq.trans hr

/-- A number equals zero as a scalar if it is zero. -/
theorem beq_zero_iff (q : ℚ) : (finite q == (0.0 : Exact)) = true ↔ q = 0 := by
  rw [zero_eq]
  -- Equality of scalars is being at most each other.
  change (decide (q ≤ 0) && decide (0 ≤ q)) = true ↔ q = 0
  rw [Bool.and_eq_true, decide_eq_true_iff, decide_eq_true_iff]
  exact ⟨fun h => le_antisymm h.1 h.2, fun h => ⟨h.le, h.ge⟩⟩

/-- The test by which vanishing coefficients are dropped. -/
theorem not_beq_zero_iff {a : Exact} (h : Scalar.isFinite a = true) :
    (!(a == 0.0)) = true ↔ a.toRat ≠ 0 := by
  rw [Bool.not_eq_true', ← Bool.not_eq_true, eq_finite h, beq_zero_iff, toRat_finite]

/-- A difference is a number only if both sides are. -/
theorem isFinite_of_sub {a b : Exact} (h : Scalar.isFinite (a - b) = true) :
    Scalar.isFinite a = true ∧ Scalar.isFinite b = true := by
  cases a with
  | finite q =>
      cases b with
      | finite r => exact ⟨rfl, rfl⟩
      -- An infinity on the left stays one, or meets its like and gives nothing defined.
      | infinite s => exact absurd h Bool.false_ne_true
      | undefined => exact absurd h Bool.false_ne_true
  | infinite s =>
      cases b with
      | finite r => exact absurd h Bool.false_ne_true
      | infinite t => cases s <;> cases t <;> exact absurd h Bool.false_ne_true
      | undefined => exact absurd h Bool.false_ne_true
  | undefined => exact absurd h (by cases b <;> exact Bool.false_ne_true)

/-- A nonzero number times a value is a number only if the value is. -/
theorem isFinite_of_mul {q : ℚ} {b : Exact} (hq : q ≠ 0)
    (h : Scalar.isFinite (finite q * b) = true) : Scalar.isFinite b = true := by
  cases b with
  | finite r => rfl
  | infinite s =>
      -- A nonzero number times an infinity is an infinity.
      have hmul : finite q * infinite s = infinite (decide (q < 0) != s) := if_neg hq
      rw [hmul] at h
      exact absurd h Bool.false_ne_true
  | undefined => exact absurd h Bool.false_ne_true

/-- The same with the number on the right. -/
theorem isFinite_of_mul_finite {q : ℚ} {b : Exact} (hq : q ≠ 0)
    (h : Scalar.isFinite (b * finite q) = true) : Scalar.isFinite b = true := by
  cases b with
  | finite r => rfl
  | infinite s =>
      have hmul : infinite s * finite q = infinite (s != decide (q < 0)) := if_neg hq
      rw [hmul] at h
      exact absurd h Bool.false_ne_true
  | undefined => exact absurd h Bool.false_ne_true

end Exact

/-- All coordinates are numbers. -/
def Point.Finite (x : Point Exact) : Prop := ∀ v ∈ x, Scalar.isFinite v = true

/-- A coordinate of such a point is a number. -/
theorem Point.Finite.coord {x : Point Exact} (hx : x.Finite) {i : Nat} (hi : i < x.length) :
    Scalar.isFinite (x.coord i) = true := by
  rw [Point.coord, List.getElem?_eq_getElem hi, Option.getD_some]
  exact hx _ (List.getElem_mem hi)

/-- The sum of coefficients times coordinates, read in the rationals. -/
def weigh (terms : List (Nat × Exact)) (x : Point Exact) : ℚ :=
  (terms.map fun t => t.2.toRat * (x.coord t.1).toRat).sum

@[simp] theorem weigh_nil (x : Point Exact) : weigh [] x = 0 := rfl

@[simp] theorem weigh_cons (t : Nat × Exact) (rest : List (Nat × Exact)) (x : Point Exact) :
    weigh (t :: rest) x = t.2.toRat * (x.coord t.1).toRat + weigh rest x := by
  simp only [weigh, List.map_cons, List.sum_cons]

/-- Coefficients and the coordinates they apply to are numbers. -/
def Weighable (terms : List (Nat × Exact)) (x : Point Exact) : Prop :=
  ∀ t ∈ terms, Scalar.isFinite t.2 = true ∧ Scalar.isFinite (x.coord t.1) = true

/-- Terms whose coefficient vanishes contribute nothing. -/
theorem weigh_filter_ne_zero (terms : List (Nat × Exact)) (x : Point Exact)
    (h : ∀ t ∈ terms, Scalar.isFinite t.2 = true) :
    weigh (terms.filter fun t => !(t.2 == 0.0)) x = weigh terms x := by
  induction terms with
  | nil => rfl
  | cons t rest ih =>
      have hrest := ih fun u hu => h u (List.mem_cons_of_mem _ hu)
      have ht := Exact.eq_finite (h t List.mem_cons_self)
      -- A term is dropped exactly if its coefficient is zero, and then it adds nothing.
      by_cases hzero : t.2.toRat = 0
      · have hdrop : (t.2 == (0.0 : Exact)) = true := by
          rw [ht]
          exact (Exact.beq_zero_iff _).2 hzero
        rw [List.filter_cons_of_neg (by simp only [hdrop, Bool.not_true, Bool.false_eq_true,
          not_false_eq_true]), hrest, weigh_cons, hzero, zero_mul, zero_add]
      · have hkeep : (t.2 == (0.0 : Exact)) = false := by
          rw [ht, Bool.eq_false_iff]
          exact fun hc => hzero ((Exact.beq_zero_iff _).1 hc)
        rw [List.filter_cons_of_pos (by simp only [hkeep, Bool.not_false]), weigh_cons,
          weigh_cons, hrest]

/-- Adding up terms from a number gives that number plus the sum. -/
theorem foldl_add_eq (terms : List (Nat × Exact)) (x : Point Exact) (h : Weighable terms x)
    (q : ℚ) :
    terms.foldl (fun s t => s + t.2 * x.coord t.1) (Exact.finite q) =
      .finite (q + weigh terms x) := by
  induction terms generalizing q with
  | nil => rw [List.foldl_nil, weigh_nil, add_zero]
  | cons t rest ih =>
      have ht := h t List.mem_cons_self
      have hrest : Weighable rest x := fun u hu => h u (List.mem_cons_of_mem _ hu)
      rw [List.foldl_cons, Exact.eq_finite ht.1, Exact.eq_finite ht.2, Exact.finite_mul,
        Exact.finite_add, ih hrest, weigh_cons, add_assoc]

/-- A sum of products is the sum of coefficients times coordinates. -/
theorem sum_mul_coord (terms : List (Nat × Exact)) (x : Point Exact) (h : Weighable terms x) :
    Scalar.sum (terms.map fun t => t.2 * x.coord t.1) = .finite (weigh terms x) := by
  rw [Scalar.sum, List.foldl_map, Scalar.negZero, Exact.zero_eq, Exact.finite_neg,
    foldl_add_eq terms x h, neg_zero, zero_add]

namespace Row

/-- A row holds at a point. -/
def Satisfied {α : Type} [Scalar α] (r : Row α) (x : Point α) : Prop := r.activity x ≤ r.upper

instance {α : Type} [Scalar α] (r : Row α) (x : Point α) : Decidable (r.Satisfied x) :=
  inferInstanceAs (Decidable (_ ≤ _))

/-- The activity of a row is the sum in the rationals. -/
theorem activity_eq_weigh (r : Row Exact) (x : Point Exact) (h : Weighable r.terms x) :
    r.activity x = .finite (weigh r.terms x) := by
  rw [activity, Exact.zero_eq, foldl_add_eq r.terms x h, zero_add]

/-- So a row holds at a point if the sum is at most its right-hand side. -/
theorem satisfied_iff (r : Row Exact) (x : Point Exact) (h : Weighable r.terms x) {u : ℚ}
    (hu : r.upper = .finite u) : r.Satisfied x ↔ weigh r.terms x ≤ u := by
  rw [Satisfied, activity_eq_weigh r x h, hu, Exact.finite_le]

end Row

end OuterApprox
