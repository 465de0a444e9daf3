import OuterApprox.Proofs.BoundOrder

/-!
# The order of numbers

The scalars without the undefined value are ordered totally, once values that are
equal as numbers count as one. Two things make that less than a linear order. The
undefined value is not even as good as itself, and there may be different values
for one number, as the two zeros of the doubles. So the weak order has its own
laws here, next to those of the strict one, and "equal" means the equality that a
program would test.

Everything is stated for both senses at once. What is at least as good as all of
a list is its minimum in one sense and its maximum in the other.

## Main definitions

* `Sense.asGood`: The weak order of a sense.
* `Sense.IsBest`, `Sense.IsWorst`: The extremes of a list.
* `Scalar.NumberOrder`: The laws of the weak order and of equality.

## Theorems

* `floatNumberOrder`, `exactNumberOrder`: The laws for both kinds of scalars.
* `Scalar.NumberOrder.lt_iff`: The strict order in terms of the weak one.
* `Sense.asGood_iff`: The weak order in terms of the strict one.
* `Sense.asGood_trans`, `Sense.asGood_of_better`: The weak order is one.
* `Sense.IsBest.beq`, `Sense.IsWorst.beq`: Extremes are equal as numbers.
-/

namespace OuterApprox

/-- Whether `a` is a number at least as good as the number `b`. -/
def Sense.asGood {α : Type} [Scalar α] (sense : Sense) (a b : α) : Bool :=
  match sense with
  | minimize => decide (a ≤ b)
  | maximize => decide (b ≤ a)

/-- A value of a list that is at least as good as all of them. -/
def Sense.IsBest {α : Type} [Scalar α] (sense : Sense) (v : α) (values : List α) : Prop :=
  v ∈ values ∧ ∀ w ∈ values, sense.asGood v w = true

/-- A value of a list that all of them are at least as good as. -/
def Sense.IsWorst {α : Type} [Scalar α] (sense : Sense) (v : α) (values : List α) : Prop :=
  v ∈ values ∧ ∀ w ∈ values, sense.asGood w v = true

namespace Sense

variable {α : Type} [Scalar α] {sense : Sense} {a b : α} {values : List α}

/-- A best value stays one beside a value that it is as good as. -/
theorem IsBest.concat (h : sense.IsBest a values) (hb : sense.asGood a b = true) :
    sense.IsBest a (values ++ [b]) :=
  ⟨List.mem_append_left _ h.1, List.forall_mem_append.2 ⟨h.2, List.forall_mem_singleton.2 hb⟩⟩

/-- A worst value stays one beside a value that is as good. -/
theorem IsWorst.concat (h : sense.IsWorst a values) (hb : sense.asGood b a = true) :
    sense.IsWorst a (values ++ [b]) :=
  ⟨List.mem_append_left _ h.1, List.forall_mem_append.2 ⟨h.2, List.forall_mem_singleton.2 hb⟩⟩

end Sense

/-- The order of numbers. -/
class Scalar.NumberOrder (α : Type) [Scalar α] : Prop extends Scalar.BoundOrder α where
  /-- Of two numbers, one is below the other or at least as large. -/
  le_iff : ∀ a b : α, a ≤ b ↔
    Scalar.isUndefined a = false ∧ Scalar.isUndefined b = false ∧ ¬ b < a
  /-- What is below is not above. -/
  le_of_lt : ∀ {a b : α}, a < b → a ≤ b
  /-- The weak order is transitive. -/
  le_trans : ∀ {a b c : α}, a ≤ b → b ≤ c → a ≤ c
  /-- Equal is what is neither below nor above. -/
  beq_iff : ∀ a b : α, (a == b) = true ↔ a ≤ b ∧ b ≤ a

namespace Scalar.NumberOrder

variable {α : Type} [Scalar α] [Scalar.NumberOrder α] {a b c : α}

/-- The strict order is what the weak one leaves when it is taken both ways. -/
theorem lt_iff (a b : α) : a < b ↔ a ≤ b ∧ ¬ b ≤ a := by
  constructor
  · exact fun h => ⟨le_of_lt h, fun hle => ((le_iff b a).1 hle).2.2 h⟩
  · rintro ⟨hle, hnot⟩
    obtain ⟨ha, hb, _⟩ := (le_iff a b).1 hle
    by_contra hlt
    exact hnot ((le_iff b a).2 ⟨hb, ha, hlt⟩)

/-- Of two numbers that are not in order the second one is smaller. -/
theorem lt_of_not_le (ha : Scalar.isUndefined a = false) (hb : Scalar.isUndefined b = false)
    (h : ¬ a ≤ b) : b < a := by
  by_contra hlt
  exact h ((le_iff a b).2 ⟨ha, hb, hlt⟩)

/-- A number is at most itself. -/
theorem le_refl (h : Scalar.isUndefined a = false) : a ≤ a :=
  (le_iff a a).2 ⟨h, h, fun hlt => ((lt_iff a a).1 hlt).2 (le_of_lt hlt)⟩

/-- What compares is a number. -/
theorem defined_of_le (h : a ≤ b) :
    Scalar.isUndefined a = false ∧ Scalar.isUndefined b = false :=
  ((le_iff a b).1 h).imp_right And.left

/-- The weak order and the strict one compose. -/
theorem lt_of_le_of_lt (hab : a ≤ b) (hbc : b < c) : a < c :=
  (lt_iff a c).2 ⟨le_trans hab (le_of_lt hbc),
    fun hca => ((lt_iff b c).1 hbc).2 (le_trans hca hab)⟩

/-- They compose the other way round too. -/
theorem lt_of_lt_of_le (hab : a < b) (hbc : b ≤ c) : a < c :=
  (lt_iff a c).2 ⟨le_trans (le_of_lt hab) hbc,
    fun hca => ((lt_iff a b).1 hab).2 (le_trans hbc hca)⟩

/-- The strict order is transitive. -/
theorem lt_trans (hab : a < b) (hbc : b < c) : a < c := lt_of_lt_of_le hab (le_of_lt hbc)

end Scalar.NumberOrder

namespace Sense

variable {α : Type} [Scalar α] [Scalar.NumberOrder α] (sense : Sense) {a b c : α}

/-- A number is as good as another if that is not better. -/
theorem asGood_iff : sense.asGood a b = true ↔
    Scalar.isUndefined a = false ∧ Scalar.isUndefined b = false ∧ sense.better b a = false := by
  cases sense with
  | minimize =>
    rw [asGood, better, decide_eq_true_iff, decide_eq_false_iff_not, Scalar.NumberOrder.le_iff]
  | maximize =>
    rw [asGood, better, decide_eq_true_iff, decide_eq_false_iff_not, Scalar.NumberOrder.le_iff,
      and_left_comm]

/-- A number is as good as itself. -/
theorem asGood_refl (h : Scalar.isUndefined a = false) : sense.asGood a a = true :=
  (sense.asGood_iff).2 ⟨h, h, Scalar.BoundOrder.better_irrefl sense a⟩

/-- Being as good is transitive. -/
theorem asGood_trans (hab : sense.asGood a b = true) (hbc : sense.asGood b c = true) :
    sense.asGood a c = true := by
  cases sense with
  | minimize =>
    exact decide_eq_true
      (Scalar.NumberOrder.le_trans (of_decide_eq_true hab) (of_decide_eq_true hbc))
  | maximize =>
    exact decide_eq_true
      (Scalar.NumberOrder.le_trans (of_decide_eq_true hbc) (of_decide_eq_true hab))

/-- What is better is as good. -/
theorem asGood_of_better (h : sense.better a b = true) : sense.asGood a b = true := by
  cases sense with
  | minimize => exact decide_eq_true (Scalar.NumberOrder.le_of_lt (of_decide_eq_true h))
  | maximize => exact decide_eq_true (Scalar.NumberOrder.le_of_lt (of_decide_eq_true h))

/-- Being better is transitive. -/
theorem better_trans (hab : sense.better a b = true) (hbc : sense.better b c = true) :
    sense.better a c = true := by
  cases sense with
  | minimize =>
    exact decide_eq_true
      (Scalar.NumberOrder.lt_trans (of_decide_eq_true hab) (of_decide_eq_true hbc))
  | maximize =>
    exact decide_eq_true
      (Scalar.NumberOrder.lt_trans (of_decide_eq_true hbc) (of_decide_eq_true hab))

/-- Nothing is better than what is as good as it. -/
theorem not_better_of_asGood (h : sense.asGood a b = true) : sense.better b a = false :=
  ((sense.asGood_iff).1 h).2.2

/-- Two values that are as good as each other are equal. -/
theorem beq_of_asGood (hab : sense.asGood a b = true) (hba : sense.asGood b a = true) :
    (a == b) = true := by
  rw [Scalar.NumberOrder.beq_iff]
  cases sense with
  | minimize => exact ⟨of_decide_eq_true hab, of_decide_eq_true hba⟩
  | maximize => exact ⟨of_decide_eq_true hba, of_decide_eq_true hab⟩

/-- The worst value is a number. -/
theorem defined_worst : Scalar.isUndefined (sense.worst : α) = false :=
  (Scalar.BoundOrder.defined_iff sense _).2 (.inl rfl)

/-- The best value is a number. -/
theorem defined_best : Scalar.isUndefined (sense.best : α) = false :=
  (Scalar.BoundOrder.defined_of_better sense (Scalar.BoundOrder.best_better_worst sense)).1

/-- The best value is at least as good as every number. -/
theorem best_asGood (h : Scalar.isUndefined a = false) : sense.asGood sense.best a = true :=
  (sense.asGood_iff).2 ⟨sense.defined_best, h, sense.not_better_best a⟩

variable {sense} {values : List α}

/-- A best value is as good as itself, so it is a number. -/
theorem IsBest.defined (h : sense.IsBest a values) : Scalar.isUndefined a = false :=
  ((sense.asGood_iff).1 (h.2 a h.1)).1

/-- So is a worst value. -/
theorem IsWorst.defined (h : sense.IsWorst a values) : Scalar.isUndefined a = false :=
  ((sense.asGood_iff).1 (h.2 a h.1)).1

/-- A number alone is best. -/
theorem isBest_singleton (h : Scalar.isUndefined a = false) : sense.IsBest a [a] :=
  ⟨List.mem_singleton_self a, List.forall_mem_singleton.2 (sense.asGood_refl h)⟩

/-- A number alone is worst. -/
theorem isWorst_singleton (h : Scalar.isUndefined a = false) : sense.IsWorst a [a] :=
  ⟨List.mem_singleton_self a, List.forall_mem_singleton.2 (sense.asGood_refl h)⟩

/-- What is as good as a best value is one beside the others. -/
theorem IsBest.replace (h : sense.IsBest a values) (hb : sense.asGood b a = true) :
    sense.IsBest b (values ++ [b]) := by
  refine ⟨List.mem_append_right _ (List.mem_singleton_self b), List.forall_mem_append.2 ⟨?_, ?_⟩⟩
  · exact fun w hw => sense.asGood_trans hb (h.2 w hw)
  · exact List.forall_mem_singleton.2 (sense.asGood_refl ((sense.asGood_iff).1 hb).1)

/-- What a worst value is as good as is one beside the others. -/
theorem IsWorst.replace (h : sense.IsWorst a values) (hb : sense.asGood a b = true) :
    sense.IsWorst b (values ++ [b]) := by
  refine ⟨List.mem_append_right _ (List.mem_singleton_self b), List.forall_mem_append.2 ⟨?_, ?_⟩⟩
  · exact fun w hw => sense.asGood_trans (h.2 w hw) hb
  · exact List.forall_mem_singleton.2 (sense.asGood_refl ((sense.asGood_iff).1 hb).2.1)

/-- Two best values of a list are equal as numbers. -/
theorem IsBest.beq (ha : sense.IsBest a values) (hb : sense.IsBest b values) :
    (a == b) = true :=
  sense.beq_of_asGood (ha.2 b hb.1) (hb.2 a ha.1)

/-- Two worst values of a list are equal as numbers. -/
theorem IsWorst.beq (ha : sense.IsWorst a values) (hb : sense.IsWorst b values) :
    (a == b) = true :=
  sense.beq_of_asGood (hb.2 a ha.1) (ha.2 b hb.1)

end Sense

namespace DoubleOrder

open Float.Model Float.Model.UnpackedFloat

/-- The comparison of two doubles that are numbers is that of their places. -/
theorem compare_eq_position {a b : Float} (ha : a.isNaN = false) (hb : b.isNaN = false) :
    a.toModel.unpack.compare b.toModel.unpack = some (compare (position a) (position b)) :=
  compare_eq_compare_units (inFormat_unpack _) (inFormat_unpack _) ha hb

/-- A double that is no number does not compare. -/
theorem compare_eq_none {a b : Float} (h : ¬ (a.isNaN = false ∧ b.isNaN = false)) :
    a.toModel.unpack.compare b.toModel.unpack = none := by
  rw [not_and_or, Bool.not_eq_false, Bool.not_eq_false] at h
  change a.toModel.unpack.isNaN = true ∨ b.toModel.unpack.isNaN = true at h
  generalize a.toModel.unpack = x at *
  generalize b.toModel.unpack = y at *
  -- The first operand decides, and the second one if the first is a number.
  rcases h with h | h
  · cases x <;> first | rfl | exact nomatch h
  · cases y <;> first | (cases x <;> rfl) | exact nomatch h

/-- The weak order of doubles is that of their places. -/
theorem le_iff_position (a b : Float) :
    a ≤ b ↔ a.isNaN = false ∧ b.isNaN = false ∧ position a ≤ position b := by
  have hle : a ≤ b ↔ (a.toModel.unpack.compare b.toModel.unpack).any Ordering.isLE = true := by
    change Float.le a b = true ↔ _
    exact decide_eq_true_iff
  rw [hle]
  -- Between numbers there is always a comparison, and otherwise never.
  by_cases h : a.isNaN = false ∧ b.isNaN = false
  · rw [compare_eq_position h.1 h.2, Option.any_some, Int.isLE_compare]
    exact ⟨fun hpos => ⟨h.1, h.2, hpos⟩, fun hall => hall.2.2⟩
  · rw [compare_eq_none h]
    exact ⟨fun hnone => (nomatch hnone), fun hall => absurd ⟨hall.1, hall.2.1⟩ h⟩

/-- Doubles are equal if they are numbers in the same place: the two zeros are. -/
theorem beq_iff_position (a b : Float) :
    (a == b) = true ↔ a.isNaN = false ∧ b.isNaN = false ∧ position a = position b := by
  have hbeq : (a == b) = true ↔
      (a.toModel.unpack.compare b.toModel.unpack == some .eq) = true := by
    change Float.beq a b = true ↔ _
    exact Iff.rfl
  rw [hbeq]
  by_cases h : a.isNaN = false ∧ b.isNaN = false
  · rw [compare_eq_position h.1 h.2, beq_iff_eq, Option.some.injEq, compare_eq_iff_eq]
    exact ⟨fun hpos => ⟨h.1, h.2, hpos⟩, fun hall => hall.2.2⟩
  · rw [compare_eq_none h]
    exact ⟨fun hnone => (nomatch hnone), fun hall => absurd ⟨hall.1, hall.2.1⟩ h⟩

end DoubleOrder

open DoubleOrder in
instance floatNumberOrder : Scalar.NumberOrder Float where
  le_iff a b := by
    rw [le_iff_position, lt_iff_position]
    constructor
    · rintro ⟨ha, hb, hle⟩
      exact ⟨ha, hb, fun hlt => not_lt.2 hle hlt.2.2⟩
    · rintro ⟨ha, hb, hnot⟩
      exact ⟨ha, hb, not_lt.1 fun hlt => hnot ⟨hb, ha, hlt⟩⟩
  le_of_lt {a b} h := by
    rw [lt_iff_position] at h
    exact (le_iff_position a b).2 ⟨h.1, h.2.1, h.2.2.le⟩
  le_trans {a b c} hab hbc := by
    rw [le_iff_position] at hab hbc ⊢
    exact ⟨hab.1, hbc.2.1, hab.2.2.trans hbc.2.2⟩
  beq_iff a b := by
    rw [beq_iff_position, le_iff_position, le_iff_position]
    constructor
    · rintro ⟨ha, hb, heq⟩
      exact ⟨⟨ha, hb, heq.le⟩, hb, ha, heq.ge⟩
    · rintro ⟨⟨ha, hb, hle⟩, -, -, hge⟩
      exact ⟨ha, hb, le_antisymm hle hge⟩

namespace Exact

/-- For exact values the weak order is the negation of the strict one, between numbers. -/
theorem le_iff_not_lt (a b : Exact) : a ≤ b ↔
    Scalar.isUndefined a = false ∧ Scalar.isUndefined b = false ∧ ¬ b < a := by
  rcases a with q | ⟨_ | _⟩ | _ <;> rcases b with r | ⟨_ | _⟩ | _
  -- Two rationals; in all other cases both sides evaluate.
  case finite.finite =>
    rw [finite_le, finite_lt, not_lt]
    exact ⟨fun h => ⟨rfl, rfl, h⟩, fun h => h.2.2⟩
  all_goals
    first
    | exact iff_of_true rfl ⟨rfl, rfl, Bool.false_ne_true⟩
    | exact iff_of_false Bool.false_ne_true fun h => Bool.false_ne_true h.1.symm
    | exact iff_of_false Bool.false_ne_true fun h => Bool.false_ne_true h.2.1.symm
    | exact iff_of_false Bool.false_ne_true fun h => h.2.2 rfl

/-- The weak order of exact values is transitive. -/
theorem le_of_le_of_le {a b c : Exact} (hab : a ≤ b) (hbc : b ≤ c) : a ≤ c := by
  rcases a with q | ⟨_ | _⟩ | _ <;> rcases b with r | ⟨_ | _⟩ | _ <;>
    rcases c with s | ⟨_ | _⟩ | _
  case finite.finite.finite =>
    rw [finite_le] at *
    exact hab.trans hbc
  all_goals first | rfl | exact absurd hab Bool.false_ne_true | exact absurd hbc Bool.false_ne_true

end Exact

instance exactNumberOrder : Scalar.NumberOrder Exact where
  le_iff := Exact.le_iff_not_lt
  le_of_lt := Exact.le_of_lt
  le_trans := Exact.le_of_le_of_le
  beq_iff _ _ := Bool.and_eq_true_iff

end OuterApprox
