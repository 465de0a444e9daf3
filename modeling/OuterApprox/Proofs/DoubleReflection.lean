import OuterApprox.Proofs.BoundOrder

/-!
# Negative doubles

What becomes of a comparison, a sum or an absolute value when the operands are
negated. Rounding only carries a sign along, so a sum of negated operands is the
negated sum, with one exception: a sum that cancels is the positive zero whatever
the signs of its operands are. `Opposite` makes up for that. It says of two numbers
that they are opposite as far as the order and the absolute value can tell.

## Main definitions

* `DoubleOrder.Opposite`: Numbers with the same absolute value, at opposite places.

## Theorems

* `DoubleOrder.unpack_neg`: Negation is exact.
* `DoubleOrder.opposite_add`: Sums of opposite operands.
* `DoubleOrder.lt_neg_neg_iff`, `DoubleOrder.add_lt_neg_iff`: Comparisons with
  numbers and with differences.
* `DoubleOrder.abs_neg_sub_neg`: Distances.
-/

namespace OuterApprox

namespace DoubleOrder

open Float.Model Float.Model.UnpackedFloat

/-- The second number is the negative of the first, apart from the sign of a zero. -/
structure Opposite (x y : UnpackedFloat) : Prop where
  /-- The magnitudes are the same. -/
  abs_eq : y.abs = x.abs
  /-- The values are opposite. -/
  units_eq : units y = -units x

/-- Turning the sign gives an opposite number, a zero and no number included. -/
theorem opposite_neg (x : UnpackedFloat) : Opposite x x.neg where
  abs_eq := by cases x <;> rfl
  units_eq := units_neg x

/-- Opposite numbers are both numbers or both not. -/
theorem Opposite.isNaN_eq {x y : UnpackedFloat} (h : Opposite x y) : y.isNaN = x.isNaN := by
  have habs : ∀ u : UnpackedFloat, u.abs.isNaN = u.isNaN := fun u => by cases u <;> rfl
  rw [← habs y, h.abs_eq, habs x]

/-! ## Sums -/

/-- Rounding goes by the mantissa and the exponent, so it commutes with the sign. -/
theorem round_neg (s : Sign) (m : Nat) (e : Int) :
    UnpackedFloat.round Format.binary64 (-s) m e =
      (UnpackedFloat.round Format.binary64 s m e).neg := by
  simp only [UnpackedFloat.round, roundWithAccuracy]
  split <;> rfl

/-- So does storing a representable number. -/
theorem stored_neg {s : Sign} {m : Nat} {e : Int} (h : 0 < m) (hr : Representable m e) :
    stored (.finite (-s) m e h) = (stored (.finite s m e h)).neg := by
  rw [stored_finite _ h hr, stored_finite _ h hr]
  split <;> rfl

/-- The two together. -/
theorem stored_round_neg (s : Sign) {m : Nat} {e : Int} (hm : 0 < m) (he : -1074 ≤ e) :
    stored (UnpackedFloat.round Format.binary64 (-s) m e) =
      (stored (UnpackedFloat.round Format.binary64 s m e)).neg := by
  obtain ⟨m', e', h, hround, hrep, -⟩ := exists_round s hm he
  rw [round_neg, hround]
  exact stored_neg h hrep

-- A zero is where the negative of the result is not the result for the negative.
/-- Normalizing two opposite integers gives opposite numbers. -/
theorem opposite_normalize (n : Int) {e : Int} (he : -1074 ≤ e) :
    Opposite (stored (UnpackedFloat.normalize Format.binary64 n e .positive))
      (stored (UnpackedFloat.normalize Format.binary64 (-n) e .positive)) := by
  -- The sign of the integer is the sign that is rounded with.
  rcases lt_trichotomy n 0 with hneg | rfl | hpos
  · have hm : 0 < (-n).toNat := by omega
    simp only [UnpackedFloat.normalize, compare_lt_iff_lt.2 hneg,
      compare_gt_iff_gt.2 (neg_pos.2 hneg)]
    rw [show Sign.positive = -Sign.negative from rfl, stored_round_neg .negative hm he]
    exact opposite_neg _
  · simp only [UnpackedFloat.normalize, neg_zero, compare_eq_iff_eq.2 (rfl : (0 : Int) = 0)]
    exact ⟨rfl, rfl⟩
  · have hm : 0 < n.toNat := by omega
    simp only [UnpackedFloat.normalize, compare_gt_iff_gt.2 hpos,
      compare_lt_iff_lt.2 (neg_neg_of_pos hpos), neg_neg]
    rw [show Sign.negative = -Sign.positive from rfl, stored_round_neg .positive hm he]
    exact opposite_neg _

/-- The sum of two negated numbers is the negated sum, apart from the sign of a zero. -/
theorem opposite_add {x y : UnpackedFloat} (hx : InFormat x) (hy : InFormat y) :
    Opposite (stored (UnpackedFloat.add Format.binary64 x y))
      (stored (UnpackedFloat.add Format.binary64 x.neg y.neg)) := by
  -- Where one operand is passed on, the sum of the negated ones is its negative.
  have hsame : ∀ u, InFormat u → UnpackedFloat.add Format.binary64 x y = u →
      UnpackedFloat.add Format.binary64 x.neg y.neg = u.neg →
      Opposite (stored (UnpackedFloat.add Format.binary64 x y))
        (stored (UnpackedFloat.add Format.binary64 x.neg y.neg)) := by
    intro u hu hadd hneg
    rw [hadd, hneg, stored_of_inFormat hu, stored_of_inFormat hu.neg]
    exact opposite_neg u
  cases x with
  | notANumber => exact hsame .notANumber trivial rfl rfl
  | infinity s =>
    cases y with
    | notANumber => exact hsame .notANumber trivial rfl rfl
    | infinity t =>
      cases s <;> cases t <;> first
        | exact hsame (.infinity _) trivial rfl rfl
        | exact hsame .notANumber trivial rfl rfl
    | zero t => exact hsame (.infinity s) trivial rfl rfl
    | finite t n f k => exact hsame (.infinity s) trivial rfl rfl
  | zero s =>
    cases y with
    | notANumber => exact hsame .notANumber trivial rfl rfl
    | infinity t => exact hsame (.infinity t) trivial rfl rfl
    | zero t => cases s <;> cases t <;> exact ⟨rfl, rfl⟩
    | finite t n f k => exact hsame (.finite t n f k) hy rfl rfl
  | finite s m e h =>
    cases y with
    | notANumber => exact hsame .notANumber trivial rfl rfl
    | infinity t => exact hsame (.infinity t) trivial rfl rfl
    | zero t => exact hsame (.finite s m e h) hx rfl rfl
    | finite t n f k =>
      have hmin : -1074 ≤ min e f := le_min hx.1.exponent hy.1.exponent
      -- Two finite numbers: the integers that are added at the common exponent are opposite.
      simp only [UnpackedFloat.add, UnpackedFloat.neg, apply_neg, ← neg_add]
      exact opposite_normalize _ hmin

/-! ## Doubles -/

/-- The sign bit of a double is the sign of its unpacked form. -/
theorem unpack_neg (a : Float) : (-a).toModel.unpack = a.toModel.unpack.neg :=
  stored_of_inFormat (inFormat_unpack a.toModel).neg

/-- The negative of a number is a number. -/
theorem isNaN_neg (a : Float) : (-a).isNaN = a.isNaN := by
  change (-a).toModel.unpack.isNaN = a.toModel.unpack.isNaN
  rw [unpack_neg]
  exact (opposite_neg _).isNaN_eq

/-- The negative of a finite number is finite. -/
theorem isFinite_neg (a : Float) : (-a).isFinite = a.isFinite := by
  change (-a).toModel.unpack.isFinite = a.toModel.unpack.isFinite
  rw [unpack_neg]
  cases a.toModel.unpack <;> rfl

/-- Negation turns the line of the doubles around. -/
theorem position_neg (a : Float) : position (-a) = -position a := by
  rw [position, unpack_neg]
  exact units_neg _

/-- So it turns around the order. -/
theorem lt_neg_neg_iff (a b : Float) : -a < -b ↔ b < a := by
  rw [lt_iff_position, lt_iff_position, isNaN_neg, isNaN_neg, position_neg, position_neg,
    neg_lt_neg_iff, and_left_comm]

/-- The absolute value depends on no sign. -/
theorem abs_eq_of_opposite {a b : Float} (h : Opposite a.toModel.unpack b.toModel.unpack) :
    b.abs = a.abs :=
  congrArg (fun u => Float.ofModel (Float.Model.pack u)) h.abs_eq

/-- The absolute value of a negative. -/
theorem abs_neg (a : Float) : (-a).abs = a.abs := by
  refine abs_eq_of_opposite ?_
  rw [unpack_neg]
  exact opposite_neg _

/-- A difference is opposite to the sum with the first operand negated. -/
theorem opposite_neg_add (b t : Float) :
    Opposite (b - t).toModel.unpack (-b + t).toModel.unpack := by
  have hadd : (-b + t).toModel.unpack = stored (UnpackedFloat.add Format.binary64
      b.toModel.unpack.neg t.toModel.unpack) := by
    rw [← unpack_neg]
    rfl
  -- The tolerance is negated twice, which gives it back, with its sign.
  have hneg : t.toModel.unpack.neg.neg = t.toModel.unpack := by
    cases t.toModel.unpack with
    | notANumber => rfl
    | infinity s => cases s <;> rfl
    | zero s => cases s <;> rfl
    | finite s m e h => cases s <;> rfl
  have hopposite := opposite_add (inFormat_unpack b.toModel) (inFormat_unpack t.toModel).neg
  rw [hneg] at hopposite
  rw [hadd, unpack_sub]
  exact hopposite

/-- Such a sum is a number if the difference is. -/
theorem isNaN_neg_add (b t : Float) : (-b + t).isNaN = (b - t).isNaN :=
  (opposite_neg_add b t).isNaN_eq

/-- It stands on the other side of zero, at the same distance. -/
theorem position_neg_add (b t : Float) : position (-b + t) = -position (b - t) :=
  (opposite_neg_add b t).units_eq

/-- A sum below a negative is a difference above the value. -/
theorem add_lt_neg_iff (a b t : Float) : -b + t < -a ↔ a < b - t := by
  rw [lt_iff_position, lt_iff_position, isNaN_neg_add, isNaN_neg, position_neg_add, position_neg,
    neg_lt_neg_iff, and_left_comm]

/-- The same with the comparison the other way. -/
theorem sub_lt_iff (a b t : Float) : b - t < a ↔ -a < -b + t := by
  rw [lt_iff_position, lt_iff_position, isNaN_neg_add, isNaN_neg, position_neg_add, position_neg,
    neg_lt_neg_iff, and_left_comm]

/-- Negatives are as far apart as the values. -/
theorem abs_neg_sub_neg (a b : Float) : (-a - -b).abs = (a - b).abs := by
  refine abs_eq_of_opposite ?_
  rw [unpack_sub, unpack_sub, unpack_neg, unpack_neg]
  exact opposite_add (inFormat_unpack a.toModel) (inFormat_unpack b.toModel).neg

end DoubleOrder

end OuterApprox
