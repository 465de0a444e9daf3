import OuterApprox.Proofs.Margins

/-!
# Whole numbers in double precision

A row that counts, with coefficients that are all one and a number for its
right-hand side, is compared in rounded arithmetic like any other row. Up to
`2 ^ 53` nothing is rounded there: the whole numbers that far are doubles, so a sum
of them that does not go further is the sum, and they compare as they should. Beyond
that a sum of ones no longer grows.

The right-hand side is a length that was converted. Small lengths go through an
integer and a product with a power of ten, which is one here, and a product with one
is rounded back to the other factor.

## Main definitions

* `DoubleOrder.Whole`: A double is a whole number.

## Theorems

* `DoubleOrder.rounded_whole`: Whole numbers up to `2 ^ 53` are doubles.
* `DoubleOrder.mul_one_spec`: A product with one is the other factor.
* `DoubleOrder.Whole.add`: Whole numbers add up.
* `DoubleOrder.Whole.le_iff`: They compare as whole numbers.
* `DoubleOrder.whole_ofNat`: What a natural number is converted to.
-/

namespace OuterApprox

namespace DoubleOrder

open Float.Model Float.Model.UnpackedFloat

theorem magnitude_add (k j : Nat) (e : Int) :
    magnitude (k + j) e = magnitude k e + magnitude j e := Nat.add_mul k j _

/-- The whole numbers that need no rounding. -/
theorem rounded_whole {k : Nat} (h : k ≤ 2 ^ 53) : rounded (magnitude k 0) = magnitude k 0 := by
  rcases Nat.eq_zero_or_pos k with rfl | hpos
  · rw [magnitude, zero_mul]
    rfl
  refine rounded_of_dvd ?_
  rw [spacing, magnitude, log2_mul_two_pow hpos]
  rcases h.lt_or_eq with hlt | rfl
  · have hlog : k.log2 < 53 := (Nat.log2_lt hpos.ne').2 hlt
    exact Dvd.dvd.mul_left (pow_dvd_pow 2 (by omega)) k
  · -- The last one has a digit too many, which is zero.
    rw [Nat.log2_two_pow, ← pow_add]
    exact pow_dvd_pow 2 (by omega)

theorem magnitude_lt_top {k : Nat} (h : k ≤ 2 ^ 53) : magnitude k 0 < top := by
  have hrep : Representable (2 ^ 52) 1 := ⟨by decide, by decide, .inl le_rfl⟩
  calc magnitude k 0 ≤ magnitude (2 ^ 52 * 2 ^ ((1 : Int) - 0).toNat) 0 :=
        Nat.mul_le_mul_right _ (h.trans (by decide))
    _ = magnitude (2 ^ 52) 1 := (magnitude_eq_mul (2 ^ 52) (by decide) (by decide)).symm
    _ < top := hrep.magnitude_lt_top_iff.2 (by decide)

theorem place_whole {k : Nat} (h : k ≤ 2 ^ 53) :
    place (magnitude k 0 : Nat) = (magnitude k 0 : Nat) := by
  rw [place_natCast, rounded_whole h, min_eq_left (magnitude_lt_top h).le]

theorem unpack_one : (1.0 : Float).toModel.unpack = .finite .positive (2 ^ 52) (-52) (by decide) :=
  rfl

/-- A product with one is the other factor: one has a mantissa of full length, so the product
    is rounded at the exponent of the other factor. -/
theorem mul_one_spec {x : UnpackedFloat} (hx : InFormat x) :
    (stored (UnpackedFloat.mul Format.binary64 x (1.0 : Float).toModel.unpack)).isNaN = x.isNaN ∧
      units (stored (UnpackedFloat.mul Format.binary64 x (1.0 : Float).toModel.unpack)) =
        units x := by
  rw [unpack_one]
  cases x with
  | notANumber => exact ⟨rfl, rfl⟩
  | infinity s | zero s => cases s <;> exact ⟨rfl, rfl⟩
  | finite s m e h =>
      -- One has a full mantissa, so the product is too long by that much.
      have hfull : fullExponent (m * 2 ^ 52) (e - 52) = e := by
        have hlog : m.log2 < 53 := (Nat.log2_lt h.ne').2 hx.1.mantissa
        have hlow := hx.1.exponent
        rw [fullExponent, log2_mul_two_pow h]
        rcases hx.1.normal with hlong | hleast
        · have hlong' : 52 ≤ m.log2 := (Nat.le_log2 h.ne').2 hlong
          omega
        · omega
      -- The digits that are cut off are zeros.
      have hexact : nearestEven (m * 2 ^ 52) (2 ^ (e - (e - 52)).toNat) = m := by
        rw [sub_sub_cancel]
        exact nearestEven_mul m (by decide)
      have hcases := roundWithAccuracy_cases s (e := e - 52)
        (Nat.mul_pos h (by decide : 0 < 2 ^ 52)) (by rw [hfull]; omega)
      rw [hfull, hexact] at hcases
      rcases hcases with ⟨hzero, _⟩ | ⟨m', e', h', hround, hrep, hmag⟩
      · exact absurd hzero h.ne'
      · have hmul : UnpackedFloat.mul Format.binary64 (.finite s m e h)
            (.finite .positive (2 ^ 52) (-52) (by decide)) = .finite s m' e' h' := by
          rw [← hround]
          cases s <;> rfl
        rw [hmul, units_stored s h' hrep, hmag, min_eq_left (hx.1.magnitude_lt_top_iff.2 hx.2).le]
        exact ⟨isNaN_stored s e' h', rfl⟩

/-- A number that is not placed where the infinities are is finite. -/
theorem isFinite_of_units_lt {x : UnpackedFloat} (hnum : x.isNaN = false)
    (hlow : 0 ≤ units x) (hhigh : units x < top) : x.isFinite = true := by
  have htop := top_pos
  cases x with
  | notANumber => exact absurd hnum.symm Bool.false_ne_true
  | zero s | finite s m e h => rfl
  | infinity s =>
      cases s with
      | negative =>
          simp only [units, Sign.apply] at hlow
          omega
      | positive => exact absurd hhigh (lt_irrefl _)

/-- A double is a whole number. -/
structure Whole (v : Float) (k : Nat) : Prop where
  /-- The double is finite. -/
  finite : v.isFinite = true
  /-- On the line of the doubles it is where the number is. -/
  position : position v = (magnitude k 0 : Nat)

namespace Whole

variable {v w : Float} {k j : Nat}

theorem of_position (hk : k ≤ 2 ^ 53) (hnum : v.isNaN = false)
    (h : DoubleOrder.position v = (magnitude k 0 : Nat)) : Whole v k := by
  have htop := magnitude_lt_top hk
  refine ⟨isFinite_of_units_lt hnum ?_ ?_, h⟩ <;>
    rw [show units v.toModel.unpack = _ from h] <;> omega

/-- A sum that does not go too far is not rounded. -/
theorem add (hv : Whole v k) (hw : Whole w j) (h : k + j ≤ 2 ^ 53) : Whole (v + w) (k + j) := by
  have hnum : (v + w).isNaN = false :=
    (isNaN_add_of_isFinite hv.finite w).trans (isNaN_of_isFinite hw.finite)
  refine of_position h hnum ?_
  calc DoubleOrder.position (v + w)
      = place (DoubleOrder.position v + DoubleOrder.position w) :=
        units_add_of_finite (inFormat_unpack _) (inFormat_unpack _) hv.finite hw.finite
    _ = place (magnitude (k + j) 0 : Nat) := by
        rw [hv.position, hw.position, magnitude_add, Nat.cast_add]
    _ = (magnitude (k + j) 0 : Nat) := place_whole h

theorem le_iff (hv : Whole v k) (hw : Whole w j) : v ≤ w ↔ k ≤ j := by
  have hunit : 0 < 2 ^ ((0 : Int) + 1074).toNat := by positivity
  rw [le_iff_position, hv.position, hw.position, Int.ofNat_le, magnitude, magnitude,
    Nat.mul_le_mul_right_iff hunit]
  exact ⟨fun h => h.2.2, fun h => ⟨isNaN_of_isFinite hv.finite, isNaN_of_isFinite hw.finite, h⟩⟩

end Whole

theorem whole_zero : Whole 0.0 0 := ⟨rfl, by rw [position_zero, magnitude, zero_mul]; rfl⟩

theorem whole_one : Whole 1.0 1 := ⟨rfl, position_one⟩

/-- A natural number that is not too large is converted to itself. -/
theorem whole_ofNat {k : Nat} (h : k < 2 ^ 53) : Whole (Scalar.ofNat k) k := by
  have hscaled : (Scalar.ofNat k : Float) = k.toUInt64.toFloat * 1.0 := by
    change Float.ofScientific k false 0 = _
    unfold Float.ofScientific
    rw [dif_pos ⟨h, by decide⟩]
    rfl
  have hword : k.toUInt64.toNat = k := Nat.mod_eq_of_lt (h.trans (by decide))
  have hexact : (k : Int) * 2 ^ ((0 : Int) + 1074).toNat = (magnitude k 0 : Nat) := by
    rw [magnitude, Nat.cast_mul, Nat.cast_pow]
    rfl
  -- The integer is converted as it stands, without rounding.
  have hinteger : Whole k.toUInt64.toFloat k := by
    have hunpack : k.toUInt64.toFloat.toModel.unpack =
        stored (UnpackedFloat.normalize Format.binary64 k.toUInt64.toNat 0 .positive) := rfl
    rw [hword] at hunpack
    refine .of_position h.le ?_ ?_
    · change k.toUInt64.toFloat.toModel.unpack.isNaN = false
      rw [hunpack]
      exact isNaN_normalize k (by decide)
    · rw [DoubleOrder.position, hunpack, units_normalize k (by decide), hexact, place_whole h.le]
  rcases mul_one_spec (inFormat_unpack k.toUInt64.toFloat.toModel) with ⟨hnum, hunits⟩
  rw [hscaled]
  exact .of_position h.le (hnum.trans (isNaN_of_isFinite hinteger.finite))
    (hunits.trans hinteger.position)

end DoubleOrder

end OuterApprox
