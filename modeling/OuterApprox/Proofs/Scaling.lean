import OuterApprox.Proofs.Narrowing

/-!
# Scaling

Two things happen to the normalized value of a constraint that rounding might spoil.
The residual is divided by a scale, and the quotient must be a number again. And
the largest value is multiplied by a factor of at most one to give the threshold that
a constraint must reach to be linearized; the product must not be above the value
itself, or the worst constraint would miss its own threshold.

For doubles neither is a matter of exact arithmetic. A product of small numbers has an
exact value below the smallest double, and is rounded to the nearest one. It is still
not above the number that was scaled, because rounding keeps the order and that number
needs no rounding. The exponent of the product may be smaller than the one of the number
that was scaled, and so the two are compared as multiples of the same unit.

## Main definitions

* `Scalar.ScaledOrder`: The laws.

## Theorems

* `DoubleOrder.isNaN_stored`: Packing a finite number gives a number.
* `DoubleOrder.roundWithAccuracy_mul`: A rounded product of mantissas.
* `DoubleOrder.units_mul_le`: A product with a factor of at most one.
* `DoubleOrder.isNaN_div`: Quotients that are numbers.
* `floatScaledOrder`, `exactScaledOrder`: The laws for both kinds of scalars.
-/

namespace OuterApprox

/-- An order of numbers in which numbers can be scaled down. -/
class Scalar.ScaledOrder (α : Type) [Scalar α] : Prop extends Scalar.UnitInterval α where
  /-- A factor of at most one does not make a positive number larger. -/
  mul_le : ∀ {f x : α}, 0.0 < f → f ≤ 1.0 → 0.0 < x → f * x ≤ x
  /-- A number over a positive one that is finite is a number. -/
  defined_div : ∀ {a d : α}, Scalar.isUndefined a = false → 0.0 < d →
    Scalar.isFinite d = true → Scalar.isUndefined (a / d) = false
  /-- The size of a finite number is finite. -/
  isFinite_abs : ∀ {a : α}, Scalar.isFinite a = true → Scalar.isFinite (Scalar.abs a) = true
  /-- One is finite. -/
  isFinite_one : Scalar.isFinite (1.0 : α) = true

namespace DoubleOrder

open Float.Model Float.Model.UnpackedFloat

/-! ## Storing -/

theorem stored_infinity (s : Sign) : stored (.infinity s) = .infinity s :=
  stored_of_inFormat True.intro

theorem stored_zero (s : Sign) : stored (.zero s) = .zero s := stored_of_inFormat True.intro

/-- A finite number is not packed as the undefined value, whatever its mantissa and its
    exponent are. -/
theorem isNaN_stored (s : Sign) {m : Nat} (e : Int) (h : 0 < m) :
    (stored (.finite s m e h)).isNaN = false := by
  -- The exponent field of the undefined value is full, and no finite number is given it.
  have hfield : ∀ (b : BitVec 11) (c : BitVec 52), b ≠ -1#11 →
      (UnpackedFloat.unpack Format.binary64 (packComponents Format.binary64 s b c)).isNaN =
        false := by
    intro b c hb
    simp only [UnpackedFloat.unpack, unpackExponent_packComponents, unpackMantissa_packComponents]
    rw [if_neg hb]
    split
    · split <;> rfl
    · rfl
  simp only [stored_eq, UnpackedFloat.pack]
  split
  · cases s <;> rfl
  next hrange =>
    split
    · refine hfield _ _ fun hones => hrange ?_
      have hnat := congrArg BitVec.toNat hones
      rw [BitVec.toNat_ofNat] at hnat
      change _ % 2048 = 2047 at hnat
      change 2048 ≤ _ + 1
      omega
    · exact hfield _ _ (by decide)

/-! ## Products -/

theorem position_one : position 1.0 = (magnitude 1 0 : Nat) := by decide +kernel

theorem position_zero : position 0.0 = 0 := rfl

/-- What is above zero is infinity, or a mantissa and an exponent. -/
theorem cases_of_units_pos {x : UnpackedFloat} (hx : InFormat x) (hpos : 0 < units x) :
    x = .infinity .positive ∨ ∃ m e h, x = .finite .positive m e h ∧ Representable m e := by
  cases x with
  | notANumber | zero s => exact absurd hpos (lt_irrefl _)
  | infinity s =>
      cases s
      · exact absurd hpos (by decide +kernel)
      · exact .inl rfl
  | finite s m e h =>
      cases s
      · exact absurd hpos (not_lt.2 (neg_nonpos.2 (Int.natCast_nonneg _)))
      · exact .inr ⟨m, e, h, rfl, hx.1⟩

/-- The exact product of two mantissas has all the digits that are kept of it. -/
theorem Representable.add_le_fullExponent {m n : Nat} {e f : Int} (hm : Representable m e)
    (hn : Representable n f) (hpos : 0 < m * n) : e + f ≤ fullExponent (m * n) (e + f) := by
  have hlong : 2 ^ 52 ≤ m * n → 52 ≤ (m * n).log2 := (Nat.le_log2 hpos.ne').2
  rw [fullExponent]
  rcases hm.normal with hfull | rfl
  · have hlog := hlong (hfull.trans (Nat.le_mul_of_pos_right m (Nat.pos_of_mul_pos_left hpos)))
    omega
  rcases hn.normal with hfull | rfl
  · have hlog := hlong (hfull.trans (Nat.le_mul_of_pos_left n (Nat.pos_of_mul_pos_right hpos)))
    omega
  · omega

/-- Where the first factor is at most one, the product is rounded to something that is not
    above the second one. -/
theorem roundWithAccuracy_mul {m n : Nat} {e f : Int} (hm : Representable m e) (hpos : 0 < m)
    (hone : magnitude m e ≤ magnitude 1 0) (hn : Representable n f) (hpos' : 0 < n) :
    roundWithAccuracy Format.binary64 .positive (m * n) (e + f) .exact = .zero .positive ∨
      ∃ m' e' h, roundWithAccuracy Format.binary64 .positive (m * n) (e + f) .exact =
        .finite .positive m' e' h ∧ Representable m' e' ∧ magnitude m' e' ≤ magnitude n f := by
  have hprod : 0 < m * n := Nat.mul_pos hpos hpos'
  have hexp : e ≤ 0 := by
    by_contra hc
    have hlt : 2 ^ ((0 : Int) + 1074).toNat < 2 ^ (e + 1074).toNat :=
      Nat.pow_lt_pow_right (by decide) (by omega)
    exact not_lt.2 hone (Nat.mul_lt_mul_of_le_of_lt hpos hlt hpos)
  -- In units of its exponent the first factor is a mantissa and one is a power of two.
  have hfactor : m ≤ 2 ^ (0 - e).toNat := by
    rw [magnitude_eq_mul 1 hm.exponent hexp, one_mul] at hone
    exact Nat.le_of_mul_le_mul_right hone (by positivity)
  have hle : m * n ≤ n * 2 ^ (0 - e).toNat := by
    rw [mul_comm n]
    exact Nat.mul_le_mul_right n hfactor
  have hlog : (m * n).log2 < 53 + (0 - e).toNat := by
    rw [Nat.log2_lt hprod.ne', pow_add]
    exact hle.trans_lt (Nat.mul_lt_mul_of_pos_right hn.mantissa (by positivity))
  have hstart := hm.add_le_fullExponent hn hprod
  have hend : fullExponent (m * n) (e + f) ≤ f := by
    have hlow := hn.exponent
    rw [fullExponent]
    omega
  have hleast : -1074 ≤ fullExponent (m * n) (e + f) := le_max_right _ _
  generalize ht : fullExponent (m * n) (e + f) = t at *
  -- The second factor is a multiple of the unit of the product, which rounding keeps.
  have hunits : n * 2 ^ (0 - e).toNat = n * 2 ^ (f - t).toNat * 2 ^ (t - (e + f)).toNat := by
    rw [mul_assoc, ← pow_add]
    congr 2
    omega
  have hrounded : nearestEven (m * n) (2 ^ (t - (e + f)).toNat) ≤ n * 2 ^ (f - t).toNat := by
    rw [hunits] at hle
    exact (nearestEven_mono hle _).trans_eq (nearestEven_mul _ (by positivity))
  have hcases := roundWithAccuracy_cases .positive hprod (ht.symm ▸ hstart)
  rw [ht] at hcases
  rcases hcases with ⟨_, hzero⟩ | ⟨m', e', h, hfinite, hrep, hmag⟩
  · exact .inl hzero
  · refine .inr ⟨m', e', h, hfinite, hrep, ?_⟩
    rw [hmag, magnitude_eq_mul n hleast hend]
    exact Nat.mul_le_mul_right _ hrounded

/-- A product with a factor of at most one is a number that is not above the other factor. -/
theorem units_mul_le {x y : UnpackedFloat} (hx : InFormat x) (hy : InFormat y)
    (hxpos : 0 < units x) (hxone : units x ≤ (magnitude 1 0 : Nat)) (hypos : 0 < units y) :
    (stored (UnpackedFloat.mul Format.binary64 x y)).isNaN = false ∧
      units (stored (UnpackedFloat.mul Format.binary64 x y)) ≤ units y := by
  rcases cases_of_units_pos hx hxpos with rfl | ⟨m, e, hm, rfl, hrep⟩
  · exact absurd hxone (by decide +kernel)
  rcases cases_of_units_pos hy hypos with rfl | ⟨n, f, hn, rfl, hrep'⟩
  · rw [show UnpackedFloat.mul Format.binary64 (.finite .positive m e hm)
      (.infinity .positive) = .infinity .positive from rfl, stored_infinity]
    exact ⟨rfl, le_rfl⟩
  rw [show UnpackedFloat.mul Format.binary64 (.finite .positive m e hm)
    (.finite .positive n f hn) =
      roundWithAccuracy Format.binary64 .positive (m * n) (e + f) .exact from rfl]
  rcases roundWithAccuracy_mul hrep hm (Int.ofNat_le.1 hxone) hrep' hn with
    hzero | ⟨m', e', h, hfinite, hrep, hle⟩
  · rw [hzero, stored_zero]
    exact ⟨rfl, hypos.le⟩
  · rw [hfinite]
    constructor
    · exact isNaN_stored .positive e' h
    · rw [units_stored .positive h hrep]
      exact Int.ofNat_le.2 ((min_le_left _ _).trans hle)

theorem mul_le {f x : Float} (hf : 0.0 < f) (hone : f ≤ 1.0) (hx : 0.0 < x) : f * x ≤ x := by
  obtain ⟨_, _, hf⟩ := (lt_iff_position _ _).1 hf
  obtain ⟨_, _, hone⟩ := (le_iff_position _ _).1 hone
  obtain ⟨_, hnum, hx⟩ := (lt_iff_position _ _).1 hx
  rw [position_zero] at hf hx
  rw [position_one] at hone
  obtain ⟨hdef, hle⟩ :=
    units_mul_le (inFormat_unpack f.toModel) (inFormat_unpack x.toModel) hf hone hx
  exact (le_iff_position _ _).2 ⟨hdef, hnum, hle⟩

/-! ## Quotients -/

theorem InFormat.abs {x : UnpackedFloat} (hx : InFormat x) : InFormat x.abs := by
  cases x <;> exact hx

theorem isNaN_div {x y : UnpackedFloat} (hx : x.isNaN = false) (hy : y.isFinite = true)
    (hpos : 0 < units y) :
    (stored (UnpackedFloat.div Format.binary64 x y)).isNaN = false := by
  cases y with
  | notANumber | zero t => exact absurd hpos (lt_irrefl _)
  | infinity t => exact nomatch hy
  | finite t n f hn =>
      cases x with
      | notANumber => exact nomatch hx
      | infinity s =>
          rw [show UnpackedFloat.div Format.binary64 (.infinity s) (.finite t n f hn) =
            .infinity (s / t) from rfl, stored_infinity]
          rfl
      | zero s =>
          rw [show UnpackedFloat.div Format.binary64 (.zero s) (.finite t n f hn) =
            .zero (s / t) from rfl, stored_zero]
          rfl
      | finite s m e hm =>
          simp only [UnpackedFloat.div, roundWithAccuracy]
          split
          · rw [stored_zero]
            rfl
          · exact isNaN_stored _ _ _

end DoubleOrder

open DoubleOrder in
instance floatScaledOrder : Scalar.ScaledOrder Float where
  mul_le := DoubleOrder.mul_le
  defined_div ha hpos hfin := isNaN_div ha hfin ((lt_iff_position _ _).1 hpos).2.2
  isFinite_abs {a} h := by
    have habs : a.abs.toModel.unpack = a.toModel.unpack.abs :=
      stored_of_inFormat (inFormat_unpack a.toModel).abs
    change a.toModel.unpack.isFinite = true at h
    change a.abs.toModel.unpack.isFinite = true
    rw [habs]
    cases hu : a.toModel.unpack with
    | notANumber | infinity s => rw [hu] at h; exact nomatch h
    | zero s | finite s m e hm => rfl
  isFinite_one := by decide

namespace Exact

theorem mul_le {f x : Exact} (hf : 0.0 < f) (hone : f ≤ 1.0) (hx : 0.0 < x) : f * x ≤ x := by
  rw [zero_eq] at hf hx
  rw [one_eq] at hone
  obtain ⟨q, rfl⟩ : ∃ q, f = finite q := ⟨_, eq_finite_of_le (le_of_lt hf) hone⟩
  rw [finite_lt] at hf
  rw [finite_le] at hone
  rcases x with r | ⟨_ | _⟩ | _
  · rw [finite_lt] at hx
    rw [finite_mul, finite_le]
    exact mul_le_of_le_one_left hx.le hone
  · -- A positive number times infinity is infinity.
    have hmul : finite q * infinite false = infinite (decide (q < 0) != false) := if_neg hf.ne'
    rw [hmul, decide_eq_false (not_lt.2 hf.le)]
    rfl
  · exact absurd hx Bool.false_ne_true
  · exact absurd hx Bool.false_ne_true

theorem defined_div {a d : Exact} (ha : Scalar.isUndefined a = false) (hpos : 0.0 < d)
    (hfin : Scalar.isFinite d = true) : Scalar.isUndefined (a / d) = false := by
  rw [zero_eq, eq_finite hfin, finite_lt] at hpos
  rw [eq_finite hfin]
  rcases a with q | s | _
  · rw [finite_div q hpos.ne']
    rfl
  · rfl
  · exact absurd ha.symm Bool.false_ne_true

end Exact

instance exactScaledOrder : Scalar.ScaledOrder Exact where
  mul_le := Exact.mul_le
  defined_div := Exact.defined_div
  isFinite_abs h := by rw [Exact.eq_finite h]; rfl
  isFinite_one := by rw [Exact.one_eq]; rfl

end OuterApprox
