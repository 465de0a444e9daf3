import OuterApprox.Proofs.CutPoints
import OuterApprox.Proofs.DoubleReflection

/-!
# Normalizing

Whether the sign of a residual survives the division by its scale. A constraint is fulfilled
where its residual is not positive, and everything later looks at the normalized value
instead. So the two must have the same sign, and for doubles that could fail at both ends of
the range. A positive residual could be so small that the quotient is rounded to zero. It never
is: a residual is a difference with the right-hand side, and two doubles that differ have few
digits in common, so the difference is not much smaller than the scale. At the other end both
can be infinite. A right-hand side that is not finite leaves a residual that is not finite, or
none; an undefined residual is replaced by infinity before the division, but a quotient of
infinities is not.

## Main definitions

* `Scalar.SignedQuotient`: The laws.
* `Constraint.blind`: The normalized value of a constraint is lost.

## Theorems

* `DoubleOrder.roundWithAccuracy_floor`, `DoubleOrder.divCore_spec`: What is rounded to zero.
* `DoubleOrder.two_pow_le_sub`: Doubles that differ.
* `DoubleOrder.position_scale_le`: A positive residual and its scale.
* `floatSignedQuotient`, `exactSignedQuotient`: The laws for both kinds of scalars.
* `Constraint.undefined_normalized_iff`, `Constraint.normalized_nonpos_iff`: The normalized value
  of a constraint.
-/

namespace OuterApprox

/-- An order of numbers in which a residual and its normalized value have the same sign. -/
class Scalar.SignedQuotient (α : Type) [Scalar α] : Prop extends Scalar.ScaledOrder α where
  /-- A positive difference with a finite number is positive over the size of that number. -/
  quotient_pos : ∀ {a u : α}, Scalar.isFinite u = true → 0.0 < a - u →
    0.0 < (a - u) / Scalar.max (Scalar.abs u) 1.0
  /-- What is not positive is not positive over a positive number. -/
  quotient_nonpos : ∀ {a d : α}, a ≤ 0.0 → 0.0 < d → Scalar.isFinite d = true → a / d ≤ 0.0
  /-- A difference with an infinity is infinite or undefined, and undefined over an infinity. -/
  quotient_undefined : ∀ {a u : α}, Scalar.isFinite u = false →
    Scalar.isUndefined (a - u) = false →
    Scalar.isUndefined ((a - u) / Scalar.max (Scalar.abs u) 1.0) = true

namespace DoubleOrder

open Float.Model Float.Model.UnpackedFloat

/-! ## Rounding a quotient -/

theorem mantissa_shiftRight (em : ExtendedMantissa) (k : Nat) :
    (em >>> k).mantissa = em.mantissa / 2 ^ k := by
  induction k with
  | zero =>
      rw [pow_zero, Nat.div_one]
      rfl
  | succ k ih =>
      change (em >>> k).mantissa / 2 = _
      rw [ih, Nat.div_div_eq_div_mul, ← pow_succ]

theorem mantissa_ofMantissaAndAccuracy (m : Nat) (acc : Accuracy) :
    (ExtendedMantissa.ofMantissaAndAccuracy m acc).mantissa = m := by
  cases acc with
  | exact => rfl
  | inexact o => cases o <;> rfl

theorem roundedMantissa_bounds (em : ExtendedMantissa) :
    em.mantissa ≤ em.roundedMantissa ∧ em.roundedMantissa ≤ em.mantissa + 1 := by
  rcases em with ⟨m, _ | _, _ | _⟩
  · exact ⟨le_rfl, Nat.le_succ m⟩
  · exact ⟨le_rfl, Nat.le_succ m⟩
  · change m ≤ m + m % 2 ∧ m + m % 2 ≤ m + 1
    omega
  · exact ⟨Nat.le_succ m, le_rfl⟩

/-- How many digits are cut off a mantissa before it is rounded. -/
def cutOff (m : Nat) (e : Int) : Nat := (fullExponent m e - e).toNat

/-- Whatever is known of the digits behind a mantissa, it is rounded to a representable number,
    and to zero only if all of its own digits are cut off. -/
theorem roundWithAccuracy_floor (s : Sign) {m : Nat} {e : Int} (acc : Accuracy)
    (hm : 0 < m ∨ e ≤ -1074) (ht : e ≤ fullExponent m e) :
    (m / 2 ^ cutOff m e = 0 ∧ roundWithAccuracy Format.binary64 s m e acc = .zero s) ∨
      ∃ m' e' h, roundWithAccuracy Format.binary64 s m e acc = .finite s m' e' h ∧
        Representable m' e' := by
  have hexp : e + (cutOff m e : Int) = fullExponent m e := by
    rw [cutOff]
    omega
  have hleast : -1074 ≤ fullExponent m e := le_max_right _ _
  -- What is left after the cut is representable, and zero only at the least exponent.
  have hfloor : m / 2 ^ cutOff m e < 2 ^ 53 ∧
      (2 ^ 52 ≤ m / 2 ^ cutOff m e ∨ fullExponent m e = -1074) := by
    -- Rounded to zero, nothing was left before the point; otherwise there is at most a carry.
    rcases Nat.eq_zero_or_pos m with rfl | hpos
    · rw [Nat.zero_div]
      refine ⟨by positivity, .inr ?_⟩
      have hlow := hm.resolve_left (lt_irrefl 0)
      rw [fullExponent, Nat.log2_zero]
      omega
    · exact ⟨(representable_floor hpos ht).mantissa, (representable_floor hpos ht).normal⟩
  have hfirst : shiftToTargetExponent Format.binary64 m e acc =
      (ExtendedMantissa.ofMantissaAndAccuracy m acc >>> cutOff m e, fullExponent m e) := by
    rw [shiftToTargetExponent, shiftToExponent, targetExponent_eq, ← cutOff, hexp]
  have hbounds :=
    roundedMantissa_bounds (ExtendedMantissa.ofMantissaAndAccuracy m acc >>> cutOff m e)
  rw [mantissa_shiftRight, mantissa_ofMantissaAndAccuracy] at hbounds
  rcases Nat.eq_zero_or_pos
    (ExtendedMantissa.ofMantissaAndAccuracy m acc >>> cutOff m e).roundedMantissa with hzero | hpos
  · refine .inl ⟨Nat.le_zero.1 (hzero ▸ hbounds.1), ?_⟩
    simp only [roundWithAccuracy, hfirst, hzero]
    exact dif_pos (shiftToTargetExponent_zero hleast)
  · rcases exists_carry hpos (hbounds.2.trans hfloor.1) hleast
      (hfloor.2.imp_left fun h => h.trans hbounds.1) with ⟨m', e', hcarry, hpos', hrep, _⟩
    refine .inr ⟨m', e', hpos', ?_, hrep⟩
    simp only [roundWithAccuracy, hfirst, hcarry]
    exact dif_neg hpos'.ne'

/-- The exponent of a quotient is not above the full one, and a quotient without digits is
    below all numbers. -/
theorem divCore_spec {m n : Nat} (e f : Int) (hm : 0 < m) (hn : 0 < n) :
    ∃ q t acc, divCore Format.binary64 m e n f = (q, t, acc) ∧ t ≤ e - f ∧
      q = m * 2 ^ (e - f - t).toNat / n ∧ (0 < q ∨ t ≤ -1074) ∧ t ≤ fullExponent q t := by
  have htarget : Format.binary64.targetExponent (totalExponent m e - totalExponent n f) =
      max ((m.log2 : Int) + e - n.log2 - f - 53) (-1074) := by
    change max ((m.log2 : Int) + 1 + e - (n.log2 + 1 + f) - 53) (-1074) = _
    congr 1
    ring
  refine ⟨_, _, _, rfl, min_le_left _ _, by rw [Nat.shiftLeft_eq], ?_⟩
  rw [htarget, Nat.shiftLeft_eq]
  generalize ht : min (e - f) (max ((m.log2 : Int) + e - n.log2 - f - 53) (-1074)) = t
  -- At the least exponent a quotient may have any number of digits.
  by_cases hlow : t ≤ -1074
  · exact ⟨.inr hlow, hlow.trans (le_max_right _ _)⟩
  · -- Above the least exponent a quotient is computed with all the digits that are kept.
    have hlong : 2 ^ 52 ≤ m * 2 ^ (e - f - t).toNat / n := by
      rw [Nat.le_div_iff_mul_le hn]
      calc 2 ^ 52 * n ≤ 2 ^ 52 * 2 ^ (n.log2 + 1) := Nat.mul_le_mul_left _ Nat.lt_log2_self.le
        _ = 2 ^ (52 + (n.log2 + 1)) := (pow_add _ _ _).symm
        _ ≤ 2 ^ (m.log2 + (e - f - t).toNat) := Nat.pow_le_pow_right (by decide) (by omega)
        _ = 2 ^ m.log2 * 2 ^ (e - f - t).toNat := pow_add _ _ _
        _ ≤ m * 2 ^ (e - f - t).toNat := Nat.mul_le_mul_right _ (Nat.log2_self_le hm.ne')
    generalize m * 2 ^ (e - f - t).toNat / n = q at *
    have hpos : 0 < q := lt_of_lt_of_le (by positivity) hlong
    have hlog : 52 ≤ q.log2 := (Nat.le_log2 hpos.ne').2 hlong
    refine ⟨.inl hpos, ?_⟩
    rw [fullExponent]
    omega

/-- A quotient of finite numbers has the product of their signs, and it is rounded to zero only
    if it is below the smallest number. -/
theorem div_finite (s t : Sign) {m n : Nat} {e f : Int} (hm : 0 < m) (hn : 0 < n)
    (he : -1074 ≤ e) (hf : -1074 ≤ f) :
    (magnitude m e * magnitude 1 0 < magnitude n f ∧
        UnpackedFloat.div Format.binary64 (.finite s m e hm) (.finite t n f hn) = .zero (s / t)) ∨
      ∃ m' e' h, UnpackedFloat.div Format.binary64 (.finite s m e hm) (.finite t n f hn) =
        .finite (s / t) m' e' h ∧ Representable m' e' := by
  obtain ⟨q, k, acc, hcore, hk, hq, hdigits, hfull⟩ := divCore_spec e f hm hn
  have hdiv : UnpackedFloat.div Format.binary64 (.finite s m e hm) (.finite t n f hn) =
      roundWithAccuracy Format.binary64 (s / t) q k acc := by
    simp only [UnpackedFloat.div, hcore]
  rw [hdiv]
  refine (roundWithAccuracy_floor (s / t) acc hdigits hfull).imp_left fun hcut => ?_
  obtain ⟨hzero, hround⟩ := hcut
  refine ⟨?_, hround⟩
  by_contra hlarge
  rw [not_lt] at hlarge
  -- A quotient that is not below the smallest number has a digit that is not cut off.
  have hpow : 2 ^ cutOff q k ≤ q := by
    by_cases hleast : fullExponent q k = -1074
    · rw [cutOff, hleast, hq, Nat.le_div_iff_mul_le hn]
      refine Nat.le_of_mul_le_mul_right ?_ (show 0 < 2 ^ (f + 1074).toNat by positivity)
      calc 2 ^ (-1074 - k).toNat * n * 2 ^ (f + 1074).toNat
          = magnitude n f * 2 ^ (-1074 - k).toNat := by rw [magnitude]; ring
        _ ≤ magnitude m e * magnitude 1 0 * 2 ^ (-1074 - k).toNat := Nat.mul_le_mul_right _ hlarge
        _ = m * 2 ^ ((e + 1074).toNat + (0 + 1074 : Int).toNat + (-1074 - k).toNat) := by
            rw [magnitude, magnitude, pow_add, pow_add]
            ring
        _ = m * 2 ^ ((e - f - k).toNat + (f + 1074).toNat) := by
            congr 2
            omega
        _ = m * 2 ^ (e - f - k).toNat * 2 ^ (f + 1074).toNat := by rw [pow_add, mul_assoc]
    -- Above the least exponent the leading digit is kept in any case.
    · have hpos : 0 < q := by
        rw [Nat.pos_iff_ne_zero]
        rintro rfl
        rw [fullExponent, Nat.log2_zero] at hleast
        omega
      refine le_trans (Nat.pow_le_pow_right (by decide) ?_) (Nat.log2_self_le hpos.ne')
      rw [cutOff, fullExponent] at *
      omega
  exact absurd hzero (Nat.div_pos hpow (by positivity)).ne'

/-! ## Small differences -/

/-- A number is a multiple of a power of two, or not much larger than it. -/
theorem InFormat.dvd_or_natAbs_lt {x : UnpackedFloat} (hx : InFormat x) (hfin : x.isFinite = true)
    (k : Nat) : (2 ^ k : Int) ∣ units x ∨ (units x).natAbs < 2 ^ (k + 52) := by
  cases x with
  | notANumber | infinity s => exact absurd hfin Bool.false_ne_true
  | zero s => exact .inl (dvd_zero _)
  | finite s m e h =>
      have habs : (units (.finite s m e h)).natAbs = magnitude m e := by
        cases s
        · exact Int.natAbs_neg _
        · rfl
      have hlow := hx.1.exponent
      by_cases hk : k ≤ (e + 1074).toNat
      · have hdvd : 2 ^ k ∣ magnitude m e := Dvd.dvd.mul_left (pow_dvd_pow 2 hk) m
        rw [← habs] at hdvd
        exact .inl (Int.natCast_dvd.2 hdvd)
      · refine .inr ?_
        rw [habs]
        calc magnitude m e < 2 ^ 53 * 2 ^ (e + 1074).toNat :=
              Nat.mul_lt_mul_of_pos_right hx.1.mantissa (by positivity)
          _ = 2 ^ (53 + (e + 1074).toNat) := (pow_add _ _ _).symm
          _ ≤ 2 ^ (k + 52) := Nat.pow_le_pow_right (by decide) (by omega)

/-- Two numbers that differ do not differ by much less than either of them: the smaller the
    difference, the larger the number of digits that they have in common, and there are few. -/
theorem two_pow_le_sub {x u : UnpackedFloat} (hx : InFormat x) (hu : InFormat u)
    (hfx : x.isFinite = true) (hfu : u.isFinite = true) {k : Nat}
    (hlarge : 2 ^ (k + 53) ≤ (units u).natAbs) (hlt : units u < units x) :
    (2 ^ k : Int) ≤ units x - units u := by
  have hfine : 2 ^ (k + 53) = 2 * 2 ^ (k + 52) := by rw [← pow_succ']
  have hcoarse : 2 ^ (k + 52) = 2 ^ 52 * 2 ^ k := by rw [← pow_add, add_comm]
  have hdvd : (2 ^ k : Int) ∣ units u :=
    (hu.dvd_or_natAbs_lt hfu k).resolve_right (by omega)
  rcases hx.dvd_or_natAbs_lt hfx k with hmultiple | hsmall
  · exact Int.le_of_dvd (sub_pos.2 hlt) (dvd_sub hmultiple hdvd)
  · -- The larger number is close to zero, so the other one is negative and far away.
    have hpow : ((2 ^ k : Nat) : Int) = 2 ^ k := by push_cast; rfl
    omega

/-! ## Signs of doubles -/

theorem isFinite_unpack_neg {b : Float} (h : b.isFinite = true) :
    b.toModel.unpack.neg.isFinite = true := by
  rw [← unpack_neg]
  exact (isFinite_neg b).trans h

/-- A difference of finite doubles is the double nearest to it. -/
theorem position_sub {a b : Float} (ha : a.isFinite = true) (hb : b.isFinite = true) :
    position (a - b) = place (position a - position b) := by
  have hadd := units_add_of_finite (inFormat_unpack a.toModel) (inFormat_unpack b.toModel).neg ha
    (isFinite_unpack_neg hb)
  rw [units_neg, ← Int.sub_eq_add_neg] at hadd
  rw [position, unpack_sub, hadd]
  rfl

/-- A difference with a finite double is finite only if the other side is. -/
theorem isFinite_of_sub {a b : Float} (hb : b.isFinite = true) (h : (a - b).isFinite = true) :
    a.isFinite = true := by
  have hneg := isFinite_unpack_neg hb
  change (a - b).toModel.unpack.isFinite = true at h
  change a.toModel.unpack.isFinite = true
  rw [unpack_sub] at h
  generalize b.toModel.unpack.neg = y at *
  generalize a.toModel.unpack = x at *
  cases x with
  | zero s | finite s m e hm => rfl
  | notANumber =>
      have hnan : UnpackedFloat.add Format.binary64 .notANumber y = .notANumber := by
        cases y <;> rfl
      rw [hnan] at h
      exact absurd h Bool.false_ne_true
  | infinity s =>
      cases y with
      | notANumber | infinity t => exact absurd hneg Bool.false_ne_true
      | zero t | finite t n f hn =>
          rw [show UnpackedFloat.add Format.binary64 (.infinity s) _ = .infinity s from rfl,
            stored_infinity] at h
          exact absurd h Bool.false_ne_true

theorem two_pow_le_position_sub {a u : Float} (ha : a.isFinite = true) (hu : u.isFinite = true)
    {k : Nat} (hlarge : 2 ^ (k + 53) ≤ (position u).natAbs) (hpos : 0 < position (a - u)) :
    (2 ^ k : Int) ≤ position (a - u) := by
  have htop := (inFormat_unpack u.toModel).units_bounds hu
  rw [position_sub ha hu] at hpos ⊢
  have hlt : position u < position a := by
    by_contra hle
    have hmono : place (position a - position u) ≤ place 0 := place_mono (by omega)
    rw [place_zero] at hmono
    omega
  have hdiff : (2 ^ k : Int) ≤ position a - position u :=
    two_pow_le_sub (inFormat_unpack a.toModel) (inFormat_unpack u.toModel) ha hu hlarge hlt
  -- A power of two is not rounded, and it is not out of range.
  have hrounded : rounded (2 ^ k) = 2 ^ k := by
    refine rounded_of_dvd (pow_dvd_pow 2 ?_)
    rw [Nat.log2_two_pow]
    exact Nat.sub_le _ _
  have hrange : 2 ^ k ≤ top := by
    have hle : 2 ^ k ≤ 2 ^ (k + 53) := Nat.pow_le_pow_right (by decide) (by omega)
    unfold position at hlarge
    omega
  calc (2 ^ k : Int) = place (2 ^ k : Nat) := by
        rw [place_natCast, hrounded, min_eq_left hrange]
        push_cast
        rfl
    _ ≤ place (position a - position u) := place_mono (by push_cast; exact hdiff)

/-- A quotient of positive doubles is positive, unless it is below the smallest one. -/
theorem position_div_pos {v d : Float} (hv : 0 < position v) (hd : 0 < position d)
    (hfin : d.isFinite = true)
    (hlarge : v.isFinite = true → position d ≤ position v * (magnitude 1 0 : Nat)) :
    (v / d).isNaN = false ∧ 0 < position (v / d) := by
  change (stored (UnpackedFloat.div Format.binary64 v.toModel.unpack d.toModel.unpack)).isNaN =
    false ∧ 0 < units (stored (UnpackedFloat.div Format.binary64 v.toModel.unpack
      d.toModel.unpack))
  change d.toModel.unpack.isFinite = true at hfin
  change v.toModel.unpack.isFinite = true → _ at hlarge
  unfold position at *
  have hx := inFormat_unpack v.toModel
  have hy := inFormat_unpack d.toModel
  generalize v.toModel.unpack = x at *
  generalize d.toModel.unpack = y at *
  rcases cases_of_units_pos hy hd with rfl | ⟨n, f, hn, rfl, hrep'⟩
  · exact absurd hfin Bool.false_ne_true
  rcases cases_of_units_pos hx hv with rfl | ⟨m, e, hm, rfl, hrep⟩
  · rw [show UnpackedFloat.div Format.binary64 (.infinity .positive) (.finite .positive n f hn) =
      .infinity .positive from rfl, stored_infinity]
    exact ⟨rfl, Int.natCast_pos.2 top_pos⟩
  have hle : magnitude n f ≤ magnitude m e * magnitude 1 0 := by
    have hle := hlarge rfl
    simp only [units, Sign.apply] at hle
    exact_mod_cast hle
  rcases div_finite .positive .positive hm hn hrep.exponent hrep'.exponent with
    ⟨hsmall, _⟩ | ⟨m', e', h, hdiv, hrep''⟩
  · exact absurd hsmall (not_lt.2 hle)
  · rw [hdiv]
    refine ⟨isNaN_stored _ e' h, ?_⟩
    rw [units_stored _ h hrep'']
    exact Int.natCast_pos.2 (lt_min (magnitude_pos e' h) top_pos)

/-- A quotient with a positive double is not positive if the other side is not. -/
theorem position_div_nonpos {v d : Float} (hv : position v ≤ 0) (hnum : v.isNaN = false)
    (hd : 0 < position d) (hfin : d.isFinite = true) : position (v / d) ≤ 0 := by
  change units (stored (UnpackedFloat.div Format.binary64 v.toModel.unpack
    d.toModel.unpack)) ≤ 0
  change v.toModel.unpack.isNaN = false at hnum
  change d.toModel.unpack.isFinite = true at hfin
  unfold position at *
  have hx := inFormat_unpack v.toModel
  have hy := inFormat_unpack d.toModel
  generalize v.toModel.unpack = x at *
  generalize d.toModel.unpack = y at *
  rcases cases_of_units_pos hy hd with rfl | ⟨n, f, hn, rfl, hrep'⟩
  · exact absurd hfin Bool.false_ne_true
  have htop := Int.natCast_pos.2 top_pos
  cases x with
  | notANumber => exact absurd hnum.symm Bool.false_ne_true
  | infinity s =>
      cases s with
      | positive => exact absurd htop (not_lt.2 hv)
      | negative =>
          rw [show UnpackedFloat.div Format.binary64 (.infinity .negative)
            (.finite .positive n f hn) = .infinity .negative from rfl, stored_infinity]
          exact hv
  | zero s =>
      rw [show UnpackedFloat.div Format.binary64 (.zero s) (.finite .positive n f hn) =
        .zero (s / .positive) from rfl, stored_zero]
      exact le_rfl
  | finite s m e hm =>
      cases s with
      | positive => exact absurd (Int.natCast_pos.2 (magnitude_pos e hm)) (not_lt.2 hv)
      | negative =>
          rcases div_finite .negative .positive hm hn hx.1.exponent hrep'.exponent with
            ⟨_, hdiv⟩ | ⟨m', e', h, hdiv, hrep''⟩
          · rw [hdiv, stored_zero]
            exact le_rfl
          · rw [hdiv, units_stored _ h hrep'']
            exact neg_nonpos.2 (Int.natCast_nonneg _)

/-! ## Scales -/

/-- The scale of a right-hand side is its size, unless that is less than one. -/
theorem scale_eq (u : Float) :
    Scalar.max u.abs 1.0 = if 1.0 < u.abs then u.abs else 1.0 := by
  have hone : Scalar.isUndefined (1.0 : Float) = false := by decide
  rw [Scalar.max, hone, if_neg Bool.false_ne_true]

theorem unpack_abs (u : Float) : u.abs.toModel.unpack = u.toModel.unpack.abs :=
  stored_of_inFormat (inFormat_unpack u.toModel).abs

theorem position_abs (u : Float) : position u.abs = ((position u).natAbs : Nat) := by
  rw [position, unpack_abs, position]
  cases u.toModel.unpack with
  | notANumber | zero s => rfl
  | infinity s | finite s m e hm =>
      cases s
      · simp only [UnpackedFloat.abs, units, Sign.apply, Int.natAbs_neg, Int.natAbs_natCast]
      · rfl

/-- The scale of a right-hand side is not out of reach of a positive residual: as far as one can
    be close to the other, dividing them does not lead below the smallest number. -/
theorem position_scale_le {a u : Float} (hu : u.isFinite = true) (ha : a.isFinite = true)
    (hpos : 0 < position (a - u)) :
    position (Scalar.max u.abs 1.0) ≤ position (a - u) * (magnitude 1 0 : Nat) := by
  rw [scale_eq]
  split
  next hone =>
    obtain ⟨-, -, hone⟩ := (lt_iff_position _ _).1 hone
    rw [position_one, position_abs] at hone
    rw [position_abs]
    have hone := Int.ofNat_lt.1 hone
    have hunit : magnitude 1 0 = 2 ^ (0 + 1074 : Int).toNat := Nat.one_mul _
    rw [hunit] at hone ⊢
    obtain ⟨b, hb⟩ : ∃ b, (0 + 1074 : Int).toNat = b := ⟨_, rfl⟩
    have hlarge : 1074 ≤ b ∧ b ≤ 1074 := by omega
    rw [hb] at hone ⊢
    generalize hU : (position u).natAbs = U at *
    have hlog : b ≤ U.log2 := (Nat.le_log2 (by omega)).2 hone.le
    -- The size has so many digits that a difference, which has a few less, is still long.
    have hdiff : (2 ^ (U.log2 + 1 - b) : Int) ≤ position (a - u) := by
      refine two_pow_le_position_sub ha hu ?_ hpos
      rw [hU]
      exact (Nat.pow_le_pow_right (by decide) (by omega)).trans (Nat.log2_self_le (by omega))
    calc (U : Int) ≤ ((2 ^ (U.log2 + 1 - b) * 2 ^ b : Nat) : Int) := by
          rw [← pow_add, Nat.sub_add_cancel (by omega)]
          exact Int.ofNat_le.2 Nat.lt_log2_self.le
      _ = (2 ^ (U.log2 + 1 - b) : Int) * (2 ^ b : Nat) := by push_cast; rfl
      _ ≤ position (a - u) * (2 ^ b : Nat) :=
          mul_le_mul_of_nonneg_right hdiff (Int.natCast_nonneg _)
  · rw [position_one]
    exact le_mul_of_one_le_left (Int.natCast_nonneg _) hpos

theorem quotient_pos {a u : Float} (hu : u.isFinite = true) (h : 0.0 < a - u) :
    0.0 < (a - u) / Scalar.max u.abs 1.0 := by
  obtain ⟨hscale, hfinite⟩ := Scalar.ScaledOrder.scale_spec (α := Float) hu
  obtain ⟨-, -, hpos⟩ := (lt_iff_position _ _).1 h
  obtain ⟨-, -, hd⟩ := (lt_iff_position _ _).1 hscale
  rw [position_zero] at hpos hd
  obtain ⟨hnum, hquotient⟩ := position_div_pos hpos hd hfinite fun hfin =>
    position_scale_le hu (isFinite_of_sub hu hfin) hpos
  exact (lt_iff_position _ _).2 ⟨rfl, hnum, hquotient⟩

theorem quotient_nonpos {a d : Float} (h : a ≤ 0.0) (hd : 0.0 < d) (hfin : d.isFinite = true) :
    a / d ≤ 0.0 := by
  obtain ⟨hnum, -, ha⟩ := (le_iff_position _ _).1 h
  obtain ⟨-, -, hpos⟩ := (lt_iff_position _ _).1 hd
  have hdefined : (a / d).isNaN = false := Scalar.ScaledOrder.defined_div (α := Float) hnum hd hfin
  exact (le_iff_position _ _).2 ⟨hdefined, rfl, position_div_nonpos ha hnum hpos hfin⟩

theorem stored_notANumber : stored .notANumber = .notANumber := stored_of_inFormat True.intro

/-- A sum with an infinity is that infinity or no number. -/
theorem add_infinity (x : UnpackedFloat) (s : Sign) :
    UnpackedFloat.add Format.binary64 x (.infinity s) = .infinity s ∨
      UnpackedFloat.add Format.binary64 x (.infinity s) = .notANumber := by
  cases x with
  | notANumber => exact .inr rfl
  | zero t | finite t m e hm => exact .inl rfl
  | infinity t => cases s <;> cases t <;> first | exact .inl rfl | exact .inr rfl

/-- The scale of an infinite right-hand side is infinite. -/
theorem unpack_scale_infinite {u : Float} {s : Sign} (hu : u.toModel.unpack = .infinity s) :
    (Scalar.max u.abs 1.0).toModel.unpack = .infinity .positive := by
  have habs : u.abs.toModel.unpack = .infinity .positive := by
    rw [unpack_abs, hu]
    rfl
  have hlarge : 1.0 < u.abs := by
    rw [lt_iff_unpack, habs]
    decide +kernel
  rw [scale_eq, if_pos hlarge, habs]

/-- A difference with an infinity, over an infinity. -/
theorem quotient_undefined {a u : Float} (hu : u.isFinite = false) (h : (a - u).isNaN = false) :
    ((a - u) / Scalar.max u.abs 1.0).isNaN = true := by
  change u.toModel.unpack.isFinite = false at hu
  change (a - u).toModel.unpack.isNaN = false at h
  cases hinfinite : u.toModel.unpack with
  | zero s | finite s m e hm => rw [hinfinite] at hu; exact absurd hu.symm Bool.false_ne_true
  | notANumber =>
      rw [unpack_sub, hinfinite, show UnpackedFloat.neg .notANumber = .notANumber from rfl,
        add_notANumber, stored_notANumber] at h
      exact absurd h.symm Bool.false_ne_true
  | infinity s =>
      have hsub : (a - u).toModel.unpack = .infinity (-s) := by
        rw [unpack_sub, hinfinite] at h ⊢
        rcases add_infinity a.toModel.unpack (-s) with hsum | hsum
        · rw [show UnpackedFloat.neg (.infinity s) = .infinity (-s) from rfl, hsum,
            stored_infinity]
        · rw [show UnpackedFloat.neg (.infinity s) = .infinity (-s) from rfl, hsum,
            stored_notANumber] at h
          exact absurd h.symm Bool.false_ne_true
      change (stored (UnpackedFloat.div Format.binary64 (a - u).toModel.unpack
        (Scalar.max u.abs 1.0).toModel.unpack)).isNaN = true
      rw [hsub, unpack_scale_infinite hinfinite, show UnpackedFloat.div Format.binary64
        (.infinity (-s)) (.infinity .positive) = .notANumber from rfl, stored_notANumber]
      rfl

end DoubleOrder

instance floatSignedQuotient : Scalar.SignedQuotient Float where
  quotient_pos := DoubleOrder.quotient_pos
  quotient_nonpos := DoubleOrder.quotient_nonpos
  quotient_undefined := DoubleOrder.quotient_undefined

namespace Exact

theorem quotient_pos {a u : Exact} (hu : Scalar.isFinite u = true) (h : 0.0 < a - u) :
    0.0 < (a - u) / Scalar.max (Scalar.abs u) 1.0 := by
  obtain ⟨k, hk, hpos⟩ := exists_scale hu
  rw [hk]
  rw [eq_finite hu, zero_eq] at *
  rcases a with r | ⟨_ | _⟩ | _
  · rw [finite_sub, finite_lt] at h
    rw [finite_sub, finite_div _ hpos.ne', finite_lt]
    exact div_pos h hpos
  · -- Infinity over a positive number is infinity.
    have hdiv : infinite false - finite u.toRat = infinite false ∧
        infinite false / finite k = infinite (decide (k < 0)) := ⟨rfl, by
      change infinite (false != decide (k < 0)) = _
      rw [Bool.false_bne]⟩
    rw [hdiv.1, hdiv.2, decide_eq_false (not_lt.2 hpos.le)]
    rfl
  · exact absurd h Bool.false_ne_true
  · exact absurd h Bool.false_ne_true

theorem quotient_nonpos {a d : Exact} (h : a ≤ 0.0) (hd : 0.0 < d)
    (hfin : Scalar.isFinite d = true) : a / d ≤ 0.0 := by
  rw [eq_finite hfin, zero_eq, finite_lt] at hd
  rw [zero_eq] at h
  rw [eq_finite hfin, zero_eq]
  rcases a with r | ⟨_ | _⟩ | _
  · rw [finite_le] at h
    rw [finite_div _ hd.ne', finite_le]
    exact div_nonpos_of_nonpos_of_nonneg h hd.le
  · exact absurd h Bool.false_ne_true
  · have hdiv : infinite true / finite d.toRat = infinite (!decide (d.toRat < 0)) := by
      change infinite (true != decide (d.toRat < 0)) = _
      rw [Bool.true_bne]
    rw [hdiv, decide_eq_false (not_lt.2 hd.le)]
    rfl
  · exact absurd h Bool.false_ne_true

theorem quotient_undefined {a u : Exact} (hu : Scalar.isFinite u = false)
    (h : Scalar.isUndefined (a - u) = false) :
    Scalar.isUndefined ((a - u) / Scalar.max (Scalar.abs u) 1.0) = true := by
  rcases u with q | s | _
  · exact absurd hu.symm Bool.false_ne_true
  · have hscale : Scalar.max (Scalar.abs (infinite s)) 1.0 = infinite false := by
      rw [one_eq]
      rfl
    rw [hscale]
    rcases a with r | t | _
    · rfl
    · cases s <;> cases t <;> rfl
    · exact absurd h.symm Bool.false_ne_true
  · rcases a with r | t | _ <;> exact absurd h.symm Bool.false_ne_true

end Exact

instance exactSignedQuotient : Scalar.SignedQuotient Exact where
  quotient_pos := Exact.quotient_pos
  quotient_nonpos := Exact.quotient_nonpos
  quotient_undefined := Exact.quotient_undefined

theorem Scalar.zero_lt_infinity {α : Type} [Scalar α] [Scalar.UnitInterval α] :
    (0.0 : α) < Scalar.infinity := by
  have hone : Sense.minimize.better (0.0 : α) 1.0 = true :=
    decide_eq_true Scalar.UnitInterval.zero_lt_one
  exact of_decide_eq_true (Sense.better_worst_of_better .minimize hone)

namespace Constraint

variable {α : Type} [Scalar α]

/-- Whether the normalized value of a constraint is lost at a point: the right-hand side is not
    finite, and the residual is not undefined but infinite. -/
def blind (c : Constraint α) (x : Point α) : Bool :=
  !Scalar.isFinite c.upper && !Scalar.isUndefined (c.residual x)

theorem blind_eq_false (c : Constraint α) (x : Point α) (h : Scalar.isFinite c.upper = true) :
    c.blind x = false := by
  rw [blind, h, Bool.not_true, Bool.false_and]

variable [Scalar.SignedQuotient α] {c : Constraint α} {x : Point α}

/-- A normalized value is undefined exactly if it is lost. -/
theorem undefined_normalized_iff (i : Nat) :
    Scalar.isUndefined (c.valueAt i x).normalized = true ↔ c.blind x = true := by
  cases hfinite : Scalar.isFinite c.upper with
  | true => rw [defined_normalized hfinite i x, c.blind_eq_false x hfinite]
  | false =>
      rw [blind, hfinite, Bool.not_false, Bool.true_and, Bool.not_eq_true']
      simp only [valueAt]
      split
      next hvalue =>
        have hinfinity : Scalar.isUndefined (Scalar.infinity : α) = false :=
          Sense.defined_worst .minimize
        rw [hinfinity, hvalue]
        exact eq_comm
      next hvalue =>
        have hdefined := Bool.eq_false_iff.2 hvalue
        exact iff_of_true (Scalar.SignedQuotient.quotient_undefined hfinite hdefined) hdefined

/-- Unless it is lost, a normalized value has the sign of the residual. -/
theorem normalized_nonpos_iff (i : Nat) (h : c.blind x = false) :
    (c.valueAt i x).normalized ≤ 0.0 ↔ c.residual x ≤ 0.0 := by
  simp only [valueAt]
  split
  next hvalue =>
    -- An undefined residual is not at most zero, and neither is infinity.
    refine iff_of_false (fun hle => ?_) fun hle => ?_
    · have hinfinity : (Scalar.infinity : α) ≤ 0.0 := hle
      exact ((Scalar.NumberOrder.lt_iff _ _).1 Scalar.zero_lt_infinity).2 hinfinity
    · rw [(Scalar.NumberOrder.defined_of_le hle).1] at hvalue
      exact absurd hvalue Bool.false_ne_true
  next hvalue =>
    have hdefined := Bool.eq_false_iff.2 hvalue
    have hupper : Scalar.isFinite c.upper = true := by
      rw [blind, hdefined, Bool.not_false, Bool.and_true, Bool.not_eq_false'] at h
      exact h
    obtain ⟨hpos, hfinite⟩ := c.scale_spec hupper
    constructor
    · intro hle
      by_contra hnot
      have hlt :=
        Scalar.NumberOrder.lt_of_not_le hdefined Scalar.UnitInterval.defined_zero hnot
      have hquotient : 0.0 < c.residual x / c.scale :=
        Scalar.SignedQuotient.quotient_pos hupper hlt
      exact ((Scalar.NumberOrder.lt_iff _ _).1 hquotient).2 hle
    · exact fun hle => Scalar.SignedQuotient.quotient_nonpos hle hpos hfinite

end Constraint

end OuterApprox
