import OuterApprox.Proofs.ScalarOrder
import Mathlib

/-!
# Rounding of doubles

A ledger tests a bound against another one made better by a tolerance, and an engine
is told a bound made worse by one. The tests are of rounded arithmetic, and what is
needed of it is little. To make a bound better by something that is not negative does
not make it worse, and to make two bounds worse by the same does not exchange them.
Both are true of exact sums, and survive rounding because rounding is monotone and
keeps the doubles: so it jumps over none of them, and a sum that is at least `x`, a
double itself, is rounded to something that is still at least `x`.

Doubles are compared through `units`, their value as a multiple of the smallest
positive double. Exponents come first in a comparison, which is right because
mantissas are as long as they can be (`Representable`). The infinities are placed
where the first number out of range would be, so that packing a number that is
too large rounds like everything else. In these units rounding is a function of
natural numbers, `rounded`, that no longer speaks of mantissas and shifts.

## Main definitions

* `DoubleOrder.magnitude`: The size of a mantissa and an exponent.
* `DoubleOrder.Representable`, `DoubleOrder.InFormat`: What doubles consist of.
* `DoubleOrder.nearestEven`: The nearest multiple of a unit.
* `DoubleOrder.rounded`, `DoubleOrder.place`: The nearest double.
* `DoubleOrder.NotAcross`: Rounding that does not jump over a value.
* `DoubleOrder.stored`: A number that is packed and read back.
* `DoubleOrder.units`, `DoubleOrder.position`: The place of a double among all.

## Theorems

* `DoubleOrder.rounded_mono`, `DoubleOrder.place_mono`: Rounding keeps the order.
* `DoubleOrder.roundWithAccuracy_cases`, `DoubleOrder.exists_round`: Rounding by shifts is
  rounding to the nearest double.
* `DoubleOrder.stored_finite`: Packing keeps what is in range.
* `DoubleOrder.inFormat_unpack`: Doubles are in the format.
* `DoubleOrder.compare_eq_compare_units`: Doubles compare like their units.
* `DoubleOrder.units_normalize`: Normalizing rounds to the nearest double.
* `DoubleOrder.units_add`: A sum does not lead across its first operand.
* `DoubleOrder.units_add_mono`: A sum is monotone in its first operand.
* `DoubleOrder.lt_of_lt_sub`, `DoubleOrder.lt_of_add_lt`: A comparison with a
  bound made better holds with the bound itself.
-/

namespace OuterApprox

namespace DoubleOrder

open Float.Model Float.Model.UnpackedFloat

/-- The size of a number in units of the smallest positive one. -/
def magnitude (m : Nat) (e : Int) : Nat := m * 2 ^ (e + 1074).toNat

/-- A mantissa and an exponent as the format has them: the mantissa is as long as
    possible, unless the exponent is the least one. -/
structure Representable (m : Nat) (e : Int) : Prop where
  /-- The mantissa has at most 53 bits. -/
  mantissa : m < 2 ^ 53
  /-- The exponent is not below the least one. -/
  exponent : -1074 ≤ e
  /-- The leading bit is set, or the number is subnormal. -/
  normal : 2 ^ 52 ≤ m ∨ e = -1074

/-- A number is below every mantissa of full length at a larger exponent. -/
theorem Representable.magnitude_lt {m : Nat} {e f : Int} (h : Representable m e) (hlt : e < f) :
    magnitude m e < 2 ^ 52 * 2 ^ (f + 1074).toNat := by
  have hexp := h.exponent
  have hpow : 2 ^ 53 * 2 ^ (e + 1074).toNat ≤ 2 ^ 52 * 2 ^ (f + 1074).toNat := by
    rw [← pow_add, ← pow_add]
    exact Nat.pow_le_pow_right (by decide) (by omega)
  refine lt_of_lt_of_le ?_ hpow
  exact Nat.mul_lt_mul_of_pos_right h.mantissa (by positivity)

/-- Numbers with a larger exponent are larger. -/
theorem Representable.magnitude_lt_magnitude {m₁ m₂ : Nat} {e₁ e₂ : Int}
    (h₁ : Representable m₁ e₁) (h₂ : Representable m₂ e₂) (hlt : e₁ < e₂) :
    magnitude m₁ e₁ < magnitude m₂ e₂ := by
  have hfull : 2 ^ 52 ≤ m₂ := h₂.normal.resolve_right (by have := h₁.exponent; omega)
  exact (h₁.magnitude_lt hlt).trans_le (Nat.mul_le_mul_right _ hfull)

/-- A number with a mantissa is not zero. -/
theorem magnitude_pos {m : Nat} (e : Int) (h : 0 < m) : 0 < magnitude m e :=
  Nat.mul_pos h (by positivity)

/-- At a larger exponent a number is a multiple of the finer unit. -/
theorem magnitude_eq_mul {e f : Int} (m : Nat) (he : -1074 ≤ e) (hle : e ≤ f) :
    magnitude m f = m * 2 ^ (f - e).toNat * 2 ^ (e + 1074).toNat := by
  rw [magnitude, mul_assoc, ← pow_add]
  congr 2
  omega

/-! ## Nearest multiples -/

/-- How many units `u` are nearest to `n`, and an even number of them if two are. -/
def nearestEven (n u : Nat) : Nat :=
  n / u + if u < 2 * (n % u) ∨ (2 * (n % u) = u ∧ n / u % 2 = 1) then 1 else 0

/-- The nearest number of units is the one below or the one above. -/
theorem nearestEven_bounds (n u : Nat) : n / u ≤ nearestEven n u ∧ nearestEven n u ≤ n / u + 1 := by
  unfold nearestEven
  split <;> omega

/-- A multiple of the unit is nearest to itself. -/
theorem nearestEven_mul (q : Nat) {u : Nat} (hu : 0 < u) : nearestEven (q * u) u = q := by
  rw [nearestEven, Nat.mul_div_cancel _ hu, Nat.mul_mod_left, if_neg (by omega), add_zero]

/-- It does not matter in which units both are measured. -/
theorem nearestEven_scale (n u : Nat) {c : Nat} (hc : 0 < c) :
    nearestEven (n * c) (u * c) = nearestEven n u := by
  simp only [nearestEven, Nat.mul_div_mul_right _ _ hc, Nat.mul_mod_mul_right, ← mul_assoc,
    Nat.mul_lt_mul_right hc, Nat.mul_left_inj hc.ne']

/-- Rounding to a fixed unit keeps the order. -/
theorem nearestEven_mono {n n' : Nat} (h : n ≤ n') (u : Nat) :
    nearestEven n u ≤ nearestEven n' u := by
  unfold nearestEven
  rcases (Nat.div_le_div_right (c := u) h).lt_or_eq with hlt | heq
  · split <;> split <;> omega
  · -- With the same multiple below, the rest decides.
    have hn := Nat.div_add_mod n u
    have hn' := Nat.div_add_mod n' u
    rw [heq] at hn ⊢
    split <;> split <;> omega

/-- The distance of numbers with a mantissa of full length, at the size of `n`. -/
def spacing (n : Nat) : Nat := 2 ^ (n.log2 - 52)

/-- The nearest number with a mantissa that is not too long. -/
def rounded (n : Nat) : Nat := nearestEven n (spacing n) * spacing n

-- Either both numbers have the same spacing, or there is a power of two between what
-- they are rounded to.
/-- Rounding keeps the order, although the unit depends on the number. -/
theorem rounded_mono {n n' : Nat} (h : n ≤ n') : rounded n ≤ rounded n' := by
  -- Zero has no leading bit and is settled apart.
  rcases Nat.eq_zero_or_pos n with rfl | hpos
  · have hzero : rounded 0 = 0 := rfl
    rw [hzero]
    exact Nat.zero_le _
  have hlog : n.log2 ≤ n'.log2 :=
    (Nat.le_log2 (by omega)).2 ((Nat.log2_self_le hpos.ne').trans h)
  have hhigh : n < 2 ^ (n.log2 + 1) := Nat.lt_log2_self
  have hlow : 2 ^ n'.log2 ≤ n' := Nat.log2_self_le (by omega)
  rw [rounded, rounded, spacing, spacing]
  generalize n.log2 = l at *
  generalize n'.log2 = l' at *
  rcases (Nat.sub_le_sub_right hlog 52).lt_or_eq with hlt | heq
  -- The smaller number is rounded to at most a full mantissa of its own, the larger one to at
  -- least the shortest full one.
  · have hupper : nearestEven n (2 ^ (l - 52)) ≤ 2 ^ 53 := by
      refine (nearestEven_bounds _ _).2.trans (Nat.succ_le_of_lt ?_)
      rw [Nat.div_lt_iff_lt_mul (by positivity), ← pow_add]
      exact hhigh.trans_le (Nat.pow_le_pow_right (by decide) (by omega))
    have hlower : 2 ^ 52 ≤ nearestEven n' (2 ^ (l' - 52)) := by
      refine le_trans ?_ (nearestEven_bounds _ _).1
      rw [Nat.le_div_iff_mul_le (by positivity), ← pow_add]
      exact (Nat.pow_le_pow_right (by decide) (by omega)).trans hlow
    calc nearestEven n (2 ^ (l - 52)) * 2 ^ (l - 52)
        ≤ 2 ^ 53 * 2 ^ (l - 52) := Nat.mul_le_mul_right _ hupper
      _ ≤ 2 ^ 52 * 2 ^ (l' - 52) := by
          rw [← pow_add, ← pow_add]
          exact Nat.pow_le_pow_right (by decide) (by omega)
      _ ≤ nearestEven n' (2 ^ (l' - 52)) * 2 ^ (l' - 52) := Nat.mul_le_mul_right _ hlower
  · rw [heq]
    exact Nat.mul_le_mul_right _ (nearestEven_mono h _)

/-- Shifting moves the leading bit. -/
theorem log2_mul_two_pow {m : Nat} (hm : 0 < m) (a : Nat) : (m * 2 ^ a).log2 = m.log2 + a := by
  rw [Nat.log2_eq_iff (by positivity), pow_add]
  refine ⟨Nat.mul_le_mul_right _ (Nat.log2_self_le hm.ne'), ?_⟩
  rw [show m.log2 + a + 1 = m.log2 + 1 + a by omega, pow_add]
  exact Nat.mul_lt_mul_of_pos_right Nat.lt_log2_self (by positivity)

/-- A multiple of its own spacing is not rounded. -/
theorem rounded_of_dvd {n : Nat} (h : spacing n ∣ n) : rounded n = n := by
  rcases h with ⟨q, hq⟩
  have hpos : 0 < spacing n := by unfold spacing; positivity
  calc rounded n = nearestEven (q * spacing n) (spacing n) * spacing n := by
        rw [mul_comm q, ← hq, rounded]
    _ = n := by rw [nearestEven_mul q hpos, mul_comm, ← hq]

/-- Rounding keeps what needs no rounding. -/
theorem Representable.rounded_magnitude {m : Nat} {e : Int} (h : Representable m e) :
    rounded (magnitude m e) = magnitude m e := by
  rcases Nat.eq_zero_or_pos m with rfl | hm
  · rw [magnitude, zero_mul]
    rfl
  have hlog : m.log2 < 53 := (Nat.log2_lt hm.ne').2 h.mantissa
  -- The spacing divides the unit of the exponent.
  refine rounded_of_dvd (Dvd.dvd.mul_left (pow_dvd_pow 2 ?_) m)
  rw [magnitude, log2_mul_two_pow hm]
  omega

/-- Rounding makes no number vanish. -/
theorem rounded_pos {n : Nat} (h : 0 < n) : 0 < rounded n := by
  have hone : rounded 1 = 1 := by decide
  have hle : rounded 1 ≤ rounded n := rounded_mono h
  omega

/-! ## Rounding -/

/-- Rounding does not lead across `c`: it stays there if the exact value is there, and on the
    side of the exact value otherwise. -/
def NotAcross {β : Type} [LE β] (c exact rounded : β) : Prop :=
  (c ≤ exact → c ≤ rounded) ∧ (exact ≤ c → rounded ≤ c)

/-- The exponent at which a number has a mantissa of full length, unless it is too small for
    that. -/
def fullExponent (m : Nat) (e : Int) : Int := max (m.log2 + 1 + e - 53) (-1074)

/-- The exponent that the format asks for. -/
theorem targetExponent_eq (m : Nat) (e : Int) :
    Format.binary64.targetExponent (totalExponent m e) = fullExponent m e := rfl

/-- Shifting keeps the last digit that is lost, and whether another one was. -/
theorem shiftRight_succ (m k : Nat) :
    ExtendedMantissa.mk m false false >>> (k + 1) =
      ⟨m / 2 ^ (k + 1), m / 2 ^ k % 2 != 0, m % 2 ^ k != 0⟩ := by
  induction k with
  | zero =>
      rw [pow_zero, Nat.div_one, Nat.mod_one]
      rfl
  | succ k ih =>
      change (ExtendedMantissa.mk m false false >>> (k + 1)).shiftRightOne = _
      have hlost : (m / 2 ^ k % 2 != 0 || m % 2 ^ k != 0) = (m % 2 ^ (k + 1) != 0) := by
        have hpos : 0 < 2 ^ k := by positivity
        rw [pow_succ, Nat.mod_mul]
        rcases Nat.mod_two_eq_zero_or_one (m / 2 ^ k) with hbit | hbit
        · rw [hbit, mul_zero, add_zero]
          rfl
        · rw [hbit, mul_one, bne_iff_ne.2 (by omega : m % 2 ^ k + 2 ^ k ≠ 0)]
          rfl
      rw [ih]
      simp only [ExtendedMantissa.shiftRightOne, hlost, Nat.div_div_eq_div_mul, ← pow_succ]

/-- Shifting out digits and rounding gives the nearest multiple. -/
theorem roundedMantissa_shiftRight (m k : Nat) :
    (ExtendedMantissa.mk m false false >>> k).roundedMantissa = nearestEven m (2 ^ k) := by
  cases k with
  | zero =>
      have hone := nearestEven_mul m Nat.one_pos
      rw [mul_one] at hone
      rw [pow_zero, hone]
      rfl
  | succ k =>
      have hrest : m % 2 ^ (k + 1) = m % 2 ^ k + 2 ^ k * (m / 2 ^ k % 2) := by
        rw [pow_succ, Nat.mod_mul]
      have hlt : m % 2 ^ k < 2 ^ k := Nat.mod_lt _ (by positivity)
      have hpow : 2 ^ (k + 1) = 2 * 2 ^ k := by rw [pow_succ, mul_comm]
      rw [shiftRight_succ, nearestEven, hrest]
      rw [hpow] at *
      -- The last digit lost says on which side of the half the rest is, the others whether it
      -- is the half.
      rcases Nat.mod_two_eq_zero_or_one (m / 2 ^ k) with hbit | hbit
      · rw [hbit, mul_zero, add_zero, if_neg (by omega)]
        cases hs : m % 2 ^ k != 0 <;> rfl
      · rw [hbit, mul_one]
        cases hs : m % 2 ^ k != 0 with
        | false =>
            have hzero : m % 2 ^ k = 0 := by simpa only [bne_eq_false_iff_eq] using hs
            have htie : ∀ q : Nat, (ExtendedMantissa.mk q true false).roundedMantissa = q + q % 2 :=
              fun _ => rfl
            rw [hzero]
            change (ExtendedMantissa.mk _ true false).roundedMantissa = _
            rw [htie]
            rcases Nat.mod_two_eq_zero_or_one (m / (2 * 2 ^ k)) with hq | hq
            · rw [if_neg (by omega), hq]
            · rw [if_pos (.inr ⟨by omega, hq⟩), hq]
        | true =>
            have hpos : m % 2 ^ k ≠ 0 := by simpa only [bne_iff_ne] using hs
            rw [if_pos (.inl (by omega))]
            rfl

/-- Cutting a number off at its full exponent leaves a representable number. -/
theorem representable_floor {m : Nat} {e : Int} (hm : 0 < m) (ht : e ≤ fullExponent m e) :
    Representable (m / 2 ^ (fullExponent m e - e).toNat) (fullExponent m e) := by
  rw [fullExponent] at ht ⊢
  have hlow : 2 ^ m.log2 ≤ m := Nat.log2_self_le hm.ne'
  have hhigh : m < 2 ^ (m.log2 + 1) := Nat.lt_log2_self
  generalize m.log2 = l at *
  generalize hk : (max (↑l + 1 + e - 53) (-1074) - e).toNat = k
  refine ⟨?_, by omega, ?_⟩
  · rw [Nat.div_lt_iff_lt_mul (by positivity), ← pow_add]
    exact hhigh.trans_le (Nat.pow_le_pow_right (by decide) (by omega))
  -- Either the exponent is the least one, or the mantissa has its full length.
  · by_cases hmin : max ((l : Int) + 1 + e - 53) (-1074) = -1074
    · exact .inr hmin
    · refine .inl ((Nat.le_div_iff_mul_le (by positivity)).2 ?_)
      rw [← pow_add]
      exact (Nat.pow_le_pow_right (by decide) (by omega)).trans hlow

/-- A rounded mantissa that is one too long is halved, and any other one kept. -/
theorem exists_carry {r : Nat} {t : Int} (hpos : 0 < r) (hle : r ≤ 2 ^ 53) (ht : -1074 ≤ t)
    (hnormal : 2 ^ 52 ≤ r ∨ t = -1074) :
    ∃ m e, shiftToTargetExponent Format.binary64 r t .exact = (⟨m, false, false⟩, e) ∧
      0 < m ∧ Representable m e ∧ magnitude m e = magnitude r t := by
  simp only [shiftToTargetExponent, shiftToExponent, targetExponent_eq, fullExponent]
  rcases hle.lt_or_eq with hlt | rfl
  · have hlog : r.log2 < 53 := (Nat.log2_lt hpos.ne').2 hlt
    have hshift : (max ((r.log2 : Int) + 1 + t - 53) (-1074) - t).toNat = 0 := by omega
    rw [hshift]
    exact ⟨r, t, by rw [Int.natCast_zero, add_zero]; rfl, hpos, ⟨hlt, ht, hnormal⟩, rfl⟩
  -- Rounding up may give a power of two, which is one digit too long.
  · have hshift : (max (((2 ^ 53 : Nat).log2 : Int) + 1 + t - 53) (-1074) - t).toNat = 1 := by
      rw [Nat.log2_two_pow]
      omega
    rw [hshift]
    refine ⟨2 ^ 52, t + 1, rfl, by positivity, ⟨by decide, by omega, .inl le_rfl⟩, ?_⟩
    rw [magnitude_eq_mul _ ht (by omega), magnitude]
    congr 1
    rw [add_sub_cancel_left]
    rfl

/-- A rounded mantissa of zero stays zero. -/
theorem shiftToTargetExponent_zero {t : Int} (ht : -1074 ≤ t) :
    (shiftToTargetExponent Format.binary64 0 t .exact).1.mantissa = 0 := by
  simp only [shiftToTargetExponent, shiftToExponent, targetExponent_eq, fullExponent]
  have hshift : (max (((0 : Nat).log2 : Int) + 1 + t - 53) (-1074) - t).toNat = 0 := by
    rw [Nat.log2_zero]
    omega
  rw [hshift]
  rfl

/-- A number is rounded to the nearest multiple of the unit of its full exponent, which is
    zero if that is the nearest one. -/
theorem roundWithAccuracy_cases (s : Sign) {m : Nat} {e : Int} (hm : 0 < m)
    (ht : e ≤ fullExponent m e) :
    (nearestEven m (2 ^ (fullExponent m e - e).toNat) = 0 ∧
        roundWithAccuracy Format.binary64 s m e .exact = .zero s) ∨
      ∃ m' e' h, roundWithAccuracy Format.binary64 s m e .exact = .finite s m' e' h ∧
        Representable m' e' ∧ magnitude m' e' =
          magnitude (nearestEven m (2 ^ (fullExponent m e - e).toNat)) (fullExponent m e) := by
  have hfloor := representable_floor hm ht
  have hbounds := nearestEven_bounds m (2 ^ (fullExponent m e - e).toNat)
  have hexp : e + ((fullExponent m e - e).toNat : Int) = fullExponent m e := by omega
  have hfirst : shiftToTargetExponent Format.binary64 m e .exact =
      (ExtendedMantissa.mk m false false >>> (fullExponent m e - e).toNat, fullExponent m e) := by
    rw [shiftToTargetExponent, shiftToExponent, targetExponent_eq, hexp]
    rfl
  rcases Nat.eq_zero_or_pos (nearestEven m (2 ^ (fullExponent m e - e).toNat)) with hzero | hpos
  · refine .inl ⟨hzero, ?_⟩
    simp only [roundWithAccuracy, hfirst, roundedMantissa_shiftRight, hzero]
    exact dif_pos (shiftToTargetExponent_zero hfloor.exponent)
  · rcases exists_carry hpos (hbounds.2.trans hfloor.mantissa) hfloor.exponent
      (hfloor.normal.imp_left fun h => h.trans hbounds.1) with ⟨m', e', hcarry, hpos', hrep, hmag⟩
    refine .inr ⟨m', e', hpos', ?_, hrep, hmag⟩
    simp only [roundWithAccuracy, hfirst, roundedMantissa_shiftRight, hcarry]
    exact dif_neg hpos'.ne'

/-- Rounding a number of units with any mantissa gives a representable number, the nearest one. -/
theorem exists_round (s : Sign) {m : Nat} {e : Int} (hm : 0 < m) (he : -1074 ≤ e) :
    ∃ m' e' h, UnpackedFloat.round Format.binary64 s m e = .finite s m' e' h ∧
      Representable m' e' ∧ magnitude m' e' = rounded (magnitude m e) := by
  simp only [UnpackedFloat.round, decreaseExponent, targetExponent_eq, Nat.shiftLeft_eq]
  generalize ha : (e - fullExponent m e).toNat = a
  have hpos : 0 < m * 2 ^ a := by positivity
  have hfull : fullExponent (m * 2 ^ a) (e - a) = fullExponent m e := by
    rw [fullExponent, fullExponent, log2_mul_two_pow hm]
    congr 1
    push_cast
    ring
  have hlow : -1074 ≤ fullExponent m e := le_max_right _ _
  -- In units of the smallest positive number the unit is the spacing.
  have hspacing : spacing (magnitude m e) = 2 ^ (fullExponent m e + 1074).toNat := by
    rw [spacing, magnitude, log2_mul_two_pow hm, fullExponent]
    congr 1
    omega
  have hunit : 2 ^ (fullExponent m e + 1074).toNat =
      2 ^ (fullExponent m e - (e - a)).toNat * 2 ^ (e - a + 1074).toNat := by
    rw [← pow_add]
    congr 1
    omega
  have hnumber : magnitude m e = m * 2 ^ a * 2 ^ (e - a + 1074).toNat := by
    rw [magnitude, mul_assoc, ← pow_add]
    congr 2
    omega
  have hvalue : magnitude (nearestEven (m * 2 ^ a) (2 ^ (fullExponent m e - (e - a)).toNat))
      (fullExponent m e) = rounded (magnitude m e) := by
    rw [rounded, hspacing, magnitude]
    congr 1
    rw [hunit, hnumber, nearestEven_scale _ _ (by positivity)]
  have hcases := roundWithAccuracy_cases s hpos (e := e - a) (by rw [hfull]; omega)
  rw [hfull, hvalue] at hcases
  -- Nothing is rounded to zero here, for the exponent is not below the least one.
  rcases hcases with ⟨hzero, _⟩ | hfinite
  · rw [hzero, magnitude, zero_mul] at hvalue
    exact absurd hvalue.symm (rounded_pos (magnitude_pos e hm)).ne'
  · exact hfinite

/-! ## Packing -/

/-- A number as it is read back after it was packed. -/
def stored (u : UnpackedFloat) : UnpackedFloat := (Float.Model.pack u).unpack

/-- Storing is packing and unpacking in the format of doubles. -/
theorem stored_eq (u : UnpackedFloat) :
    stored u = UnpackedFloat.unpack Format.binary64 (UnpackedFloat.pack Format.binary64 u) := rfl

/-- The sign is read back from the first bit. -/
theorem ofBitVec_unpackSign (s : Sign) (e : BitVec 11) (m : BitVec 52) :
    Sign.ofBitVec (unpackSign (packComponents Format.binary64 s e m)) = s := by
  have hbit : (s.toBitVec ++ e ++ m).getLsbD 63 = s.toBitVec.getLsbD 0 := by
    rw [BitVec.getLsbD_append, BitVec.getLsbD_append]
    rfl
  have hbits : unpackSign (packComponents Format.binary64 s e m) = s.toBitVec := by
    apply BitVec.eq_of_getLsbD_eq
    intro i hi
    have hzero : i = 0 := by omega
    subst hzero
    rw [← hbit]
    simp only [unpackSign, packComponents, BitVec.getLsbD_cast, BitVec.getLsbD_extractLsb]
    rfl
  rw [hbits]
  cases s <;> rfl

/-- The leading bit that is not stored is put back. -/
theorem toNat_implicit (m : BitVec 52) : (1#1 ++ m).toNat = 2 ^ 52 + m.toNat := by
  have hor := Nat.two_pow_add_eq_or_of_lt m.isLt 1
  rw [mul_one] at hor
  rw [BitVec.toNat_append]
  change 2 ^ 52 ||| _ = _
  exact hor.symm

/-- A number with its leading bit set is read back as it was. -/
theorem stored_normal (s : Sign) {m : Nat} {e : Int} (h : 0 < m) (hfull : 2 ^ 52 ≤ m)
    (hshort : m < 2 ^ 53) (hlow : -1074 ≤ e) (hrange : e ≤ 971) :
    stored (.finite s m e h) = .finite s m e h := by
  have hbias : (e + (Format.binary64.exponentBias : Int) +
      (Format.binary64.mantissaBitsWithoutImplicit : Int)).toNat = (e + 1075).toNat := by
    change (e + (1023 : Nat) + (52 : Nat)).toNat = _
    omega
  have hlog : m.log2 + 1 = Format.binary64.mantissaBits := by
    change m.log2 + 1 = 53
    rw [(Nat.log2_eq_iff h.ne').2 ⟨hfull, hshort⟩]
  have hexp : (BitVec.ofNat 11 (e + 1075).toNat).toNat = (e + 1075).toNat := by
    change _ % 2048 = _
    omega
  -- The exponent field is none of the two that are reserved.
  have hones : BitVec.ofNat 11 (e + 1075).toNat ≠ -1#11 := by
    intro heq
    rw [heq] at hexp
    change 2047 = _ at hexp
    omega
  have hzero : BitVec.ofNat 11 (e + 1075).toNat ≠ 0#11 := by
    intro heq
    rw [heq] at hexp
    change 0 = _ at hexp
    omega
  -- The mantissa is read back with the leading bit.
  have hmantissa : (1#1 ++ BitVec.ofNat 52 m).toNat = m := by
    rw [toNat_implicit, BitVec.toNat_ofNat]
    omega
  simp only [stored_eq, UnpackedFloat.pack, hbias]
  rw [if_neg (by change ¬ 2048 ≤ _; omega), if_pos hlog]
  simp only [UnpackedFloat.unpack, unpackExponent_packComponents,
    unpackMantissa_packComponents, ofBitVec_unpackSign]
  rw [if_neg hones, if_neg hzero]
  simp only [hexp, hmantissa, finite.injEq, true_and]
  change _ - (((1023 : Nat) : Int) + ((52 : Nat) : Int)) = e
  omega

/-- A number below those is read back as it was, with an exponent field of zero. -/
theorem stored_subnormal (s : Sign) {m : Nat} (h : 0 < m) (hshort : m < 2 ^ 52) :
    stored (.finite s m (-1074) h) = .finite s m (-1074) h := by
  have hlog : ¬ m.log2 + 1 = Format.binary64.mantissaBits := by
    change ¬ m.log2 + 1 = 53
    have := (Nat.log2_lt h.ne').2 hshort
    omega
  have hmantissa : (BitVec.ofNat 52 m).toNat = m := by
    rw [BitVec.toNat_ofNat, Nat.mod_eq_of_lt hshort]
  -- It is not the zero that has the same exponent field.
  have hne : BitVec.ofNat 52 m ≠ 0#52 := by
    intro heq
    rw [heq] at hmantissa
    exact h.ne hmantissa
  simp only [stored_eq, UnpackedFloat.pack]
  rw [if_neg (by decide), if_neg hlog]
  simp only [UnpackedFloat.unpack, unpackExponent_packComponents,
    unpackMantissa_packComponents, ofBitVec_unpackSign]
  rw [if_neg (by decide), if_pos True.intro, dif_neg hne]
  simp only [hmantissa, finite.injEq, true_and]
  decide

/-- Packing keeps a representable number, unless it is too large: that becomes an infinity. -/
theorem stored_finite (s : Sign) {m : Nat} {e : Int} (h : 0 < m) (hr : Representable m e) :
    stored (.finite s m e h) = if e ≤ 971 then .finite s m e h else .infinity s := by
  by_cases hrange : e ≤ 971
  · rw [if_pos hrange]
    by_cases hfull : 2 ^ 52 ≤ m
    · exact stored_normal s h hfull hr.mantissa hr.exponent hrange
    · have hmin : e = -1074 := hr.normal.resolve_left hfull
      subst hmin
      exact stored_subnormal s h (not_le.1 hfull)
  · have hbias : 2 ^ Format.binary64.exponentBits ≤ (e + (Format.binary64.exponentBias : Int) +
        (Format.binary64.mantissaBitsWithoutImplicit : Int)).toNat + 1 := by
      change 2048 ≤ (e + (1023 : Nat) + (52 : Nat)).toNat + 1
      omega
    simp only [stored_eq, UnpackedFloat.pack]
    rw [if_pos hbias, if_neg hrange]
    cases s <;> rfl

/-- Numbers that can be packed without loss. -/
def InFormat : UnpackedFloat → Prop
  | .finite _ m e _ => Representable m e ∧ e ≤ 971
  | _ => True

/-- What fits into the format is read back as it was. -/
theorem stored_of_inFormat {u : UnpackedFloat} (h : InFormat u) : stored u = u := by
  cases u with
  | infinity s => cases s <;> rfl
  | notANumber => rfl
  | zero s => cases s <;> rfl
  | finite s m e hm => rw [stored_finite s hm h.1, if_pos h.2]

/-- Whatever is unpacked fits into the format. -/
theorem inFormat_unpack_bits (b : BitVec Format.binary64.numBits) :
    InFormat (UnpackedFloat.unpack Format.binary64 b) := by
  have hm : (unpackMantissa b).toNat < 2 ^ 52 := (unpackMantissa b).isLt
  have he : (unpackExponent b).toNat < 2048 := (unpackExponent b).isLt
  unfold UnpackedFloat.unpack
  dsimp only
  split
  · split <;> trivial
  -- The exponent field says what kind of number it is: subnormal at zero, normal otherwise.
  next hones =>
    split
    · split
      · trivial
      next hzero _ =>
        have hexp : (unpackExponent b).toNat = 0 := by
          rw [hzero]
          rfl
        refine ⟨⟨by omega, ?_, .inr ?_⟩, ?_⟩ <;> rw [hexp] <;> decide
    next hpos =>
      have hlow : (unpackExponent b).toNat ≠ 0 := fun h => hpos (BitVec.eq_of_toNat_eq h)
      have hhigh : (unpackExponent b).toNat ≠ 2047 := fun h => hones (BitVec.eq_of_toNat_eq h)
      have hbias : (Format.binary64.exponentBias : Int) = 1023 := rfl
      have hmantissa : (1#1 ++ unpackMantissa b).toNat = 2 ^ 52 + (unpackMantissa b).toNat :=
        toNat_implicit _
      exact ⟨⟨by omega, by omega, .inl (by omega)⟩, by omega⟩

/-- So does the unpacked form of a double. -/
theorem inFormat_unpack (x : Float.Model) : InFormat x.unpack := inFormat_unpack_bits _

/-- The three fields put together are the double. -/
theorem packComponents_unpack (b : BitVec Format.binary64.numBits) :
    packComponents Format.binary64 (Sign.ofBitVec (unpackSign b)) (unpackExponent b)
      (unpackMantissa b) = b := by
  have hsign : (Sign.ofBitVec (unpackSign b)).toBitVec = unpackSign b := by
    generalize unpackSign b = c
    revert c
    decide
  -- Bit by bit, in the three ranges that the fields take up.
  have hfields : ∀ i < 64, (unpackSign b ++ unpackExponent b ++ unpackMantissa b).getLsbD i =
      b.getLsbD i := by
    intro i hi
    simp only [BitVec.getLsbD_append, unpackSign, unpackExponent, unpackMantissa,
      BitVec.getLsbD_cast, BitVec.getLsbD_extractLsb]
    by_cases hlow : i < 52
    · simp only [hlow, if_true, zero_add]
      grind
    · by_cases hmid : i - 52 < 11
      · have hi' : 52 + (i - 52) = i := by omega
        simp only [hlow, hmid, if_true, if_false, hi']
        grind
      · have hi' : i = 63 := by omega
        subst hi'
        rfl
  simp only [packComponents, hsign]
  exact BitVec.eq_of_getLsbD_eq hfields

/-- There is one double for each infinity. -/
theorem eq_pack_infinity {x : Float.Model} {s : Sign} (h : x.unpack = .infinity s) :
    x = Float.Model.pack (.infinity s) := by
  have hbits : x.toBits.toBitVec = packedInfinity Format.binary64 s := by
    change UnpackedFloat.unpack Format.binary64 x.toBits.toBitVec = _ at h
    have hb := packComponents_unpack x.toBits.toBitVec
    -- An exponent field of ones and an empty mantissa: no other fields unpack to an infinity.
    unfold UnpackedFloat.unpack at h
    dsimp only at h
    split at h
    · split at h
      next hones hzero =>
        rw [← hb, hones, hzero, (UnpackedFloat.infinity.inj h)]
        rfl
      · exact nomatch h
    · split at h
      · split at h <;> exact nomatch h
      · exact nomatch h
  have htoBits : x.toBits = (Float.Model.pack (.infinity s)).toBits :=
    UInt64.toBitVec_inj.1 hbits
  cases x
  cases htoBits
  rfl

/-! ## The order -/

/-- The first number out of range, in units of the smallest positive one. -/
def top : Nat := magnitude (2 ^ 52) 972

/-- A number in units of the smallest positive one. The infinities are where the first
    numbers out of range would be. -/
def units : UnpackedFloat → Int
  | .finite s m e _ => s.apply (magnitude m e)
  | .infinity s => s.apply top
  | .zero _ => 0
  | .notANumber => 0

/-- The range is not empty. -/
theorem top_pos : 0 < top := magnitude_pos 972 (by decide)

/-- A representable number is in range if its exponent is. -/
theorem Representable.magnitude_lt_top_iff {m : Nat} {e : Int} (h : Representable m e) :
    magnitude m e < top ↔ e ≤ 971 := by
  constructor
  · intro hlt
    by_contra hc
    have hfull : 2 ^ 52 ≤ m := h.normal.resolve_right (by omega)
    have hle : top ≤ magnitude m e :=
      Nat.mul_le_mul hfull (Nat.pow_le_pow_right (by decide) (by omega))
    omega
  · intro he
    exact h.magnitude_lt_magnitude ⟨by decide, by decide, .inl le_rfl⟩ (by omega)

/-- Finite doubles are between the places of the infinities. -/
theorem InFormat.units_bounds {a : UnpackedFloat} (ha : InFormat a) (hfin : a.isFinite = true) :
    -(top : Int) < units a ∧ units a < top := by
  have htop := top_pos
  cases a with
  | infinity s => exact nomatch hfin
  | notANumber => exact nomatch hfin
  | zero s =>
    simp only [units]
    omega
  | finite s m e h =>
    have hlt := ha.1.magnitude_lt_top_iff.2 ha.2
    cases s <;> simp only [units, Sign.apply] <;> omega

/-- Comparing exponents first and then mantissas compares the numbers. -/
theorem Representable.compare_eq {m₁ m₂ : Nat} {e₁ e₂ : Int} (h₁ : Representable m₁ e₁)
    (h₂ : Representable m₂ e₂) :
    (compare e₁ e₂).then (compare m₁ m₂) = compare (magnitude m₁ e₁) (magnitude m₂ e₂) := by
  rcases lt_trichotomy e₁ e₂ with hlt | rfl | hgt
  · rw [compare_lt_iff_lt.2 hlt, compare_lt_iff_lt.2 (h₁.magnitude_lt_magnitude h₂ hlt)]
    rfl
  · have hmono : StrictMono fun m => magnitude m e₁ := fun m n h =>
      Nat.mul_lt_mul_of_pos_right h (by positivity)
    rw [compare_eq_iff_eq.2 rfl, Ordering.eq_then, ← cmp_eq_compare, ← cmp_eq_compare]
    exact (hmono.cmp_map_eq m₁ m₂).symm
  · rw [compare_gt_iff_gt.2 hgt, compare_gt_iff_gt.2 (h₂.magnitude_lt_magnitude h₁ hgt)]
    rfl

/-- Two numbers of the same sign compare like their magnitudes, or the other way round. -/
theorem compare_finite (s : Sign) {m n : Nat} {e f : Int} (h : 0 < m) (k : 0 < n)
    (hr : Representable m e) (hr' : Representable n f) :
    (finite s m e h).compare (finite s n f k) =
      some (compare (s.apply (magnitude m e)) (s.apply (magnitude n f))) := by
  cases s with
  | negative =>
    have hanti : StrictAnti fun n : Nat => -(n : Int) := fun _ _ hlt =>
      neg_lt_neg (Int.ofNat_lt.2 hlt)
    have hcmp := hanti.cmp_map_eq (magnitude m e) (magnitude n f)
    simp only [UnpackedFloat.compare, hr.compare_eq hr', Sign.apply]
    rw [← cmp_eq_compare, ← cmp_eq_compare, cmp_swap, ← hcmp]
  | positive =>
    have hmono : StrictMono fun n : Nat => (n : Int) := fun _ _ hlt => Int.ofNat_lt.2 hlt
    have hcmp := hmono.cmp_map_eq (magnitude m e) (magnitude n f)
    simp only [UnpackedFloat.compare, hr.compare_eq hr', Sign.apply]
    rw [← cmp_eq_compare, ← cmp_eq_compare, ← hcmp]

/-- Doubles compare like their units. -/
theorem compare_eq_compare_units {a b : UnpackedFloat} (ha : InFormat a) (hb : InFormat b)
    (hda : a.isNaN = false) (hdb : b.isNaN = false) :
    a.compare b = some (compare (units a) (units b)) := by
  have htop := top_pos
  have hlt : ∀ {x y : Int}, x < y → some .lt = some (compare x y) := fun h =>
    congrArg some (compare_lt_iff_lt.2 h).symm
  have hgt : ∀ {x y : Int}, y < x → some .gt = some (compare x y) := fun h =>
    congrArg some (compare_gt_iff_gt.2 h).symm
  have heq : ∀ {x : Int}, some .eq = some (compare x x) := fun {x} =>
    congrArg some (compare_eq_iff_eq.2 (rfl : x = x)).symm
  -- Against an infinity only the range of the other number matters, and otherwise the
  -- signs decide unless both numbers are of one sign.
  cases a with
  | notANumber => exact nomatch hda
  | infinity s =>
    cases b with
    | notANumber => exact nomatch hdb
    | infinity t =>
      cases s <;> cases t
      · exact heq
      · exact hlt (by simp only [units, Sign.apply]; omega)
      · exact hgt (by simp only [units, Sign.apply]; omega)
      · exact heq
    | zero t | finite t n f k =>
      have hbounds := hb.units_bounds rfl
      cases s
      · exact hlt hbounds.1
      · exact hgt hbounds.2
  | zero s =>
    cases b with
    | notANumber => exact nomatch hdb
    | infinity t =>
      have hbounds := ha.units_bounds rfl
      cases t
      · exact hgt hbounds.1
      · exact hlt hbounds.2
    | zero t => exact heq
    | finite t n f k =>
      have hpos := magnitude_pos f k
      cases t
      · exact hgt (by simp only [units, Sign.apply]; omega)
      · exact hlt (by simp only [units, Sign.apply]; omega)
  | finite s m e h =>
    have hpos := magnitude_pos e h
    cases b with
    | notANumber => exact nomatch hdb
    | infinity t =>
      have hbounds := ha.units_bounds rfl
      cases t
      · exact hgt hbounds.1
      · exact hlt hbounds.2
    | zero t =>
      cases s
      · exact hlt (by simp only [units, Sign.apply]; omega)
      · exact hgt (by simp only [units, Sign.apply]; omega)
    | finite t n f k =>
      have hpos' := magnitude_pos f k
      cases s <;> cases t
      · exact compare_finite .negative h k ha.1 hb.1
      · exact hlt (by simp only [units, Sign.apply]; omega)
      · exact hgt (by simp only [units, Sign.apply]; omega)
      · exact compare_finite .positive h k ha.1 hb.1

/-! ## Sums -/

/-- The magnitude as a product, with its sign. -/
theorem apply_magnitude (s : Sign) (m : Nat) (e : Int) :
    s.apply (magnitude m e) = s.apply m * 2 ^ (e + 1074).toNat := by
  cases s <;> simp only [Sign.apply, magnitude, Nat.cast_mul, Nat.cast_pow, neg_mul] <;> rfl

/-- Where a number is once it is stored: too large ones are at the infinities. -/
theorem units_stored (s : Sign) {m : Nat} {e : Int} (h : 0 < m) (hr : Representable m e) :
    units (stored (.finite s m e h)) = s.apply (min (magnitude m e) top : Nat) := by
  have hlt := hr.magnitude_lt_top_iff
  rw [stored_finite s h hr]
  by_cases he : e ≤ 971
  · rw [if_pos he, min_eq_left (hlt.2 he).le]
    rfl
  · rw [if_neg he, min_eq_right (not_lt.1 (mt hlt.1 he))]
    rfl

/-- The place of the double nearest to a number of units. -/
def place (n : Int) : Int := n.sign * (min (rounded n.natAbs) top : Nat)

/-- Zero is a double. -/
theorem place_zero : place 0 = 0 := by
  rw [place, Int.sign_zero, zero_mul]

/-- The place of what is not negative. -/
theorem place_natCast (k : Nat) : place k = (min (rounded k) top : Nat) := by
  rcases Nat.eq_zero_or_pos k with rfl | hk
  · rw [Nat.cast_zero, place_zero, show rounded 0 = 0 from rfl, Nat.zero_min, Nat.cast_zero]
  · rw [place, Int.sign_eq_one_of_pos (Int.natCast_pos.2 hk), one_mul, Int.natAbs_natCast]

/-- Rounding is symmetric. -/
theorem place_neg (n : Int) : place (-n) = -place n := by
  rw [place, place, Int.sign_neg, Int.natAbs_neg, neg_mul]

/-- The place of a number with a sign. -/
theorem place_apply (s : Sign) (k : Nat) :
    place (s.apply k) = s.apply (min (rounded k) top : Nat) := by
  cases s with
  | negative => exact (place_neg k).trans (congrArg Neg.neg (place_natCast k))
  | positive => exact place_natCast k

/-- Rounding keeps the order. -/
theorem place_mono {n n' : Int} (h : n ≤ n') : place n ≤ place n' := by
  have hmono : ∀ {k k' : Nat}, k ≤ k' → place k ≤ place k' := by
    intro k k' hle
    rw [place_natCast, place_natCast]
    exact Int.ofNat_le.2 (min_le_min_right _ (rounded_mono hle))
  have hnonneg : ∀ k : Nat, 0 ≤ place k := fun k => by
    rw [place_natCast]
    exact Int.natCast_nonneg _
  -- The order of the signs settles the cases in which they differ.
  obtain ⟨k, rfl | rfl⟩ := n.eq_nat_or_neg <;> obtain ⟨k', rfl | rfl⟩ := n'.eq_nat_or_neg
  · exact hmono (Int.ofNat_le.1 h)
  · obtain ⟨rfl, rfl⟩ : k = 0 ∧ k' = 0 := by omega
    exact le_rfl
  · rw [place_neg]
    exact (neg_nonpos.2 (hnonneg k)).trans (hnonneg k')
  · rw [place_neg, place_neg]
    exact neg_le_neg (hmono (Int.ofNat_le.1 (neg_le_neg_iff.1 h)))

/-- Rounding keeps doubles. -/
theorem InFormat.place_units {c : UnpackedFloat} (hc : InFormat c) : place (units c) = units c := by
  cases c with
  | infinity s =>
    have htop : Representable (2 ^ 52) 972 := ⟨by decide, by decide, .inl le_rfl⟩
    rw [units, place_apply, top, htop.rounded_magnitude, min_self]
  | notANumber => exact place_zero
  | zero s => exact place_zero
  | finite s m e h =>
    have hlt := hc.1.magnitude_lt_top_iff.2 hc.2
    rw [units, place_apply, hc.1.rounded_magnitude, min_eq_left hlt.le]

/-- So it leads across none. -/
theorem InFormat.notAcross_place {c : UnpackedFloat} (hc : InFormat c) (n : Int) :
    NotAcross (units c) n (place n) := by
  constructor
  · exact fun hle => hc.place_units ▸ place_mono hle
  · exact fun hle => hc.place_units ▸ place_mono hle

/-- Rounding and storing leads to the nearest place. -/
theorem units_round (s : Sign) {m : Nat} {e : Int} (hm : 0 < m) (he : -1074 ≤ e) :
    units (stored (UnpackedFloat.round Format.binary64 s m e)) =
      place (s.apply m * 2 ^ (e + 1074).toNat) := by
  rcases exists_round s hm he with ⟨m', e', h, hround, hrep, hmag⟩
  rw [hround, units_stored s h hrep, hmag, ← apply_magnitude, place_apply]

/-- Normalizing rounds to the nearest double. -/
theorem units_normalize (n : Int) {e : Int} (he : -1074 ≤ e) :
    units (stored (UnpackedFloat.normalize Format.binary64 n e .positive)) =
      place (n * 2 ^ (e + 1074).toNat) := by
  -- The integer is rounded with its own sign, and zero is not rounded.
  rcases lt_trichotomy n 0 with hneg | rfl | hpos
  · have hround := units_round .negative (Int.pos_iff_toNat_pos.1 (neg_pos.2 hneg)) he
    have happly : Sign.negative.apply (-n).toNat = n := by
      simp only [Sign.apply]
      omega
    simp only [UnpackedFloat.normalize, compare_lt_iff_lt.2 hneg]
    rwa [happly] at hround
  · have hzero : stored (.zero .positive) = .zero .positive := rfl
    simp only [UnpackedFloat.normalize, compare_eq_iff_eq.2 (rfl : (0 : Int) = 0)]
    rw [hzero, zero_mul, place_zero]
    rfl
  · have hround := units_round .positive (Int.pos_iff_toNat_pos.1 hpos) he
    have happly : Sign.positive.apply n.toNat = n := by
      simp only [Sign.apply]
      omega
    simp only [UnpackedFloat.normalize, compare_gt_iff_gt.2 hpos]
    rwa [happly] at hround

/-- Writing a number with a smaller exponent does not change it. -/
theorem apply_decreaseExponent (s : Sign) (m : Nat) {e f : Int} (hf : -1074 ≤ f) (hle : f ≤ e) :
    s.apply (decreaseExponent m e f).1 * 2 ^ (f + 1074).toNat = s.apply (magnitude m e) := by
  have hshift : magnitude (decreaseExponent m e f).1 f = magnitude m e := by
    rw [magnitude_eq_mul m hf hle]
    simp only [magnitude, decreaseExponent, Nat.shiftLeft_eq]
  rw [← apply_magnitude, hshift]

/-- A sum of finite doubles is the double nearest to it. -/
theorem units_add_of_finite {x y : UnpackedFloat} (hx : InFormat x) (hy : InFormat y)
    (hfx : x.isFinite = true) (hfy : y.isFinite = true) :
    units (stored (UnpackedFloat.add Format.binary64 x y)) = place (units x + units y) := by
  cases x with
  | notANumber | infinity s => exact nomatch hfx
  | zero s =>
    rw [units, zero_add, hy.place_units]
    cases y with
    | notANumber | infinity t => exact nomatch hfy
    | zero t => cases s <;> cases t <;> rfl
    -- A zero on the left leaves the second operand as it is.
    | finite t n f k => exact congrArg units (stored_of_inFormat hy)
  | finite s m e h =>
    cases y with
    | notANumber | infinity t => exact nomatch hfy
    | zero t =>
      have hzero : units (.zero t) = 0 := rfl
      rw [hzero, add_zero, hx.place_units]
      exact congrArg units (stored_of_inFormat hx)
    | finite t n f k =>
      have hmin : -1074 ≤ min e f := le_min hx.1.exponent hy.1.exponent
      -- Both are brought to the smaller exponent, where they are added as integers.
      have hnormalize := units_normalize (s.apply (decreaseExponent m e (min e f)).1 +
        t.apply (decreaseExponent n f (min e f)).1) hmin
      rw [add_mul, apply_decreaseExponent s m hmin (min_le_left _ _),
        apply_decreaseExponent t n hmin (min_le_right _ _)] at hnormalize
      exact hnormalize

/-- A sum does not lead across its first operand. -/
theorem units_add {x y : UnpackedFloat} (hx : InFormat x) (hy : InFormat y)
    (hdef : (stored (UnpackedFloat.add Format.binary64 x y)).isNaN = false) :
    x.isNaN = false ∧ NotAcross (units x) (units x + units y)
      (units (stored (UnpackedFloat.add Format.binary64 x y))) := by
  have hsame : ∀ u, InFormat u → UnpackedFloat.add Format.binary64 x y = u →
      units (stored (UnpackedFloat.add Format.binary64 x y)) = units u := by
    rintro u hu rfl
    rw [stored_of_inFormat hu]
  have hnan : UnpackedFloat.add Format.binary64 x y ≠ .notANumber := by
    intro heq
    rw [heq] at hdef
    exact nomatch hdef
  -- The sum of two finite numbers is rounded, and otherwise it is an infinite operand.
  have hfinite : x.isFinite = true → y.isFinite = true → x.isNaN = false →
      x.isNaN = false ∧ NotAcross (units x) (units x + units y)
        (units (stored (UnpackedFloat.add Format.binary64 x y))) := by
    intro hfx hfy hnum
    rw [units_add_of_finite hx hy hfx hfy]
    exact ⟨hnum, hx.notAcross_place _⟩
  -- An infinite operand is the sum, unless there is another one of the other sign.
  cases x with
  | notANumber => cases y <;> exact absurd rfl hnan
  | infinity s =>
    refine ⟨rfl, ?_⟩
    have hfirst : UnpackedFloat.add Format.binary64 (.infinity s) y = .infinity s := by
      cases y with
      | notANumber => exact absurd rfl hnan
      | infinity t => cases s <;> cases t <;> first | rfl | exact absurd rfl hnan
      | zero t => rfl
      | finite t n f k => rfl
    rw [hsame (.infinity s) trivial hfirst]
    exact ⟨fun _ => le_rfl, fun _ => le_rfl⟩
  | zero s =>
    cases y with
    | notANumber => exact absurd rfl hnan
    | infinity t =>
      have hzero : units (.zero s) = 0 := rfl
      rw [hsame (.infinity t) trivial rfl, hzero, zero_add]
      exact ⟨rfl, id, id⟩
    | zero t | finite t n f k => exact hfinite rfl rfl rfl
  | finite s m e h =>
    cases y with
    | notANumber => exact absurd rfl hnan
    | infinity t =>
      refine ⟨rfl, ?_⟩
      have htop := top_pos
      have hbounds := hx.units_bounds rfl
      rw [hsame (.infinity t) trivial rfl]
      cases t <;> simp only [NotAcross, units, Sign.apply] at hbounds ⊢ <;> omega
    | zero t | finite t n f k => exact hfinite rfl rfl rfl

@[simp] theorem add_notANumber (x : UnpackedFloat) :
    UnpackedFloat.add Format.binary64 x .notANumber = .notANumber := by
  cases x <;> rfl

/-- A sum that is a number is monotone in its first operand, as long as that is finite. -/
theorem units_add_mono {x x' y : UnpackedFloat} (hx : InFormat x) (hx' : InFormat x')
    (hy : InFormat y) (hfx : x.isFinite = true) (hfx' : x'.isFinite = true)
    (hle : units x ≤ units x')
    (hdef : (stored (UnpackedFloat.add Format.binary64 x y)).isNaN = false) :
    units (stored (UnpackedFloat.add Format.binary64 x y)) ≤
      units (stored (UnpackedFloat.add Format.binary64 x' y)) := by
  have hfinite : y.isFinite = true → units (stored (UnpackedFloat.add Format.binary64 x y)) ≤
      units (stored (UnpackedFloat.add Format.binary64 x' y)) := by
    intro hfy
    rw [units_add_of_finite hx hy hfx hfy, units_add_of_finite hx' hy hfx' hfy]
    exact place_mono (by omega)
  cases y with
  | notANumber =>
    rw [add_notANumber] at hdef
    exact nomatch hdef
  | infinity t =>
    -- An infinite second operand is the sum.
    have hsecond : ∀ u : UnpackedFloat, u.isFinite = true →
        UnpackedFloat.add Format.binary64 u (.infinity t) = .infinity t := by
      intro u hu
      cases u with
      | notANumber | infinity s => exact nomatch hu
      | zero s | finite s m e h => rfl
    rw [hsecond x hfx, hsecond x' hfx']
  | zero t | finite t n f k => exact hfinite rfl

/-- A sign turned is a number negated. -/
theorem apply_neg (s : Sign) (n : Int) : (-s).apply n = -s.apply n := by
  cases s with
  | negative => exact (neg_neg n).symm
  | positive => rfl

/-- A difference is the sum with the negative. -/
theorem sub_eq_add (x y : UnpackedFloat) :
    UnpackedFloat.sub Format.binary64 x y = UnpackedFloat.add Format.binary64 x y.neg := by
  rcases x with s | _ | s | ⟨s, m, e, h⟩ <;> rcases y with t | _ | t | ⟨t, n, f, k⟩
  -- Only for two finite numbers is there an integer to negate.
  case finite.finite =>
    simp only [UnpackedFloat.sub, UnpackedFloat.add, UnpackedFloat.neg, apply_neg,
      Int.sub_eq_add_neg]
  all_goals rfl

/-- Negation turns the places around. -/
theorem units_neg (y : UnpackedFloat) : units y.neg = -units y := by
  cases y with
  | infinity t => exact apply_neg t _
  | notANumber => rfl
  | zero t => rfl
  | finite t n f k => exact apply_neg t _

/-- The negative of a double is one. -/
theorem InFormat.neg {y : UnpackedFloat} (hy : InFormat y) : InFormat y.neg := by
  cases y <;> exact hy

/-! ## Doubles -/

/-- The place of a double among all doubles. -/
def position (a : Float) : Int := units a.toModel.unpack

/-- The order of doubles is that of their places. -/
theorem lt_iff_position (a b : Float) :
    a < b ↔ a.isNaN = false ∧ b.isNaN = false ∧ position a < position b := by
  have ha := inFormat_unpack a.toModel
  have hb := inFormat_unpack b.toModel
  rw [lt_iff_unpack]
  change _ ↔ a.toModel.unpack.isNaN = false ∧ b.toModel.unpack.isNaN = false ∧
    units a.toModel.unpack < units b.toModel.unpack
  generalize a.toModel.unpack = x at *
  generalize b.toModel.unpack = y at *
  -- A comparison that succeeds was one between numbers.
  constructor
  · intro hlt
    have hx : x.isNaN = false := by
      cases x <;> first | rfl | exact nomatch hlt
    have hy : y.isNaN = false := by
      cases y <;> first | rfl | (cases x <;> exact nomatch hlt)
    rw [UnpackedFloat.lt, compare_eq_compare_units ha hb hx hy, beq_iff_eq, Option.some.injEq,
      compare_lt_iff_lt] at hlt
    exact ⟨hx, hy, hlt⟩
  · rintro ⟨hx, hy, hlt⟩
    rw [UnpackedFloat.lt, compare_eq_compare_units ha hb hx hy, compare_lt_iff_lt.2 hlt]
    rfl

/-- What is not below zero has a place that is not. -/
theorem position_nonneg {t : Float} (h : 0.0 ≤ t) : 0 ≤ position t := by
  have hle : (UnpackedFloat.zero .positive).le t.toModel.unpack = true := by
    change Float.le 0.0 t = true at h
    exact of_decide_eq_true h
  unfold position
  generalize t.toModel.unpack = y at *
  cases y with
  | infinity s =>
    cases s
    · exact nomatch hle
    · exact Int.natCast_nonneg _
  | notANumber => exact nomatch hle
  | zero s => exact le_rfl
  | finite s m e h =>
    cases s
    · exact nomatch hle
    · exact Int.natCast_nonneg _

/-- A difference of doubles is a stored sum. -/
theorem unpack_sub (a b : Float) : (a - b).toModel.unpack =
    stored (UnpackedFloat.add Format.binary64 a.toModel.unpack b.toModel.unpack.neg) := by
  rw [← sub_eq_add]
  rfl

/-- What is below a difference with something not negative is below the value. -/
theorem lt_of_lt_sub {a b t : Float} (ht : 0.0 ≤ t) (h : a < b - t) : a < b := by
  obtain ⟨ha, hdef, hlt⟩ := (lt_iff_position _ _).1 h
  have hpos := position_nonneg ht
  -- The difference does not lead across its first operand.
  have hadd := units_add (inFormat_unpack b.toModel) (inFormat_unpack t.toModel).neg
    (by rw [← unpack_sub]; exact hdef)
  rw [← unpack_sub, units_neg] at hadd
  refine (lt_iff_position a b).2 ⟨ha, hadd.1, hlt.trans_le (hadd.2.2 ?_)⟩
  unfold position at hpos
  omega

/-- What is above such a sum is above the value. -/
theorem lt_of_add_lt {a b t : Float} (ht : 0.0 ≤ t) (h : b + t < a) : b < a := by
  obtain ⟨hdef, ha, hlt⟩ := (lt_iff_position _ _).1 h
  have hpos := position_nonneg ht
  have hadd := units_add (inFormat_unpack b.toModel) (inFormat_unpack t.toModel) hdef
  refine (lt_iff_position b a).2 ⟨hadd.1, ha, lt_of_le_of_lt (hadd.2.1 ?_) hlt⟩
  unfold position at hpos
  omega

/-- Adding the same to two finite doubles does not exchange them. -/
theorem not_add_lt_add {a b t : Float} (ha : a.isFinite = true) (hb : b.isFinite = true)
    (h : a < b) : ¬ b + t < a + t := by
  intro hlt
  have hle := ((lt_iff_position a b).1 h).2.2.le
  rcases (lt_iff_position _ _).1 hlt with ⟨_, hdef, hpos⟩
  exact not_le.2 hpos (units_add_mono (inFormat_unpack _) (inFormat_unpack _) (inFormat_unpack _)
    ha hb hle hdef)

/-- Nor does subtracting it. -/
theorem not_sub_lt_sub {a b t : Float} (ha : a.isFinite = true) (hb : b.isFinite = true)
    (h : a < b) : ¬ b - t < a - t := by
  intro hlt
  have hle := ((lt_iff_position a b).1 h).2.2.le
  rcases (lt_iff_position _ _).1 hlt with ⟨_, hdef, hpos⟩
  change (a - t).toModel.unpack.isNaN = false at hdef
  rw [position, position, unpack_sub, unpack_sub] at hpos
  rw [unpack_sub] at hdef
  exact not_le.2 hpos (units_add_mono (inFormat_unpack _) (inFormat_unpack _)
    (inFormat_unpack t.toModel).neg ha hb hle hdef)

end DoubleOrder

end OuterApprox
