import OuterApprox.Problem.Deviation
import OuterApprox.Proofs.ExactArithmetic
import Mathlib.Algebra.Order.Field.Basic

/-!
# Violated constraints

What the normalized values of the constraints say about the constraints, in exact
arithmetic. A normalized value is the residual over a positive number, so it has
the sign of the residual; the worst one is one of the list and none is above it.
Hence a point whose worst normalized value is negative is strictly inside every
constraint, and a constraint whose normalized value is positive is violated.

## Main definitions

* `Problem.ValuedAt`: All constraints have numbers for values at a point.

## Theorems

* `Constraint.normalized_of_finite`, `Constraint.exists_normalized`: Normalized values are
  positive multiples of residuals.
* `ConstraintValue.worst_mem`, `ConstraintValue.le_worst`: The worst of a list.
* `Problem.mem_valuesAt_iff`: The values at a point.
* `Problem.maxValue?_mem`, `Problem.ValuedAt.le_maxValue?`: The worst value is that of a
  constraint, and no constraint is above it.
* `Problem.lt_upper_of_maxDeviation_neg`: Points strictly inside.
* `Problem.ValuedAt.upper_lt`: Violated constraints.
-/

namespace OuterApprox

/-- All constraints have numbers for values at a point and for right-hand sides. -/
def Problem.ValuedAt (p : Problem Exact) (x : Point Exact) : Prop :=
  ∀ c ∈ p.constraints,
    Scalar.isFinite (c.function.value x) = true ∧ Scalar.isFinite c.upper = true

/-- The scale of a right-hand side that is a number is a positive number. -/
theorem Exact.exists_scale {u : Exact} (h : Scalar.isFinite u = true) :
    ∃ k : ℚ, Scalar.max (Scalar.abs u) 1.0 = .finite k ∧ 0 < k := by
  rcases (⟨_, rfl⟩ : ∃ a, Scalar.abs (Exact.finite u.toRat) = .finite a) with ⟨a, ha⟩
  rw [Exact.eq_finite h, ha, Exact.one_eq, Scalar.max, Exact.isUndefined_finite,
    if_neg Bool.false_ne_true]
  by_cases hone : (1 : ℚ) < a
  · exact ⟨a, if_pos ((Exact.finite_lt _ _).2 hone), zero_lt_one.trans hone⟩
  · exact ⟨1, if_neg (mt (Exact.finite_lt _ _).1 hone), zero_lt_one⟩

namespace Constraint

theorem exists_scale (c : Constraint Exact) (h : Scalar.isFinite c.upper = true) :
    ∃ k : ℚ, c.scale = .finite k ∧ 0 < k := Exact.exists_scale h

/-- The normalized value is the excess over the right-hand side, divided by the scale. -/
theorem normalized_of_finite {c : Constraint Exact} {k : ℚ} (hscale : c.scale = .finite k)
    (hk : 0 < k) (hupper : Scalar.isFinite c.upper = true) {x : Point Exact}
    (hvalue : Scalar.isFinite (c.function.value x) = true) (i : Nat) :
    (c.valueAt i x).normalized =
      .finite (((c.function.value x).toRat - c.upper.toRat) / k) := by
  have hresidual : c.residual x = .finite ((c.function.value x).toRat - c.upper.toRat) := by
    rw [residual, Exact.eq_finite hvalue, Exact.eq_finite hupper, Exact.finite_sub]
    simp only [Exact.toRat_finite]
  simp only [valueAt, hresidual, hscale, Exact.isUndefined_finite]
  rw [if_neg Bool.false_ne_true, Exact.finite_div _ hk.ne']

/-- The normalized value is the excess over the right-hand side, divided by a
    positive number. -/
theorem exists_normalized (c : Constraint Exact) (i : Nat) (x : Point Exact)
    (hvalue : Scalar.isFinite (c.function.value x) = true)
    (hupper : Scalar.isFinite c.upper = true) :
    ∃ k : ℚ, 0 < k ∧ (c.valueAt i x).normalized =
      .finite (((c.function.value x).toRat - c.upper.toRat) / k) := by
  rcases c.exists_scale hupper with ⟨k, hk, hpos⟩
  exact ⟨k, hpos, normalized_of_finite hk hpos hupper hvalue i⟩

end Constraint

namespace ConstraintValue

/-- The worst of a list is one of it. -/
theorem worst_mem {α : Type} [Scalar α] (first : ConstraintValue α)
    (rest : List (ConstraintValue α)) : worst first rest ∈ first :: rest := by
  unfold worst
  induction rest generalizing first with
  | nil => exact List.mem_cons_self
  | cons v rest ih =>
      rw [List.foldl_cons]
      -- A comparison keeps one of its two sides, so the winner stays in the list.
      have hlarger : larger first v = first ∨ larger first v = v := by
        unfold larger
        split
        · exact .inl rfl
        · exact .inr rfl
      rcases List.mem_cons.1 (ih (larger first v)) with heq | hmem
      · rw [heq]
        rcases hlarger with h | h <;> rw [h]
        · exact List.mem_cons_self
        · exact List.mem_cons_of_mem _ List.mem_cons_self
      · exact List.mem_cons_of_mem _ (List.mem_cons_of_mem _ hmem)

theorem worst?_mem {α : Type} [Scalar α] {vs : List (ConstraintValue α)}
    {top : ConstraintValue α} (htop : worst? vs = some top) : top ∈ vs := by
  cases vs with
  | nil => exact nomatch htop
  | cons first rest => exact Option.some.inj htop ▸ worst_mem first rest

theorem le_larger {a b : ConstraintValue Exact} (ha : Scalar.isFinite a.normalized = true)
    (hb : Scalar.isFinite b.normalized = true) :
    a.normalized.toRat ≤ (larger a b).normalized.toRat ∧
      b.normalized.toRat ≤ (larger a b).normalized.toRat := by
  have hiff : b.normalized ≤ a.normalized ↔ b.normalized.toRat ≤ a.normalized.toRat := by
    conv_lhs => rw [Exact.eq_finite ha, Exact.eq_finite hb]
    exact Exact.finite_le _ _
  unfold larger
  split
  next h => exact ⟨le_rfl, hiff.1 h⟩
  next h => exact ⟨(not_le.1 (mt hiff.2 h)).le, le_rfl⟩

/-- None of a list is above the worst, if all are numbers. -/
theorem le_worst {first : ConstraintValue Exact} {rest : List (ConstraintValue Exact)}
    (h : ∀ v ∈ first :: rest, Scalar.isFinite v.normalized = true) :
    ∀ v ∈ first :: rest, v.normalized.toRat ≤ (worst first rest).normalized.toRat := by
  unfold worst
  induction rest generalizing first with
  | nil =>
      intro v hv
      rw [List.mem_singleton.1 hv, List.foldl_nil]
  | cons u rest ih =>
      have hfirst := h first List.mem_cons_self
      have hu := h u (List.mem_cons_of_mem _ List.mem_cons_self)
      have hlarger : Scalar.isFinite (larger first u).normalized = true := by
        unfold larger
        split
        · exact hfirst
        · exact hu
      have hall : ∀ v ∈ larger first u :: rest, Scalar.isFinite v.normalized = true :=
        List.forall_mem_cons.2 ⟨hlarger, fun v hv =>
          h v (List.mem_cons_of_mem _ (List.mem_cons_of_mem _ hv))⟩
      have hrest := ih hall
      rcases le_larger hfirst hu with ⟨hle₁, hle₂⟩
      have htop := hrest (larger first u) List.mem_cons_self
      intro v hv
      rw [List.foldl_cons]
      rcases List.mem_cons.1 hv with rfl | hv
      · exact hle₁.trans htop
      · rcases List.mem_cons.1 hv with rfl | hv
        · exact hle₂.trans htop
        · exact hrest v (List.mem_cons_of_mem _ hv)

end ConstraintValue

namespace Problem

/-- The values at a point are those of the constraints, with their positions. -/
theorem mem_valuesAt_iff {α : Type} [Scalar α] {p : Problem α} {x : Point α}
    {v : ConstraintValue α} :
    v ∈ p.valuesAt x p.constraintIndices ↔
      ∃ i, ∃ c : Constraint α, p.constraints[i]? = some c ∧ v = c.valueAt i x := by
  simp only [valuesAt, constraintsAt, constraintIndices, List.mem_map, List.mem_filterMap,
    List.mem_range, Option.map_eq_some_iff]
  constructor
  · rintro ⟨q, ⟨i, _, c, hc, rfl⟩, rfl⟩
    exact ⟨i, c, hc, rfl⟩
  · rintro ⟨i, c, hc, rfl⟩
    exact ⟨(i, c), ⟨i, (List.getElem?_eq_some_iff.1 hc).1, c, hc, rfl⟩, rfl⟩

theorem maxValue?_mem {α : Type} [Scalar α] {p : Problem α} {x : Point α} {indices : List Nat}
    {top : ConstraintValue α} (htop : p.maxValue? x indices = some top) :
    top ∈ p.valuesAt x indices := ConstraintValue.worst?_mem htop

variable {p : Problem Exact} {x : Point Exact}

theorem ValuedAt.isFinite_normalized (hx : p.ValuedAt x) :
    ∀ v ∈ p.valuesAt x p.constraintIndices, Scalar.isFinite v.normalized = true := by
  intro v hv
  rcases mem_valuesAt_iff.1 hv with ⟨i, c, hc, rfl⟩
  have hmem := hx c (List.mem_of_getElem? hc)
  rcases c.exists_normalized i x hmem.1 hmem.2 with ⟨k, _, hk⟩
  rw [hk, Exact.isFinite_finite]

/-- No constraint is above the worst value. -/
theorem ValuedAt.le_maxValue? (hx : p.ValuedAt x) {top : ConstraintValue Exact}
    (htop : p.maxValue? x p.constraintIndices = some top) :
    ∀ v ∈ p.valuesAt x p.constraintIndices, v.normalized.toRat ≤ top.normalized.toRat := by
  have hfinite := hx.isFinite_normalized
  rw [maxValue?] at htop
  cases hlist : p.valuesAt x p.constraintIndices with
  | nil => exact fun v hv => absurd hv List.not_mem_nil
  | cons first rest =>
      rw [hlist] at htop hfinite
      rw [← Option.some.inj htop]
      exact ConstraintValue.le_worst hfinite

/-- A point whose worst deviation is negative is strictly inside. -/
theorem lt_upper_of_maxDeviation_neg (hx : p.ValuedAt x) {d : Deviation Exact}
    (hd : p.maxDeviation x = some d) (hneg : d.value < 0.0) :
    ∀ c ∈ p.constraints, c.function.value x < c.upper := by
  intro c hc
  rw [maxDeviation, Option.map_eq_some_iff] at hd
  rcases hd with ⟨top, htop, rfl⟩
  rcases List.mem_iff_getElem?.1 hc with ⟨i, hi⟩
  -- No constraint is above the worst one, and that one is negative.
  have hle := hx.le_maxValue? htop (c.valueAt i x) (mem_valuesAt_iff.2 ⟨i, c, hi, rfl⟩)
  rcases hx c hc with ⟨hf, hu⟩
  rcases c.exists_normalized i x hf hu with ⟨k, hk, hnormalized⟩
  have htopneg : top.normalized.toRat < 0 := by
    have hneg : top.normalized < 0.0 := hneg
    rwa [Exact.eq_finite (hx.isFinite_normalized top (maxValue?_mem htop)), Exact.zero_eq,
      Exact.finite_lt] at hneg
  rw [hnormalized, Exact.toRat_finite] at hle
  rw [Exact.eq_finite hf, Exact.eq_finite hu, Exact.finite_lt]
  have hquotient := hle.trans_lt htopneg
  rw [div_lt_iff₀ hk, zero_mul] at hquotient
  exact sub_neg.1 hquotient

/-- A constraint whose normalized value is positive is violated. -/
theorem ValuedAt.upper_lt (hx : p.ValuedAt x) {v : ConstraintValue Exact}
    (hv : v ∈ p.valuesAt x p.constraintIndices) (hpos : 0.0 < v.normalized) :
    ∃ c, p.constraints[v.constraint]? = some c ∧
      c.upper.toRat < (c.function.value x).toRat := by
  rcases mem_valuesAt_iff.1 hv with ⟨i, c, hc, rfl⟩
  rcases hx c (List.mem_of_getElem? hc) with ⟨hf, hu⟩
  rcases c.exists_normalized i x hf hu with ⟨k, hk, hnormalized⟩
  refine ⟨c, hc, ?_⟩
  -- The residual has the sign of the normalized value.
  rw [hnormalized, Exact.zero_eq, Exact.finite_lt, lt_div_iff₀ hk, zero_mul] at hpos
  exact sub_pos.1 hpos

end Problem

end OuterApprox
