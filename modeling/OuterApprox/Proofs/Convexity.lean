import OuterApprox.Proofs.InteriorPoint

/-!
# Midpoints of convex constraints

Halfway between two points a convex function is at most halfway between its values. The worst
normalized value of convex constraints inherits this, although it is not a supremum of numbers:
a value may be missing, an infinite right-hand side makes the quotient undefined, and the worst
of a list with undefined entries depends on their order. So the relation that is carried through
the list says what the three values at two points and their midpoint have to do with each other
when some of them are no numbers, and it is enough that they are numbers at both ends.

## Main definitions

* `SmoothFunction.Convex`: A convex function with a convex domain.
* `Exact.Averaged`: A value halfway is at most the average.

## Theorems

* `Point.midpoint_eq_between`, `Point.coord_midpoint`: The midpoint in exact arithmetic.
* `Constraint.averaged_valueAt`: A convex constraint at a midpoint.
* `Exact.Averaged.larger`: The larger of two values.
* `Problem.averaged_maxDeviation`: The worst deviation at a midpoint.
-/

namespace OuterApprox

/-- In exact arithmetic a value is a number, or there is none. Where a convex function has
    values at both ends of a segment, it has one at every point in between, which is not above
    the chord. -/
structure SmoothFunction.Convex (f : SmoothFunction Exact) (n : Nat) : Prop where
  /-- At a finite point there is a number, or no value at all. -/
  value : ∀ x : Point Exact, x.length = n → x.Finite →
    f.value x = .undefined ∨ Scalar.isFinite (f.value x) = true
  /-- Between two points with values the graph is not above the chord. -/
  chord : ∀ x y : Point Exact, x.length = n → y.length = n → x.Finite → y.Finite →
    Scalar.isFinite (f.value x) = true → Scalar.isFinite (f.value y) = true →
    ∀ t : ℚ, 0 ≤ t → t ≤ 1 →
      Scalar.isFinite (f.value (Point.between x y (.finite t))) = true ∧
        (f.value (Point.between x y (.finite t))).toRat ≤
          (1 - t) * (f.value x).toRat + t * (f.value y).toRat

namespace Point

variable {x y : Point Exact}

/-- The midpoint is the point in the middle of the segment. -/
theorem midpoint_eq_between (hx : x.Finite) (hy : y.Finite) :
    midpoint x y = between x y (.finite (1 / 2)) := by
  unfold midpoint between
  -- Coordinate by coordinate.
  induction x generalizing y with
  | nil => rfl
  | cons u x ih =>
    cases y with
    | nil => rfl
    | cons v y =>
      have hu := Exact.eq_finite (hx u List.mem_cons_self)
      have hv := Exact.eq_finite (hy v List.mem_cons_self)
      have hrest := ih (fun w hw => hx w (List.mem_cons_of_mem _ hw))
        (fun w hw => hy w (List.mem_cons_of_mem _ hw))
      rw [List.zipWith_cons_cons, List.zipWith_cons_cons, hrest, hu, hv, Exact.half_eq]
      simp only [Exact.finite_add, Exact.finite_sub, Exact.finite_mul, List.cons.injEq,
        Exact.finite.injEq, and_true]
      ring

/-- Its coordinates are the averages. -/
theorem coord_midpoint (hx : x.Finite) (hy : y.Finite) {i : Nat} (hi : i < x.length)
    (hlength : x.length = y.length) :
    (midpoint x y).coord i = .finite (((x.coord i).toRat + (y.coord i).toRat) / 2) := by
  have hj : i < y.length := hlength ▸ hi
  have hu := Exact.eq_finite (hx x[i] (List.getElem_mem hi))
  have hv := Exact.eq_finite (hy y[i] (List.getElem_mem hj))
  have hget : (midpoint x y)[i]? = some (0.5 * (x[i] + y[i])) := by
    rw [midpoint, List.getElem?_zipWith, List.getElem?_eq_getElem hi, List.getElem?_eq_getElem hj]
  rw [coord, coord, coord, hget, List.getElem?_eq_getElem hi, List.getElem?_eq_getElem hj]
  simp only [Option.getD_some]
  rw [hu, hv, Exact.half_eq]
  simp only [Exact.finite_add, Exact.finite_mul, Exact.toRat_finite, Exact.finite.injEq]
  ring

end Point

namespace Exact

/-- A value at a midpoint is at most the average of the values at the ends, or there is no such
    comparison: one end is infinitely bad, or all three values are undefined. -/
inductive Averaged : Exact → Exact → Exact → Prop
  /-- The value at the first end is infinitely bad. -/
  | left (b m : Exact) : Averaged (.infinite false) b m
  /-- The value at the second end is infinitely bad. -/
  | right (a m : Exact) : Averaged a (.infinite false) m
  /-- There are no values to compare. -/
  | undefined : Averaged .undefined .undefined .undefined
  /-- Three numbers, and the one in the middle is at most the average. -/
  | finite {a b m : ℚ} (h : 2 * m ≤ a + b) : Averaged (.finite a) (.finite b) (.finite m)

/-- Negative ends leave only the case of numbers. -/
theorem Averaged.exists_of_neg {a b m : Exact} (h : Averaged a b m) (ha : a < 0.0)
    (hb : b < 0.0) :
    ∃ q r s : ℚ, a = .finite q ∧ b = .finite r ∧ m = .finite s ∧ 2 * s ≤ q + r := by
  cases h with
  | left => exact absurd ha Bool.false_ne_true
  | right => exact absurd hb Bool.false_ne_true
  | undefined => exact absurd ha Bool.false_ne_true
  | finite h => exact ⟨_, _, _, rfl, rfl, rfl, h⟩

theorem ite_infinite_le (a : Exact) :
    (if infinite false ≤ a then a else infinite false) = infinite false := by
  cases a with
  | finite q => rfl
  | infinite s => cases s <;> rfl
  | undefined => rfl

theorem ite_finite_le (a a' : ℚ) :
    (if finite a' ≤ finite a then finite a else finite a') = finite (max a a') := by
  simp only [finite_le]
  split
  next h => rw [max_eq_left h]
  next h => rw [max_eq_right (not_le.1 h).le]

/-- The relation survives taking the larger of two values. What is undefined takes the place of
    what came before, and gives way to what comes later. -/
theorem Averaged.larger {a b m a' b' m' : Exact} (h : Averaged a b m) (h' : Averaged a' b' m') :
    Averaged (if a' ≤ a then a else a') (if b' ≤ b then b else b')
      (if m' ≤ m then m else m') := by
  -- An infinite end is kept by the maximum, and what is undefined gives way.
  cases h' with
  | left =>
    rw [ite_infinite_le]
    exact .left _ _
  | right =>
    rw [ite_infinite_le]
    exact .right _ _
  | undefined =>
    simp only [not_undefined_le, if_false]
    exact .undefined
  | finite h' =>
    cases h with
    | left => exact .left _ _
    | right => exact .right _ _
    | undefined =>
      simp only [not_le_undefined, if_false]
      exact .finite h'
    | finite h =>
      rw [ite_finite_le, ite_finite_le, ite_finite_le]
      refine .finite ?_
      rw [mul_max_of_nonneg _ _ zero_le_two]
      exact max_le (h.trans (add_le_add (le_max_left _ _) (le_max_left _ _)))
        (h'.trans (add_le_add (le_max_right _ _) (le_max_right _ _)))

end Exact

namespace Constraint

theorem normalized_of_undefined {c : Constraint Exact} {x : Point Exact}
    (h : c.residual x = .undefined) (i : Nat) :
    (c.valueAt i x).normalized = .infinite false := by
  simp only [valueAt, h]
  rfl

/-- Relative to an infinite right-hand side no number has a size. -/
theorem normalized_of_infinite {c : Constraint Exact} {s : Bool} (hupper : c.upper = .infinite s)
    {x : Point Exact} (hx : Scalar.isFinite (c.function.value x) = true) (i : Nat) :
    (c.valueAt i x).normalized = .undefined := by
  have hresidual : c.residual x = .infinite (!s) := by
    rw [residual, hupper, Exact.eq_finite hx]
    rfl
  have hscale : c.scale = .infinite false := by
    rw [scale, hupper, Exact.one_eq]
    rfl
  simp only [valueAt, hresidual, hscale]
  rfl

/-- A convex constraint at a midpoint: its normalized value is at most the average, if it has
    values at both ends and a number on the right-hand side. -/
theorem averaged_valueAt {c : Constraint Exact} {n : Nat} (hc : c.function.Convex n) (i : Nat)
    {x y : Point Exact} (hx : x.length = n) (hy : y.length = n) (hxf : x.Finite) (hyf : y.Finite) :
    Exact.Averaged (c.valueAt i x).normalized (c.valueAt i y).normalized
      (c.valueAt i (Point.midpoint x y)).normalized := by
  rcases hc.value x hx hxf with hvx | hvx
  · have hresidual : c.residual x = .undefined := by rw [residual, hvx]; rfl
    rw [normalized_of_undefined hresidual]
    exact .left _ _
  rcases hc.value y hy hyf with hvy | hvy
  · have hresidual : c.residual y = .undefined := by rw [residual, hvy]; rfl
    rw [normalized_of_undefined hresidual]
    exact .right _ _
  obtain ⟨hvm, hchord⟩ := hc.chord x y hx hy hxf hyf hvx hvy (1 / 2) (by norm_num) (by norm_num)
  rw [← Point.midpoint_eq_between hxf hyf] at hvm hchord
  cases hupper : c.upper with
  | undefined =>
    have hresidual : c.residual x = .undefined := by rw [residual, hupper, Exact.eq_finite hvx]; rfl
    rw [normalized_of_undefined hresidual]
    exact .left _ _
  | infinite s =>
    rw [normalized_of_infinite hupper hvx, normalized_of_infinite hupper hvy,
      normalized_of_infinite hupper hvm]
    exact .undefined
  | finite u =>
    have hfinite : Scalar.isFinite c.upper = true := by rw [hupper]; rfl
    obtain ⟨k, hk, hpos⟩ := c.exists_scale hfinite
    rw [normalized_of_finite hk hpos hfinite hvx, normalized_of_finite hk hpos hfinite hvy,
      normalized_of_finite hk hpos hfinite hvm]
    refine .finite ?_
    rw [← add_div, ← mul_div_assoc]
    refine div_le_div_of_nonneg_right ?_ hpos.le
    linarith

end Constraint

theorem ConstraintValue.normalized_larger (a b : ConstraintValue Exact) :
    (larger a b).normalized =
      if b.normalized ≤ a.normalized then a.normalized else b.normalized := by
  unfold larger
  split <;> rfl

/-- The worst of a list of constraints at a midpoint. The induction is on the constraints that
    are still to come, from values already compared. -/
theorem ConstraintValue.averaged_worst {x y z : Point Exact} (rest : List (Nat × Constraint Exact))
    (hrest : ∀ q ∈ rest, Exact.Averaged (q.2.valueAt q.1 x).normalized
      (q.2.valueAt q.1 y).normalized (q.2.valueAt q.1 z).normalized)
    {a b m : ConstraintValue Exact}
    (h : Exact.Averaged a.normalized b.normalized m.normalized) :
    Exact.Averaged (worst a (rest.map fun q => q.2.valueAt q.1 x)).normalized
      (worst b (rest.map fun q => q.2.valueAt q.1 y)).normalized
      (worst m (rest.map fun q => q.2.valueAt q.1 z)).normalized := by
  unfold worst
  induction rest generalizing a b m with
  | nil => exact h
  | cons q rest ih =>
    refine ih (fun q' hq' => hrest q' (List.mem_cons_of_mem _ hq')) ?_
    rw [normalized_larger, normalized_larger, normalized_larger]
    exact h.larger (hrest q List.mem_cons_self)

/-- The worst deviation at the midpoint of two points, if all constraints are convex. -/
theorem Problem.averaged_maxDeviation {p : Problem Exact}
    (hp : ∀ c ∈ p.constraints, c.function.Convex p.dimension) {x y : Point Exact}
    (hx : x.length = p.dimension) (hy : y.length = p.dimension) (hxf : x.Finite) (hyf : y.Finite)
    {a b : Deviation Exact} (ha : p.maxDeviation x = some a) (hb : p.maxDeviation y = some b) :
    ∃ m, p.maxDeviation (Point.midpoint x y) = some m ∧
      Exact.Averaged a.value b.value m.value := by
  have hall : ∀ q ∈ p.constraintsAt p.constraintIndices,
      Exact.Averaged (q.2.valueAt q.1 x).normalized (q.2.valueAt q.1 y).normalized
        (q.2.valueAt q.1 (Point.midpoint x y)).normalized := by
    intro q hq
    simp only [constraintsAt, List.mem_filterMap, Option.map_eq_some_iff] at hq
    obtain ⟨i, -, c, hc, rfl⟩ := hq
    exact Constraint.averaged_valueAt (hp c (List.mem_of_getElem? hc)) i hx hy hxf hyf
  simp only [maxDeviation, maxValue?, valuesAt] at ha hb ⊢
  cases hlist : p.constraintsAt p.constraintIndices with
  | nil =>
    simp only [hlist, List.map_nil, ConstraintValue.worst?, Option.map_none, reduceCtorEq] at ha
  | cons q rest =>
    rw [hlist] at ha hb hall
    cases ha
    cases hb
    exact ⟨_, rfl, ConstraintValue.averaged_worst rest
      (fun q' hq' => hall q' (List.mem_cons_of_mem _ hq')) (hall q List.mem_cons_self)⟩

end OuterApprox
