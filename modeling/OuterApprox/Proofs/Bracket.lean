import OuterApprox.Proofs.ExactArithmetic
import OuterApprox.Proofs.Segment

/-!
# The bracket of a line search

What a line search keeps true of its bracket, in exact arithmetic. The parameters
of both ends are numbers between zero and one, the inner one is below the outer
one, and the outer end is infeasible. Nothing is assumed about the function that
is searched: it may be undefined or infinite, and need not be convex. A new
parameter is only ever taken strictly inside the bracket, so it is a number too,
and the test that decides which end it becomes also decides that the outer end
stays infeasible.

A point of the segment has the coordinates one expects, and a sum of coefficients
times coordinates is affine along the segment.

## Main definitions

* `LineSearch.Bracket.Valid`: What is kept.

## Theorems

* `LineSearch.Bracket.Valid.move`: A step keeps it.
* `LineSearch.narrow_valid`: So do any number of steps.
* `LineSearch.Crossed.exists_ends`: Where the ends of a result are.
* `Point.Finite.between`: Points of a segment are made of numbers.
* `LineSearch.finite_interior`: So is the inner end of a result.
* `weigh_between`: Sums are affine along a segment.
-/

namespace OuterApprox

namespace LineSearch

/-- The ends of a bracket are numbers between zero and one in order, and the outer
    one is infeasible. -/
structure Bracket.Valid (h : Exact → Exact) (b : Bracket Exact) : Prop where
  /-- The ends are numbers in order. -/
  ends : ∃ lower upper : ℚ, b.lower = .finite lower ∧ b.upper = .finite upper ∧
    0 ≤ lower ∧ lower < upper ∧ upper ≤ 1
  /-- The outer end is infeasible. -/
  outside : ¬ h b.upper ≤ 0.0

theorem Bracket.whole_valid {h : Exact → Exact} (houtside : ¬ h 1.0 ≤ 0.0)
    (lowerValue upperValue : Exact) : (Bracket.whole lowerValue upperValue).Valid h where
  ends := ⟨0, 1, Exact.zero_eq, Exact.one_eq, le_rfl, zero_lt_one, le_rfl⟩
  outside := houtside

/-- A parameter that is probed lies strictly inside the bracket. -/
theorem Bracket.contains_of_probe? {b : Bracket Exact} {bisectOnly : Bool} {t : Exact}
    (ht : b.probe? bisectOnly = some t) : b.lower < t ∧ t < b.upper := by
  simp only [probe?, Option.ite_none_right_eq_some] at ht
  rcases ht with ⟨hinside, heq⟩
  rw [Option.some.inj heq] at hinside
  simpa only [contains, Bool.and_eq_true, decide_eq_true_eq] using hinside

/-- Moving an end to a parameter strictly inside keeps a bracket valid. -/
theorem Bracket.Valid.move {h : Exact → Exact} {b : Bracket Exact} (hb : b.Valid h) {t : Exact}
    (hlower : b.lower < t) (hupper : t < b.upper) : (b.move t (h t)).Valid h := by
  rcases hb.ends with ⟨lower, upper, hl, hu, hzero, _, hone⟩
  rw [hl] at hlower
  rw [hu] at hupper
  -- The new parameter is caught between two numbers, so it is one.
  have ht := Exact.eq_finite_of_le (Exact.le_of_lt hlower) (Exact.le_of_lt hupper)
  rw [ht, Exact.finite_lt] at hlower hupper
  unfold Bracket.move
  split
  · exact ⟨⟨t.toRat, upper, ht, hu, hzero.trans hlower.le, hupper, hone⟩, hb.outside⟩
  -- The test that makes it the outer end says that it is infeasible.
  next houtside =>
    exact ⟨⟨lower, t.toRat, hl, ht, hzero, hlower, hupper.le.trans hone⟩, houtside⟩

/-- A search keeps its bracket valid, whatever its budget and stopping rule. -/
theorem narrow_valid {h : Exact → Exact} (stop : Stopping Exact) (bisectOnly : Bool)
    (budget : Nat) {b : Bracket Exact} (hb : b.Valid h) :
    (narrow h stop bisectOnly budget b).Valid h := by
  induction budget generalizing b with
  | zero => exact hb
  | succ budget ih =>
      unfold narrow
      by_cases hdone : b.isDone stop
      · rw [if_pos hdone]
        exact hb
      · rw [if_neg hdone]
        cases hprobe : b.probe? bisectOnly with
        | none => exact hb
        | some t =>
            rcases Bracket.contains_of_probe? hprobe with ⟨hlower, hupper⟩
            exact ih (hb.move hlower hupper)

/-- The ends of a result are points of the segment in order, and the outer one is
    infeasible and not the inner point of the segment. -/
theorem Crossed.exists_ends {h : Exact → Exact} {stop : Stopping Exact}
    {interior exterior : Point Exact} {r : Result Exact}
    (hr : Crossed h stop interior exterior r) :
    ∃ lower upper : ℚ, 0 ≤ lower ∧ lower < upper ∧ upper ≤ 1 ∧
      r.interior = Point.between interior exterior (.finite lower) ∧
      r.exterior = Point.between interior exterior (.finite upper) ∧
      ¬ h (.finite upper) ≤ 0.0 := by
  have hvalid : (crossing h stop (h 1.0)).Valid h :=
    -- Every search starts from the whole segment, whose outer end is the outer point.
    narrow_valid stop _ _ (Bracket.whole_valid hr.outside _ _)
  rcases hvalid.ends with ⟨lower, upper, hl, hu, hzero, hlt, hone⟩
  refine ⟨lower, upper, hzero, hlt, hone, ?_, ?_, hu ▸ hvalid.outside⟩
  · rw [hr.innerEnd, hr.lower, hl]
  · rw [hr.outerEnd, hr.upper, hu]

end LineSearch

theorem Point.coord_between {α : Type} [Scalar α] {a b : Point α}
    (hlength : a.length = b.length) (t : α) {i : Nat} (hi : i < a.length) :
    (Point.between a b t).coord i = a.coord i + t * (b.coord i - a.coord i) := by
  have hb : i < b.length := hlength ▸ hi
  simp only [Point.coord, Point.between, List.getElem?_zipWith, List.getElem?_eq_getElem hi,
    List.getElem?_eq_getElem hb, Option.getD_some]

theorem Point.Finite.between {a b : Point Exact} (ha : a.Finite) (hb : b.Finite) (t : ℚ) :
    (Point.between a b (.finite t)).Finite := by
  intro v hv
  rcases List.mem_iff_getElem.1 hv with ⟨i, hi, rfl⟩
  rw [Point.between, List.length_zipWith, lt_min_iff] at hi
  simp only [Point.between, List.getElem_zipWith]
  rw [Exact.eq_finite (ha _ (List.getElem_mem hi.1)),
    Exact.eq_finite (hb _ (List.getElem_mem hi.2))]
  simp only [Exact.finite_sub, Exact.finite_mul, Exact.finite_add, Exact.isFinite_finite]

/-- A search between points made of numbers ends in one. -/
theorem LineSearch.finite_interior {p : Problem Exact} {interior exterior : Point Exact}
    {stop : Stopping Exact} {indices : List Nat} {wantWorst : Bool} {r : Result Exact}
    (h : find p interior exterior stop indices wantWorst = .ok r) (hi : interior.Finite)
    (he : exterior.Finite) : r.interior.Finite := by
  rcases find_cases h with ⟨_, _, first, rest, _, hends | hcrossed⟩
  · rw [hends.1]
    exact hi
  · rcases hcrossed.exists_ends with ⟨lower, _, _, _, _, hinner, _⟩
    rw [hinner]
    exact hi.between he lower

/-- A sum of coefficients times coordinates is affine along a segment. -/
theorem weigh_between {n : Nat} {a b : Point Exact} (ha : a.Finite) (hb : b.Finite)
    (han : a.length = n) (hbn : b.length = n) (t : ℚ) {terms : List (Nat × Exact)}
    (hterms : ∀ u ∈ terms, u.1 < n) :
    weigh terms (Point.between a b (.finite t)) =
      (1 - t) * weigh terms a + t * weigh terms b := by
  -- Each term is affine, because its coordinate is.
  induction terms with
  | nil => rw [weigh_nil, weigh_nil, weigh_nil, mul_zero, mul_zero, add_zero]
  | cons u rest ih =>
      have hu := hterms u List.mem_cons_self
      have hrest := ih fun v hv => hterms v (List.mem_cons_of_mem _ hv)
      have hcoord : ((Point.between a b (.finite t)).coord u.1).toRat =
          (a.coord u.1).toRat + t * ((b.coord u.1).toRat - (a.coord u.1).toRat) := by
        rw [Point.coord_between (han.trans hbn.symm) _ (han ▸ hu),
          Exact.eq_finite (ha.coord (han ▸ hu)), Exact.eq_finite (hb.coord (hbn ▸ hu))]
        simp only [Exact.finite_sub, Exact.finite_mul, Exact.finite_add, Exact.toRat_finite]
      rw [weigh_cons, weigh_cons, weigh_cons, hrest, hcoord]
      ring

end OuterApprox
