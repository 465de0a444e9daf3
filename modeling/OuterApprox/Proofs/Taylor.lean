import OuterApprox.Proofs.Linearization
import Mathlib.Algebra.BigOperators.Ring.Finset

/-!
# Taylor rows

Which row a request is turned into, and when there is one, in exact arithmetic. A request names
a constraint or the epigraph of the objective, and a point. The row says that the first-order
expansion of that function around the point is not positive. So what counts is the value of the
function at the point and its slope in every direction, and they are given here for all variables
and not by the terms of a gradient: a term that is missing is a slope of zero.

There is a row as soon as the point has the right number of coordinates, the target exists and
has a value and a gradient there, and the expansion is not a constant that requires nothing. In
particular there is one at every point that violates its target, whether the gradient vanishes
or not, and it cuts that point off.

## Main definitions

* `slope`: The coefficient of a variable.
* `Problem.ExpandsTo`: The value and the slopes of a target at a point.

## Theorems

* `weigh_eq_sum`: A sum over terms as a sum over variables.
* `slope_of_mem`, `slope_epigraph`: The slopes of terms, and those of the epigraph.
* `filter_ne_nil_iff`: Coefficients are left if some slope does not vanish.
* `Problem.expandsTo_iff`: The slopes of a target are those of its gradient.
* `Linearized.valueAt_eq`, `Linearized.valueAt_self`: The value of a linearization.
* `Linearized.kept_iff`: When it is kept.
* `Problem.linearize_taylor`: When there is a row, and which.
-/

namespace OuterApprox

open SparseVector

/-- The coefficient of a variable: the sum of those of its terms. -/
def slope (terms : List (Nat × Exact)) (i : Nat) : ℚ :=
  weighBy terms fun j => if j = i then 1 else 0

@[simp] theorem slope_nil (i : Nat) : slope [] i = 0 := rfl

@[simp] theorem slope_cons (t : Nat × Exact) (rest : List (Nat × Exact)) (i : Nat) :
    slope (t :: rest) i = (if t.1 = i then t.2.toRat else 0) + slope rest i := by
  rw [slope, weighBy_cons, mul_ite, mul_one, mul_zero, slope]

/-- A slope that does not vanish is due to some term. -/
theorem exists_mem_of_slope_ne_zero {terms : List (Nat × Exact)} {i : Nat}
    (h : slope terms i ≠ 0) : ∃ t ∈ terms, t.1 = i ∧ t.2.toRat ≠ 0 := by
  induction terms with
  | nil => exact absurd (slope_nil i) h
  | cons t rest ih =>
      by_cases ht : t.1 = i ∧ t.2.toRat ≠ 0
      · exact ⟨t, List.mem_cons_self, ht⟩
      · have hnone : (if t.1 = i then t.2.toRat else 0) = 0 := by
          split
          next hi => exact not_not.1 fun hne => ht ⟨hi, hne⟩
          · rfl
        rw [slope_cons, hnone, zero_add] at h
        obtain ⟨u, hu, hslope⟩ := ih h
        exact ⟨u, List.mem_cons_of_mem _ hu, hslope⟩

/-- Where indices increase, the slope is the coefficient of the only term. -/
theorem slope_of_mem {terms : List (Nat × Exact)}
    (hsorted : terms.Pairwise fun t u => t.1 < u.1) {t : Nat × Exact} (ht : t ∈ terms) :
    slope terms t.1 = t.2.toRat := by
  induction terms with
  | nil => exact absurd ht List.not_mem_nil
  | cons u rest ih =>
      obtain ⟨hu, hrest⟩ := List.pairwise_cons.1 hsorted
      rw [slope_cons]
      rcases List.mem_cons.1 ht with rfl | ht
      · have hnone : slope rest t.1 = 0 := by
          by_contra hne
          obtain ⟨v, hv, heq, -⟩ := exists_mem_of_slope_ne_zero hne
          exact Nat.lt_irrefl _ (heq ▸ hu v hv)
        rw [if_pos rfl, hnone, add_zero]
      · rw [if_neg (hu t ht).ne, zero_add, ih hrest ht]

/-- Some coefficient does not vanish exactly if some slope does not. -/
theorem filter_ne_nil_iff (g : SparseVector Exact)
    (hg : ∀ t ∈ g.entries, Scalar.isFinite t.2 = true) :
    (g.entries.filter fun t => !(t.2 == 0.0)) ≠ [] ↔ ∃ i, slope g.entries i ≠ 0 := by
  constructor
  · intro hne
    obtain ⟨t, hkept⟩ := List.exists_mem_of_ne_nil _ hne
    obtain ⟨ht, hkept⟩ := List.mem_filter.1 hkept
    refine ⟨t.1, ?_⟩
    rw [slope_of_mem g.sorted ht]
    exact (Exact.not_beq_zero_iff (hg t ht)).1 hkept
  · rintro ⟨i, hi⟩
    obtain ⟨t, ht, -, hne⟩ := exists_mem_of_slope_ne_zero hi
    exact List.ne_nil_of_mem (List.mem_filter.2 ⟨ht, (Exact.not_beq_zero_iff (hg t ht)).2 hne⟩)

/-- The sum over the terms is the sum over all variables. -/
theorem weigh_eq_sum {n : Nat} {terms : List (Nat × Exact)} (h : ∀ t ∈ terms, t.1 < n)
    (y : Point Exact) :
    weigh terms y = ∑ i ∈ Finset.range n, slope terms i * (y.coord i).toRat := by
  induction terms with
  | nil => simp only [weigh_nil, slope_nil, zero_mul, Finset.sum_const_zero]
  | cons t rest ih =>
      have ht := Finset.mem_range.2 (h t List.mem_cons_self)
      simp only [weigh_cons, slope_cons, add_mul, Finset.sum_add_distrib, ite_mul, zero_mul]
      rw [Finset.sum_ite_eq, if_pos ht, ih fun u hu => h u (List.mem_cons_of_mem _ hu)]

/-- The slopes of the epigraph: those of the objective, less one for the variable that carries
    it, with the sign of the sense. -/
theorem slope_epigraph {aux : Nat} {s : ℚ} {l : List (Nat × Exact)}
    (hl : ∀ t ∈ l, Scalar.isFinite t.2 = true) (i : Nat) :
    slope (alterEntries aux (fun old => old.getD 0.0 - .finite s)
      (l.map fun t => (t.1, t.2 * .finite s))) i = s * (slope l i - if aux = i then 1 else 0) := by
  rw [slope, weighBy_epigraph _ hl, mul_sub, slope]

/-- The gradient of the epigraph is usable where that of the objective is. -/
theorem Usable.epigraph {n aux : Nat} {s : ℚ} {f : List (Nat × Exact)} {x : Point Exact}
    (hlt : aux < n) (haux : Scalar.isFinite (x.coord aux) = true) (h : Usable n f x) :
    Usable n (alterEntries aux (fun old => old.getD 0.0 - .finite s)
      (f.map fun t => (t.1, t.2 * .finite s))) x := by
  intro t ht
  obtain ⟨hi, hfinite⟩ := isFinite_epigraph hlt (fun u hu => ⟨(h u hu).1, (h u hu).2.1⟩) t ht
  refine ⟨hi, hfinite, fun hne => ?_⟩
  rcases mem_alterEntries ht with hold | rfl | ⟨c, -, rfl⟩
  · obtain ⟨u, hu, rfl⟩ := List.mem_map.1 hold
    refine (h u hu).2.2 fun hzero => hne ?_
    rw [Exact.eq_finite (h u hu).2.1, Exact.finite_mul, Exact.toRat_finite, hzero, zero_mul]
  · exact haux
  · exact haux

namespace Problem

/-- The value and the slopes of the target of a request at a point: those of the function of a
    constraint, less its right-hand side, or those of the epigraph of the objective. -/
inductive ExpandsTo (p : Problem Exact) (x : Point Exact) : CutTarget → ℚ → (Nat → ℚ) → Prop
  /-- A constraint, where its function has a value and its right-hand side is finite. -/
  | constraint {i : Nat} {c : Constraint Exact} {g : SparseVector Exact}
      (hc : p.constraints[i]? = some c) (hg : c.function.Evaluates p.dimension x g)
      (hupper : Scalar.isFinite c.upper = true) :
      p.ExpandsTo x (.constraint i) ((c.function.value x).toRat - c.upper.toRat)
        (slope g.entries)
  /-- The objective, where there is an epigraph variable with a finite value. -/
  | objective {aux : Nat} {g : SparseVector Exact} (haux : p.auxiliary = some aux)
      (hlt : aux < p.dimension) (hlevel : Scalar.isFinite (x.coord aux) = true)
      (hg : p.objective.function.Evaluates p.dimension x g) :
      p.ExpandsTo x .objective
        (p.sense.signum * ((p.objectiveValue x).toRat - (x.coord aux).toRat))
        fun i => p.sense.signum * (slope g.entries i - if aux = i then 1 else 0)

variable {p : Problem Exact} {x : Point Exact} {target : CutTarget} {v : ℚ} {s : Nat → ℚ}

/-- The value and the slopes of a target are those of its expansion, if that is usable. -/
theorem expandsTo_iff (hlength : x.length = p.dimension) : p.ExpandsTo x target v s ↔
    ∃ subject g, p.expansion target x = .ok ⟨subject, .finite v, .ok g⟩ ∧
      Usable p.dimension g.entries x ∧ s = slope g.entries := by
  constructor
  · rintro (⟨hc, hg, hupper⟩ | @⟨aux, f, haux, hlt, hlevel, hg⟩)
    case constraint i c g =>
      refine ⟨.constraint c.name, g, ?_, hg.usable, rfl⟩
      simp only [expansion, hc, hg.gradient, Constraint.residual]
      conv_lhs => rw [Exact.eq_finite hg.value, Exact.eq_finite hupper, Exact.finite_sub]
    case objective =>
      have hcoord : x[aux]? = some (x.coord aux) := by
        rw [Point.coord, List.getElem?_eq_getElem (hlength ▸ hlt), Option.getD_some]
      have hresidual : p.epigraphValue x = some (.finite (p.sense.signum *
          ((p.objectiveValue x).toRat - (x.coord aux).toRat))) := by
        rw [epigraphValue, haux, Option.bind_some, hcoord, Option.map_some, Option.some.injEq]
        exact p.sense.residual_eq_finite_iff.2 ⟨hg.value, hlevel, rfl⟩
      obtain ⟨g, hexpansion, hentries⟩ :=
        exists_expansion_objective haux hresidual hg.gradient
      refine ⟨.objective, g, hexpansion, hentries ▸ hg.usable.epigraph hlt hlevel,
        funext fun i => ?_⟩
      rw [hentries, slope_epigraph fun t ht => (hg.usable t ht).2.1]
  · rintro ⟨subject, g, hexpansion, husable, rfl⟩
    cases target with
    | constraint i =>
        simp only [expansion] at hexpansion
        split at hexpansion
        · simp only [reduceCtorEq] at hexpansion
        next c hc =>
          simp only [Except.ok.injEq, Expansion.mk.injEq, Constraint.residual] at hexpansion
          obtain ⟨-, hvalue, hgradient⟩ := hexpansion
          -- The residual is a number, so the value and the right-hand side are.
          obtain ⟨hf, hu⟩ := Exact.isFinite_of_sub (hvalue ▸ Exact.isFinite_finite v)
          have hv : v = (c.function.value x).toRat - c.upper.toRat := by
            rw [Exact.eq_finite hf, Exact.eq_finite hu, Exact.finite_sub,
              Exact.finite.injEq] at hvalue
            exact hvalue.symm
          rw [hv]
          exact .constraint hc ⟨hf, hgradient, husable⟩ hu
    | objective =>
        obtain ⟨aux, level, f, haux, hlevel, hf, hvalue, hentries⟩ :=
          expansion_objective hexpansion
        have hcoord : x.coord aux = level := by rw [Point.coord, hlevel, Option.getD_some]
        obtain ⟨hobjective, hl, hv⟩ := p.sense.residual_eq_finite_iff.1 hvalue.symm
        rw [hentries] at husable
        have hfusable := husable.of_epigraph p.sense.signum_ne_zero (hcoord ▸ hl)
        have hslope : slope g.entries =
            fun i => p.sense.signum * (slope f.entries i - if aux = i then 1 else 0) := by
          funext i
          rw [hentries, slope_epigraph fun t ht => (hfusable t ht).2.1]
        rw [hv, hslope, ← hcoord]
        exact .objective haux (hlength ▸ (List.getElem?_eq_some_iff.1 hlevel).1) (hcoord ▸ hl)
          ⟨hobjective, hf, hfusable⟩

end Problem

namespace Linearized

variable {p : Problem Exact} {x y : Point Exact} {value : Exact} {g : SparseVector Exact}
variable {l : Linearization Exact}

/-- The value of a linearization is that of the expansion, wherever the coordinates that it looks
    at are numbers. -/
theorem valueAt_eq (h : Linearized p x value g l) (hy : Weighable l.terms.entries y) :
    l.valueAt y = .finite (value.toRat + (weigh g.entries y - weigh g.entries x)) := by
  have hdot : l.terms.dot y = .finite (weigh g.entries y) := by
    rw [dot, sum_mul_coord _ _ hy, h.terms,
      weigh_filter_ne_zero _ _ fun t ht => (h.usable t ht).2.1]
  rw [Linearization.valueAt, hdot, h.constant, Exact.finite_add, Exact.finite.injEq]
  ring

/-- Where a linearization was taken it has the value that it was taken from. -/
theorem valueAt_self (h : Linearized p x value g l) : l.valueAt x = value := by
  have hself := h.usable.weighable_filter_self
  rw [← h.terms] at hself
  rw [h.valueAt_eq hself, sub_self, add_zero, ← Exact.eq_finite h.isNumber]

/-- The sum of the slopes times the distances from the point. -/
theorem weigh_sub_weigh (h : Linearized p x value g l) (y : Point Exact) :
    weigh g.entries y - weigh g.entries x = ∑ i ∈ Finset.range p.dimension,
      slope g.entries i * ((y.coord i).toRat - (x.coord i).toRat) := by
  have hlt : ∀ t ∈ g.entries, t.1 < p.dimension := fun t ht => (h.usable t ht).1
  simp only [weigh_eq_sum hlt, mul_sub, Finset.sum_sub_distrib]

/-- The terms of a linearization are the slopes that do not vanish. -/
theorem eq_slope_of_mem (h : Linearized p x value g l) {t : Nat × Exact}
    (ht : t ∈ l.terms.entries) :
    slope g.entries t.1 ≠ 0 ∧ t.2 = .finite (slope g.entries t.1) := by
  rw [h.terms, List.mem_filter] at ht
  have hfinite := (h.usable t ht.1).2.1
  rw [slope_of_mem g.sorted ht.1]
  exact ⟨(Exact.not_beq_zero_iff hfinite).1 ht.2, Exact.eq_finite hfinite⟩

/-- There are terms if some slope does not vanish. -/
theorem terms_ne_nil_iff (h : Linearized p x value g l) :
    l.terms.entries ≠ [] ↔ ∃ i, slope g.entries i ≠ 0 := by
  rw [h.terms]
  exact filter_ne_nil_iff g fun t ht => (h.usable t ht).2.1

/-- A linearization is kept if some slope does not vanish or the value is positive. -/
theorem kept_iff (h : Linearized p x value g l) :
    (l.terms.entries ≠ [] ∨ ¬ l.constant ≤ 0.0) ↔
      (∃ i, slope g.entries i ≠ 0) ∨ 0 < value.toRat := by
  rw [h.terms_ne_nil_iff]
  refine or_congr_right' fun hnone => ?_
  -- Without slopes the constant is the value.
  have hzero : weigh g.entries x = 0 := by
    rw [weigh_eq_sum (fun t ht => (h.usable t ht).1)]
    refine Finset.sum_eq_zero fun i _ => ?_
    rw [not_not.1 fun hne => hnone ⟨i, hne⟩, zero_mul]
  rw [h.constant, hzero, sub_zero, Exact.zero_eq, Exact.finite_le, not_le]

end Linearized

/-- When a request gives a row, and which. There is one exactly if the point has one coordinate
    per variable, the target has a value and slopes there, and some slope does not vanish or the
    value is positive. Its terms are the slopes that do not vanish, by increasing index, and its
    value at every point is that of the first-order expansion. So it has the value of the target
    at the point of the request, and cuts that point off exactly if that is positive. -/
theorem Problem.linearize_taylor (p : Problem Exact) (h : Hyperplane Exact) :
    ((∃ l, p.linearize h = .ok l) ↔ h.point.length = p.dimension ∧
      ∃ v s, p.ExpandsTo h.point h.target v s ∧ ((∃ i, s i ≠ 0) ∨ 0 < v)) ∧
    ∀ l, p.linearize h = .ok l → ∀ v s, p.ExpandsTo h.point h.target v s →
      l.terms.entries.Pairwise (fun t u => t.1 < u.1) ∧
      (∀ t ∈ l.terms.entries, s t.1 ≠ 0 ∧ t.2 = .finite (s t.1)) ∧
      (∀ y : Point Exact, y.length = p.dimension → y.Finite →
        l.valueAt y = .finite (v + ∑ i ∈ Finset.range p.dimension,
          s i * ((y.coord i).toRat - (h.point.coord i).toRat))) ∧
      l.valueAt h.point = .finite v ∧ (¬ l.row.Satisfied h.point ↔ 0 < v) := by
  constructor
  · constructor
    · rintro ⟨l, hl⟩
      obtain ⟨subject, value, g, hexpansion, hspec, -, hkept⟩ := linearize_eq_ok_iff.1 hl
      rw [Exact.eq_finite hspec.isNumber] at hexpansion
      exact ⟨hspec.length, value.toRat, slope g.entries,
        (expandsTo_iff hspec.length).2 ⟨subject, g, hexpansion, hspec.usable, rfl⟩,
        hspec.kept_iff.1 hkept⟩
    · rintro ⟨hlength, v, s, hexpands, hsome⟩
      obtain ⟨subject, g, hexpansion, husable, rfl⟩ := (expandsTo_iff hlength).1 hexpands
      have hspec : Linearized p h.point (.finite v) g ⟨p.dimension,
          g.filter fun c => !(c == 0.0), .finite (v - weigh g.entries h.point)⟩ :=
        ⟨hlength, rfl, husable, rfl, rfl⟩
      exact ⟨_, linearize_eq_ok_iff.2
        ⟨subject, .finite v, g, hexpansion, hspec, rfl, hspec.kept_iff.2 hsome⟩⟩
  · intro l hl v s hexpands
    obtain ⟨subject, value, g, hexpansion, hspec⟩ := linearize_spec hl
    obtain ⟨_, _, hsame, -, rfl⟩ := (expandsTo_iff hspec.length).1 hexpands
    -- A target has one expansion.
    rw [hexpansion] at hsame
    cases hsame
    have hself := hspec.usable.weighable_filter_self
    rw [← hspec.terms] at hself
    refine ⟨l.terms.sorted, fun t ht => hspec.eq_slope_of_mem ht, fun y hlength hy => ?_, ?_, ?_⟩
    · have hweighable := hspec.usable.weighable_filter hlength hy
      rw [← hspec.terms] at hweighable
      rw [hspec.valueAt_eq hweighable, hspec.weigh_sub_weigh, Exact.toRat_finite]
    · rw [hspec.valueAt_eq hself, sub_self, add_zero, Exact.toRat_finite]
    · rw [hspec.satisfied_iff_of_weighable hself, sub_self, add_zero, not_le, Exact.toRat_finite]

/-! ## A tangent of a circle -/

namespace Circle

/-- The squared distance from the origin of the plane. -/
def squaredNorm : SmoothFunction Exact where
  value x := x.coord 0 * x.coord 0 + x.coord 1 * x.coord 1
  gradient x := .ok (.ofList [(0, x.coord 0 + x.coord 0), (1, x.coord 1 + x.coord 1)])

/-- Two variables in a disk. -/
def problem : Problem Exact :=
  (((Problem.ofObjective (.affine ⟨[(0, 1.0)], 0.0⟩ .minimize)).addVariable
    "x" (-10.0) 10.0 .real).addVariable "y" (-10.0) 10.0 .real).addConstraint
      ⟨"disk", squaredNorm, 10.0, true⟩

/-- A request at a point outside the disk. -/
def request : Hyperplane Exact := ⟨.constraint 0, [3.0, 4.0], .interiorSearch⟩

theorem expandsTo : problem.ExpandsTo [3.0, 4.0] (.constraint 0) 15
    (slope [(0, 6.0), (1, 8.0)]) := by
  have hg : squaredNorm.Evaluates 2 [3.0, 4.0] (.ofList [(0, 3.0 + 3.0), (1, 4.0 + 4.0)]) :=
    ⟨by decide +kernel, rfl, by unfold Usable; decide +kernel⟩
  have hvalue : (squaredNorm.value [3.0, 4.0]).toRat - (10.0 : Exact).toRat = 15 := by
    decide +kernel
  have hentries : (SparseVector.ofList [(0, (3.0 : Exact) + 3.0), (1, 4.0 + 4.0)]).entries =
      [(0, 6.0), (1, 8.0)] := by decide +kernel
  have hexpands : problem.ExpandsTo [3.0, 4.0] (.constraint 0) _ _ :=
    .constraint rfl hg (by decide +kernel)
  rw [hentries] at hexpands
  exact hvalue ▸ hexpands

/-- The tangent has the value of the constraint where it is taken, and cuts that point off. -/
theorem linearize_taylor_circle : ∃ l, problem.linearize request = .ok l ∧
    (∀ y : Point Exact, y.length = 2 → y.Finite → l.valueAt y = .finite
      (15 + ∑ i ∈ Finset.range 2, slope [(0, 6.0), (1, 8.0)] i *
        ((y.coord i).toRat - (Point.coord [3.0, 4.0] i : Exact).toRat))) ∧
    l.valueAt [3.0, 4.0] = .finite 15 ∧ ¬ l.row.Satisfied [3.0, 4.0] := by
  obtain ⟨hiff, hall⟩ := Problem.linearize_taylor problem request
  obtain ⟨l, hl⟩ := hiff.2 ⟨rfl, 15, _, expandsTo, .inr (by norm_num)⟩
  obtain ⟨-, -, hvalues, hself, hcut⟩ := hall l hl 15 _ expandsTo
  exact ⟨l, hl, hvalues, hself, hcut.2 (by norm_num)⟩

end Circle

end OuterApprox
