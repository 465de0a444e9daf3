import OuterApprox.Proofs.CutPoints
import OuterApprox.Proofs.InteriorPoint
import OuterApprox.Proofs.OuterApproximation

/-!
# Separation

Every candidate that is not accepted has a cut among those asked for it, and that
cut holds nowhere near it: the row is violated at the candidate itself. For a
cutting plane this is immediate, because the linearization has the value of its
constraint where it is taken. A supporting hyperplane is taken elsewhere, at the
outer end of a line search from the interior point. There the constraint is
violated, at the interior point it holds, and its expansion is not above it
there; the expansion is affine along the segment, so it must go on rising until
the candidate.

A candidate that satisfies the constraints can still lie below the epigraph of
the objective. It is lifted along the auxiliary variable, which the objective does
not depend on. A convex function that does not change along a line has an
expansion that does not change along it either, so at the candidate the
expansion is what the objective is, and the cut misses the candidate by the whole
residual.

Line searches may end anywhere. Their budget and tolerances decide how close to
the boundary the cut is taken, and nothing else; so none of them is mentioned
here.

## Main definitions

* `SmoothFunction.Total`, `Problem.Regular`: Problems whose functions evaluate
  everywhere and are convex in the direction that matters.
* `Problem.CutsOff`: The row of a request is violated at a point.

## Theorems

* `SmoothFunction.lt_firstOrder_of_between`: Expansions at the outer end of a
  segment.
* `Problem.Regular.cutsOff_constraint`: Cuts of a constraint.
* `Problem.Regular.signum_firstOrder_le`, `Problem.Regular.weigh_lifted`: The
  objective is beyond its expansions, and they do not change along the auxiliary
  variable.
* `Problem.Regular.cutsOff_epigraph`: Cuts of the epigraph.
* `Session.select_cutsOff`, `Session.epigraphRequests_cutsOff`: Those asked for.
* `Session.exists_cutsOff`: A candidate that is not accepted is cut off.
-/

namespace OuterApprox

/-- A function has a value and a usable gradient at every point made of numbers. -/
def SmoothFunction.Total (f : SmoothFunction Exact) (n : Nat) : Prop :=
  ∀ x : Point Exact, x.length = n → x.Finite → ∃ g, f.Evaluates n x g

/-- All functions of a problem evaluate, right-hand sides are numbers, constraints
    satisfy the gradient inequality, and so does the objective in the direction of
    its sense. The objective does not depend on the variable that carries it. -/
structure Problem.Regular (p : Problem Exact) : Prop where
  /-- Right-hand sides are numbers. -/
  upper : ∀ c ∈ p.constraints, Scalar.isFinite c.upper = true
  /-- Constraints evaluate. -/
  constraintTotal : ∀ c ∈ p.constraints, c.function.Total p.dimension
  /-- Constraints are above their expansions. -/
  constraintAbove : ∀ c ∈ p.constraints, c.function.AboveExpansions p.dimension
  /-- The objective evaluates. -/
  objectiveTotal : p.objective.function.Total p.dimension
  /-- The objective is above or below its expansions. -/
  objective : match p.sense with
    | .minimize => p.objective.function.AboveExpansions p.dimension
    | .maximize => p.objective.function.BelowExpansions p.dimension
  /-- The objective does not depend on the auxiliary variable. -/
  independent : ∀ aux ∈ p.auxiliary, ∀ (x : Point Exact) (v : ℚ), x.length = p.dimension →
    x.Finite → p.objectiveValue (x.setCoord aux (.finite v)) = p.objectiveValue x

/-- The row of a request exists and is violated at a point. -/
def Problem.CutsOff (p : Problem Exact) (h : Hyperplane Exact) (x : Point Exact) : Prop :=
  ∃ l, p.linearize h = .ok l ∧ ¬ l.row.Satisfied x

namespace SmoothFunction

variable {f : SmoothFunction Exact} {n : Nat} {g : SparseVector Exact} {x : Point Exact}

/-- Where it is taken, an expansion has the value of its function. -/
theorem firstOrder_self : f.firstOrder g x x = (f.value x).toRat := by
  rw [firstOrder, sub_self, add_zero]

/-- An expansion that is too large at a point of a segment, and was not at its
    beginning, is too large at its end. -/
theorem lt_firstOrder_of_between (habove : f.AboveExpansions n) {z : Point Exact}
    (hz : z.length = n) (hzf : z.Finite) (hx : x.length = n) (hxf : x.Finite) {t u : ℚ}
    (hpos : 0 < t) (hone : t ≤ 1) (hinner : f.value z ≤ .finite u)
    (hg : f.Evaluates n (Point.between z x (.finite t)) g)
    (houter : u < (f.value (Point.between z x (.finite t))).toRat) :
    u < f.firstOrder g (Point.between z x (.finite t)) x := by
  have hlength : (Point.between z x (.finite t)).length = n :=
    (Point.length_between _ _ _ (hz.trans hx.symm)).trans hz
  have hbegin : f.firstOrder g (Point.between z x (.finite t)) z ≤ u := by
    rcases habove _ z g hlength hz hzf hg with hundefined | hle
    · rw [hundefined] at hinner
      exact absurd hinner (Exact.not_undefined_le _)
    · exact Exact.le_of_finite_le hle hinner
  have haffine := weigh_between hzf hxf hz hx t fun v hv => (hg.usable v hv).1
  rw [firstOrder] at hbegin ⊢
  by_contra hend
  -- Otherwise the expansion would be small enough at both ends, hence in between.
  have hleft := mul_le_mul_of_nonneg_left hbegin (sub_nonneg.2 hone)
  have hright := mul_le_mul_of_nonneg_left (not_lt.1 hend) hpos.le
  rw [haffine] at hleft hright
  linarith

end SmoothFunction

/-! ## Cuts of a constraint -/

namespace Problem

variable {p : Problem Exact} {x : Point Exact}

theorem Regular.valued (hp : p.Regular) : p.Valued := by
  intro x hlength hfinite c hc
  rcases hp.constraintTotal c hc x hlength hfinite with ⟨g, hg⟩
  exact ⟨hg.value, hp.upper c hc⟩

/-- A cut of a constraint cuts off every point at which the expansion is too large. -/
theorem Regular.cutsOff_constraint (hp : p.Regular) {w : Point Exact}
    (hw : w.length = p.dimension) (hwf : w.Finite) (hx : x.length = p.dimension)
    (hxf : x.Finite) {i : Nat} {c : Constraint Exact} (hc : p.constraints[i]? = some c)
    (source : CutSource)
    (hbeyond : ∀ g, c.function.Evaluates p.dimension w g →
      c.upper.toRat < c.function.firstOrder g w x) :
    p.CutsOff ⟨.constraint i, w, source⟩ x := by
  have hmem := List.mem_of_getElem? hc
  rcases hp.constraintTotal c hmem w hw hwf with ⟨g, hg⟩
  have hexpansion : p.expansion (.constraint i) w = .ok ⟨.constraint c.name,
      .finite ((c.function.value w).toRat - c.upper.toRat), .ok g⟩ := by
    simp only [expansion, hc, hg.gradient, Constraint.residual]
    rw [Exact.eq_finite hg.value, Exact.eq_finite (hp.upper c hmem), Exact.finite_sub]
    simp only [Exact.toRat_finite]
  have hpositive := hbeyond g hg
  rw [SmoothFunction.firstOrder] at hpositive
  -- An expansion that is positive at the candidate is not discarded as redundant.
  rcases exists_linearize (h := ⟨.constraint i, w, source⟩) (y := x) hw hwf hexpansion
    (fun t ht => ⟨(hg.usable t ht).1, (hg.usable t ht).2.1⟩) (by linarith) with ⟨l, hl⟩
  refine ⟨l, hl, ?_⟩
  rcases linearize_spec hl with ⟨subject, value, g', hexpansion', hspec⟩
  rcases hspec.constraint_iff hexpansion' with ⟨c', hc', hg', _, hiff⟩
  rw [← Option.some.inj (hc.symm.trans hc')] at hg' hiff
  rw [hiff x hx hxf]
  exact not_le.2 (hbeyond g' hg')

/-- A violated constraint cuts off the point that violates it. -/
theorem Regular.cutsOff_here (hp : p.Regular) (hx : x.length = p.dimension) (hxf : x.Finite)
    {i : Nat} {c : Constraint Exact} (hc : p.constraints[i]? = some c) (source : CutSource)
    (hviolated : c.upper.toRat < (c.function.value x).toRat) :
    p.CutsOff ⟨.constraint i, x, source⟩ x := by
  refine hp.cutsOff_constraint hx hxf hx hxf hc source fun g _ => ?_
  rw [SmoothFunction.firstOrder_self]
  exact hviolated

/-- A constraint that is violated on the way from a point inside cuts off the point at the
    end. -/
theorem Regular.cutsOff_beyond (hp : p.Regular) {z : Point Exact} (hz : p.Inside z)
    (hx : x.length = p.dimension) (hxf : x.Finite) {t : ℚ} (hpos : 0 < t) (hone : t ≤ 1)
    {i : Nat} {c : Constraint Exact} (hc : p.constraints[i]? = some c) (source : CutSource)
    (hviolated : c.upper.toRat <
      (c.function.value (Point.between z x (.finite t))).toRat) :
    p.CutsOff ⟨.constraint i, Point.between z x (.finite t), source⟩ x := by
  have hmem := List.mem_of_getElem? hc
  -- At the inner end the constraint holds, and its expansion is below it there.
  have hlength := Point.length_between z x (.finite t) (hz.length.trans hx.symm)
  have hinner := Exact.le_of_lt (hz.strict c hmem)
  rw [Exact.eq_finite (hp.upper c hmem)] at hinner
  refine hp.cutsOff_constraint (hlength.trans hz.length) (hz.finite.between hxf t) hx hxf hc
    source fun g hg => ?_
  exact SmoothFunction.lt_firstOrder_of_between (hp.constraintAbove c hmem) hz.length
    hz.finite hx hxf hpos hone hinner hg hviolated

end Problem

/-! ## Cuts of the epigraph -/

namespace Point

variable {x : Point Exact} {i : Nat}

theorem length_setCoord (v : Exact) : (x.setCoord i v).length = x.length := List.length_set

theorem Finite.setCoord (hx : x.Finite) (v : ℚ) : (x.setCoord i (.finite v)).Finite := by
  intro u hu
  rcases List.mem_or_eq_of_mem_set hu with hu | rfl
  · exact hx u hu
  · exact Exact.isFinite_finite v

theorem coord_setCoord (hi : i < x.length) (v : Exact) : (x.setCoord i v).coord i = v := by
  rw [coord, Point.setCoord, List.getElem?_set_self hi, Option.getD_some]

theorem setCoord_coord (hi : i < x.length) : x.setCoord i (x.coord i) = x := by
  rw [coord, Point.setCoord, List.getElem?_eq_getElem hi, Option.getD_some, List.set_getElem_self]

/-- A sum of coefficients times coordinates is affine in every coordinate. -/
theorem exists_weigh_setCoord (hi : i < x.length) (terms : List (Nat × Exact)) :
    ∃ a b : ℚ, ∀ v : ℚ, weigh terms (x.setCoord i (.finite v)) = a + b * v := by
  induction terms with
  | nil => exact ⟨0, 0, fun v => by rw [weigh_nil, zero_mul, add_zero]⟩
  | cons t rest ih =>
      rcases ih with ⟨a, b, hrest⟩
      -- Only the terms of the coordinate itself contribute to the slope.
      by_cases hsame : t.1 = i
      · refine ⟨a, t.2.toRat + b, fun v => ?_⟩
        rw [weigh_cons, hrest, hsame, coord_setCoord hi, Exact.toRat_finite]
        ring
      · refine ⟨t.2.toRat * (x.coord t.1).toRat + a, b, fun v => ?_⟩
        have hother : (x.setCoord i (.finite v)).coord t.1 = x.coord t.1 := by
          rw [coord, Point.setCoord, List.getElem?_set_ne (Ne.symm hsame), coord]
        rw [weigh_cons, hrest, hother, add_assoc]

end Point

namespace Problem

variable {p : Problem Exact} {x : Point Exact} {aux : Nat}

/-- The objective is beyond its expansions, in the direction of its sense. -/
theorem Regular.signum_firstOrder_le (hp : p.Regular) {y : Point Exact}
    (hx : x.length = p.dimension) (hy : y.length = p.dimension) (hyf : y.Finite)
    {f : SparseVector Exact} (hf : p.objective.function.Evaluates p.dimension x f) :
    p.sense.signum * p.objective.function.firstOrder f x y ≤
      p.sense.signum * (p.objectiveValue y).toRat := by
  rcases hp.objectiveTotal y hy hyf with ⟨_, hg⟩
  have hvalue : p.objective.function.value y = .finite (p.objectiveValue y).toRat :=
    Exact.eq_finite hg.value
  have hobjective := hp.objective
  cases hsense : p.sense with
  | minimize =>
      rw [hsense] at hobjective
      rcases hobjective x y f hx hy hyf hf with hundefined | hle
      · rw [hvalue] at hundefined
        simp only [reduceCtorEq] at hundefined
      · rw [hvalue, Exact.finite_le] at hle
        simp only [Sense.signum]
        linarith
  | maximize =>
      rw [hsense] at hobjective
      rcases hobjective x y f hx hy hyf hf with hundefined | hle
      · rw [hvalue] at hundefined
        simp only [reduceCtorEq] at hundefined
      · rw [hvalue, Exact.finite_le] at hle
        simp only [Sense.signum]
        linarith

/-- The expansion of the objective at a lifted point does not change along the auxiliary
    variable: the objective does not, and is on one side of the expansion. -/
theorem Regular.weigh_lifted (hp : p.Regular) (haux : p.auxiliary = some aux)
    (hx : x.length = p.dimension) (hxf : x.Finite) (hi : aux < x.length) {v : ℚ}
    {f : SparseVector Exact}
    (hf : p.objective.function.Evaluates p.dimension (x.setCoord aux (.finite v)) f) :
    weigh f.entries (x.setCoord aux (.finite v)) = weigh f.entries x := by
  rcases Point.exists_weigh_setCoord hi f.entries with ⟨a, b, hweigh⟩
  have hsame : ∀ u : ℚ, p.objectiveValue (x.setCoord aux (.finite u)) = p.objectiveValue x :=
    fun u => hp.independent aux haux x u hx hxf
  have hlength : ∀ u : Exact, (x.setCoord aux u).length = p.dimension :=
    fun u => (Point.length_setCoord u).trans hx
  have hexpansion : ∀ u : ℚ, p.objective.function.firstOrder f (x.setCoord aux (.finite v))
      (x.setCoord aux (.finite u)) = (p.objectiveValue x).toRat + b * (u - v) := by
    intro u
    rw [SmoothFunction.firstOrder, ← objectiveValue, hsame, hweigh, hweigh]
    ring
  have hslope : ∀ u : ℚ, p.sense.signum * (b * (u - v)) ≤ 0 := by
    intro u
    have hle := hp.signum_firstOrder_le (hlength _) (hlength (.finite u)) (hxf.setCoord u) hf
    rw [hexpansion, hsame] at hle
    linarith
  -- One step along the variable in either direction leaves no room for a slope.
  have hzero : b = 0 := by
    have hup := hslope (v + 1)
    have hdown := hslope (v - 1)
    refine (mul_eq_zero.1 (?_ : p.sense.signum * b = 0)).resolve_left p.sense.signum_ne_zero
    linarith
  have hlevel : x.coord aux = .finite (x.coord aux).toRat := Exact.eq_finite (hxf.coord hi)
  -- The point itself is the one lifted to its own level.
  conv_rhs => rw [← Point.setCoord_coord hi, hlevel]
  rw [hweigh, hweigh, hzero, zero_mul, zero_mul]

/-- The epigraph residual is a number. -/
theorem Regular.epigraphValue_eq (hp : p.Regular) (haux : p.auxiliary = some aux)
    (hx : x.length = p.dimension) (hxf : x.Finite) (hi : aux < x.length) :
    p.epigraphValue x =
      some (.finite (p.sense.signum * ((p.objectiveValue x).toRat - (x.coord aux).toRat))) := by
  rcases hp.objectiveTotal x hx hxf with ⟨g, hg⟩
  have hvalue : p.objectiveValue x = .finite (p.objectiveValue x).toRat :=
    Exact.eq_finite hg.value
  have hlevel : x[aux]? = some (.finite (x.coord aux).toRat) := by
    rw [← Exact.eq_finite (hxf.coord hi), Point.coord, List.getElem?_eq_getElem hi,
      Option.getD_some]
  simp only [epigraphValue, haux, Option.bind_some, hlevel, Option.map_some]
  congr 1
  conv_lhs => rw [hvalue]
  cases p.sense with
  | minimize => rw [Exact.finite_sub, Sense.signum, one_mul]
  | maximize =>
      simp only [Sense.signum, Exact.finite_sub, Exact.finite.injEq]
      ring

/-- The cut of the epigraph at the lifted point cuts off the point itself. -/
theorem Regular.cutsOff_epigraph (hp : p.Regular) (haux : p.auxiliary = some aux)
    (hx : x.length = p.dimension) (hxf : x.Finite) (hi : aux < x.length)
    (hbelow : 0 < p.sense.signum * ((p.objectiveValue x).toRat - (x.coord aux).toRat)) :
    p.CutsOff ⟨.objective, x.setCoord aux (p.objectiveValue x), .epigraph⟩ x := by
  rcases hp.objectiveTotal x hx hxf with ⟨_, hg⟩
  have hvalue : p.objectiveValue x = .finite (p.objectiveValue x).toRat :=
    Exact.eq_finite hg.value
  rw [hvalue]
  generalize hlifted : x.setCoord aux (.finite (p.objectiveValue x).toRat) = w
  have hw : w.length = p.dimension := hlifted ▸ (Point.length_setCoord _).trans hx
  have hwf : w.Finite := hlifted ▸ hxf.setCoord _
  have hwi : aux < w.length := by rwa [hw, ← hx]
  have hsame : p.objectiveValue w = p.objectiveValue x :=
    hlifted ▸ hp.independent aux haux x _ hx hxf
  have hcoord : w.coord aux = .finite (p.objectiveValue x).toRat :=
    hlifted ▸ Point.coord_setCoord hi _
  -- The lifted point lies on the epigraph, so the expansion starts from zero there.
  have hresidual : p.epigraphValue w = some (.finite 0) := by
    rw [hp.epigraphValue_eq haux hw hwf hwi, hsame, hcoord, Exact.toRat_finite, sub_self,
      mul_zero]
  -- Its expansion does not change on the way down to the candidate.
  have hflat : ∀ f, p.objective.function.Evaluates p.dimension w f →
      weigh f.entries w = weigh f.entries x := by
    intro f hf
    rw [← hlifted] at hf ⊢
    exact hp.weigh_lifted haux hx hxf hi hf
  rcases hp.objectiveTotal w hw hwf with ⟨f, hf⟩
  rcases exists_expansion_objective haux hresidual hf.gradient with ⟨g, hexpansion, hentries⟩
  have hfinite : ∀ t ∈ f.entries, Scalar.isFinite t.2 = true := fun t ht => (hf.usable t ht).2.1
  have husable : ∀ t ∈ g.entries, t.1 < p.dimension ∧ Scalar.isFinite t.2 = true :=
    hentries ▸ SparseVector.isFinite_epigraph (hx ▸ hi) fun t ht =>
      ⟨(hf.usable t ht).1, hfinite t ht⟩
  rcases exists_linearize (h := ⟨.objective, w, .epigraph⟩) (y := x) hw hwf hexpansion husable
    (by
      rw [hentries, SparseVector.weigh_epigraph x hfinite, SparseVector.weigh_epigraph w hfinite,
        hflat f hf, hcoord, Exact.toRat_finite]
      linarith) with ⟨l, hl⟩
  refine ⟨l, hl, ?_⟩
  rcases linearize_spec hl with ⟨subject, value, g', hexpansion', hspec⟩
  rcases hspec.epigraph_iff hexpansion' with ⟨aux', f', haux', hf', hiff⟩
  rw [← Option.some.inj (haux.symm.trans haux')] at hiff
  rw [hiff x hx hxf, SmoothFunction.firstOrder, hflat f' hf', sub_self, add_zero,
    ← objectiveValue, hsame]
  exact not_le.2 hbelow

end Problem

namespace Session

variable {s : Session Exact} {x : Point Exact}

/-- A violated candidate is cut off by one of the hyperplanes of either strategy, whatever the
    line search comes to. -/
theorem select_cutsOff (hp : s.problem.Regular) (hvalid : s.settings.validate = .ok ())
    (strategy : CutStrategy) {interior : Option (Candidate Exact)}
    (hinterior : ∀ z ∈ interior, s.problem.Inside z.point)
    (hx : x.length = s.problem.dimension) (hxf : x.Finite) (n : Nat) (milp : Bool)
    {top : ConstraintValue Exact}
    (htop : s.problem.maxValue? x s.problem.constraintIndices = some top)
    (hpos : ¬ top.normalized ≤ 0.0) :
    ∃ h ∈ (s.select strategy interior [s.problem.candidate x n] milp).hyperplanes,
      s.problem.CutsOff h x := by
  rcases exists_mem_select (c := s.problem.candidate x n) hvalid hp.upper strategy interior milp
    htop hpos with ⟨w, source, htaken, v, hv, hpositive, hmem⟩
  refine ⟨_, hmem, ?_⟩
  cases htaken with
  | here =>
      rcases (hp.valued x hx hxf).upper_lt hv hpositive with ⟨c, hc, hviolated⟩
      exact hp.cutsOff_here hx hxf hc source hviolated
  | beyond z first rest stop r hz hlist hcrossed =>
      -- Wherever the search stopped, its outer end is past the inner point.
      rcases hcrossed.exists_ends with ⟨lower, upper, hzero, hlt, hone, _, houter, _⟩
      have hinside := hinterior z hz
      have hlength := Point.length_between z.point x (.finite upper) (hinside.length.trans hx.symm)
      rw [houter] at hv ⊢
      rcases (hp.valued _ (hlength.trans hinside.length)
        (hinside.finite.between hxf upper)).upper_lt hv hpositive with ⟨c, hc, hviolated⟩
      exact hp.cutsOff_beyond hinside hx hxf (hzero.trans_lt hlt) hone hc source hviolated

/-- A candidate below the epigraph by more than the tolerance is cut off by the hyperplane
    of the objective. -/
theorem epigraphRequests_cutsOff (hp : s.problem.Regular)
    (hvalid : s.settings.validate = .ok ()) (hx : x.length = s.problem.dimension)
    (hxf : x.Finite) (n : Nat) (hneeds : s.objectiveNeedsCuts = true) {residual : Exact}
    (hresidual : s.problem.epigraphValue x = some residual)
    (hbeyond : ¬ residual ≤ s.settings.termination.constraintTolerance) :
    ∃ h ∈ (s.epigraphRequests [s.problem.candidate x n]).hyperplanes, s.problem.CutsOff h x := by
  have hvalue := hresidual
  simp only [Problem.epigraphValue, Option.bind_eq_some_iff, Option.map_eq_some_iff] at hvalue
  rcases hvalue with ⟨aux, haux, level, hlevel, _⟩
  have hi : aux < x.length := (List.getElem?_eq_some_iff.1 hlevel).1
  have hnumber := Option.some.inj (hresidual.symm.trans (hp.epigraphValue_eq haux hx hxf hi))
  rcases lifted_mem_epigraphRequests (c := s.problem.candidate x n) hvalid hneeds haux hresidual
    (hnumber ▸ rfl) hbeyond with ⟨hpositive, hmem⟩
  rw [hnumber, Exact.zero_eq, Exact.finite_lt] at hpositive
  exact ⟨_, hmem, hp.cutsOff_epigraph haux hx hxf hi hpositive⟩

/-- A candidate that is not accepted is cut off by one of the hyperplanes that are asked for
    it, by the strategy or for the objective. -/
theorem exists_cutsOff (hp : s.problem.Regular) (hvalid : s.settings.validate = .ok ())
    (strategy : CutStrategy) {interior : Option (Candidate Exact)}
    (hinterior : ∀ z ∈ interior, s.problem.Inside z.point)
    (hx : x.length = s.problem.dimension) (hxf : x.Finite) (n : Nat) (milp : Bool)
    (hrejected : s.accepts (s.problem.candidate x n) = false) :
    ∃ h ∈ (s.select strategy interior [s.problem.candidate x n] milp).hyperplanes ++
        (s.epigraphRequests [s.problem.candidate x n]).hyperplanes, s.problem.CutsOff h x := by
  rcases outside_or_below hvalid hrejected with
    ⟨top, htop, hpos⟩ | ⟨hneeds, residual, hresidual, hbelow⟩
  · rcases select_cutsOff hp hvalid strategy hinterior hx hxf n milp htop hpos with ⟨h, hh, hcut⟩
    exact ⟨h, List.mem_append_left _ hh, hcut⟩
  · rcases epigraphRequests_cutsOff hp hvalid hx hxf n hneeds hresidual hbelow with ⟨h, hh, hcut⟩
    exact ⟨h, List.mem_append_right _ hh, hcut⟩

end Session

end OuterApprox
