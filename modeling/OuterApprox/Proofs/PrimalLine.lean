import OuterApprox.Proofs.Depth
import OuterApprox.Proofs.Masking
import OuterApprox.Proofs.NoGood
import OuterApprox.Proofs.TurnSteps

/-!
# The primal line search

What the line search for incumbents gives and when it succeeds. The segment is searched from an
anchor, which is the interior point with the candidate's values on the discrete variables. So
both ends agree there, and every point between them should.

That it does so is not a matter of exact arithmetic. A coordinate on the segment is computed as
`u + t * (v - u)`. Where `u` and `v` are the same finite number, the difference is zero, and so
is its product with the parameter; a sum with zero is the number again, or the other zero. If the
search ends before it has begun, the anchor itself is returned.

Whether the search succeeds depends on the anchor. From a feasible anchor it does, if arithmetic
is exact. Then the candidate is the end of the segment and not only close to it, so the search
finds it infeasible, and keeps an inner end that is feasible without any tolerance.

## Main definitions

* `Scalar.StillSegment`: A segment between equal numbers does not move.
* `Problem.AgreesOnDiscrete`: Two points give equal numbers to the discrete variables.

## Theorems

* `floatStillSegment`, `exactStillSegment`: The law for both kinds of scalars.
* `Problem.coord_anchorAt`: The anchor on the discrete variables.
* `LineSearch.find_interior`: Where the inner end of a search is.
* `Session.agreesOnDiscrete_primalSearch`: What is found has the candidate's integers.
* `Session.exists_primalSearch`: From a feasible anchor, a feasible point is found.
* `Session.primalSearch_spec`: What is found, and when something is.
-/

namespace OuterApprox

/-- An order of numbers in which a segment between equal numbers stays where it is. -/
class Scalar.StillSegment (α : Type) [Scalar α] : Prop extends Scalar.UnitInterval α where
  /-- No part of a difference with itself changes a number. -/
  still : ∀ {b t : α}, Scalar.isFinite b = true → 0.0 ≤ t → t ≤ 1.0 →
    (b + t * (b - b) == b) = true

/-- A finite number is equal to itself. -/
theorem Scalar.StillSegment.beq_self {α : Type} [Scalar α] [Scalar.StillSegment α] {b : α}
    (h : Scalar.isFinite b = true) : (b == b) = true := by
  have hsame := Scalar.StillSegment.still h
    (Scalar.NumberOrder.le_refl Scalar.UnitInterval.defined_zero) Scalar.UnitInterval.zero_le_one
  have hdefined := (Scalar.NumberOrder.defined_of_le ((Scalar.NumberOrder.beq_iff _ _).1 hsame).1).2
  have hle := Scalar.NumberOrder.le_refl hdefined
  exact (Scalar.NumberOrder.beq_iff b b).2 ⟨hle, hle⟩

namespace DoubleOrder

open Float.Model Float.Model.UnpackedFloat

/-- A finite double less itself is zero. -/
theorem unpack_sub_self {b : Float} (hb : b.isFinite = true) :
    (b - b).toModel.unpack = .zero .positive := by
  change stored (UnpackedFloat.sub Format.binary64 b.toModel.unpack b.toModel.unpack) = _
  change b.toModel.unpack.isFinite = true at hb
  generalize b.toModel.unpack = x at *
  cases x with
  | notANumber | infinity s => exact absurd hb Bool.false_ne_true
  | zero s => cases s <;> rfl
  | finite s m e h =>
      have hzero : UnpackedFloat.sub Format.binary64 (.finite s m e h) (.finite s m e h) =
          .zero .positive := by
        simp only [UnpackedFloat.sub, sub_self, UnpackedFloat.normalize]
        rfl
      rw [hzero, stored_zero]

/-- A finite double times zero is a zero. -/
theorem unpack_mul_zero {t z : Float} {s : Sign} (ht : t.isFinite = true)
    (hz : z.toModel.unpack = .zero s) : ∃ s', (t * z).toModel.unpack = .zero s' := by
  change ∃ s', stored (UnpackedFloat.mul Format.binary64 t.toModel.unpack z.toModel.unpack) =
    .zero s'
  change t.toModel.unpack.isFinite = true at ht
  rw [hz]
  generalize t.toModel.unpack = x at *
  cases x with
  | notANumber | infinity s => exact absurd ht Bool.false_ne_true
  | zero s' => exact ⟨s' * s, stored_zero _⟩
  | finite s' m e h => exact ⟨s' * s, stored_zero _⟩

/-- Adding a zero to a finite double does not change the number. -/
theorem add_zero_beq {b z : Float} {s : Sign} (hb : b.isFinite = true)
    (hz : z.toModel.unpack = .zero s) : (b + z == b) = true := by
  have hin := inFormat_unpack b.toModel
  change b.toModel.unpack.isFinite = true at hb
  rw [beq_iff_position]
  change (stored (UnpackedFloat.add Format.binary64 b.toModel.unpack z.toModel.unpack)).isNaN =
    false ∧ b.toModel.unpack.isNaN = false ∧ units (stored (UnpackedFloat.add Format.binary64
      b.toModel.unpack z.toModel.unpack)) = units b.toModel.unpack
  rw [hz]
  generalize b.toModel.unpack = x at *
  -- A zero keeps a finite number, and another zero up to its sign.
  cases x with
  | notANumber | infinity s => exact absurd hb Bool.false_ne_true
  | zero s' => cases s' <;> cases s <;> exact ⟨rfl, rfl, rfl⟩
  | finite s' m e h =>
      rw [show UnpackedFloat.add Format.binary64 (.finite s' m e h) (.zero s) =
        .finite s' m e h from rfl, stored_of_inFormat hin]
      exact ⟨rfl, rfl, rfl⟩

/-- A double between zero and one is finite. -/
theorem isFinite_of_le_one {t : Float} (hzero : 0.0 ≤ t) (hone : t ≤ 1.0) :
    t.isFinite = true := by
  by_contra hfinite
  rcases cases_of_not_finite (Bool.eq_false_iff.2 hfinite) with rfl | rfl | hnan
  · exact absurd hone (by decide)
  · exact absurd hzero (by decide)
  · have hnumber := ((le_iff_position _ _).1 hone).1
    rw [hnan] at hnumber
    exact nomatch hnumber

end DoubleOrder

open DoubleOrder in
instance floatStillSegment : Scalar.StillSegment Float where
  still hb hzero hone := by
    obtain ⟨s, hs⟩ := unpack_mul_zero (isFinite_of_le_one hzero hone) (unpack_sub_self hb)
    exact add_zero_beq hb hs

/-- In exact arithmetic a coordinate on the segment is one between those of the ends. -/
theorem Exact.along_finite (a b t : ℚ) :
    finite a + finite t * (finite b - finite a) = finite (a + t * (b - a)) := by
  rw [finite_sub, finite_mul, finite_add]

instance exactStillSegment : Scalar.StillSegment Exact where
  still {b t} hb hzero hone := by
    rw [Exact.zero_eq] at hzero
    rw [Exact.one_eq] at hone
    rw [Exact.eq_finite hb, Exact.eq_finite_of_le hzero hone, Exact.along_finite, sub_self,
      mul_zero, add_zero, Scalar.NumberOrder.beq_iff, Exact.finite_le]
    exact ⟨le_rfl, le_rfl⟩

/-! ## The inner end -/

namespace Problem

variable {α : Type} {p : Problem α} {a b : Point α} {i : Nat}

theorem length_anchorAt (p : Problem α) (a b : Point α) : (p.anchorAt a b).length = a.length :=
  List.length_mapIdx

theorem isDiscrete_of_mem_discreteIndices (h : i ∈ p.discreteIndices) :
    (p.vars[i]?).any (·.domain.isDiscrete) = true := by
  simp only [discreteIndices, indicesWhere, List.mem_map, List.mem_filter] at h
  obtain ⟨⟨v, j⟩, ⟨hmem, hdiscrete⟩, rfl⟩ := h
  rw [List.mem_zipIdx_iff_getElem?.1 hmem, Option.any_some]
  exact hdiscrete

variable [Scalar α]

/-- On the discrete variables the anchor is the candidate. -/
theorem coord_anchorAt (h : i ∈ p.discreteIndices) (ha : i < a.length) (hb : i < b.length) :
    (p.anchorAt a b).coord i = b.coord i := by
  rw [Point.coord, anchorAt, List.getElem?_mapIdx, List.getElem?_eq_getElem ha, Option.map_some,
    if_pos (isDiscrete_of_mem_discreteIndices h), Option.getD_some, Point.coord,
    List.getElem?_eq_getElem hb, Option.getD_some, Option.getD_some]

/-- Two points give equal numbers to the discrete variables. -/
def AgreesOnDiscrete (p : Problem α) (x y : Point α) : Prop :=
  ∀ i ∈ p.discreteIndices, (x.coord i == y.coord i) = true

end Problem

namespace LineSearch

variable {α : Type} [Scalar α] {p : Problem α} {interior exterior : Point α}
variable {stop : Stopping α} {indices : List Nat} {wantWorst : Bool} {r : Result α}

/-- The inner end of a search is the inner point, or a point of the segment. -/
theorem find_interior [Scalar.UnitInterval α]
    (hr : find p interior exterior stop indices wantWorst = .ok r) :
    r.interior = interior ∨
      ∃ t : α, 0.0 ≤ t ∧ t ≤ 1.0 ∧ r.interior = Point.between interior exterior t := by
  obtain ⟨-, -, first, rest, -, ⟨hinner, -⟩ | hcrossed⟩ := find_cases hr
  · exact .inl hinner
  · have hb := between_crossing hcrossed.outside stop
    refine .inr ⟨r.lower, ?_, ?_, hcrossed.innerEnd⟩
    · exact hcrossed.lower ▸ hb.nonneg
    · exact hcrossed.lower ▸
        Scalar.NumberOrder.le_trans (Scalar.NumberOrder.le_of_lt hb.order) hb.atMost

/-- Every point between the anchor and the candidate has the integers of the candidate. -/
theorem agreesOnDiscrete_interior [Scalar.StillSegment α] {a b : Point α}
    (hb : ∀ v ∈ b, Scalar.isFinite v = true)
    (hr : find p (p.anchorAt a b) b stop indices wantWorst = .ok r) :
    p.AgreesOnDiscrete r.interior b := by
  obtain ⟨hanchor, houter, -⟩ := find_onSegment hr
  intro i hi
  have hlt := Problem.lt_dimension_of_mem_discreteIndices hi
  have hcoord : (p.anchorAt a b).coord i = b.coord i := by
    rw [Problem.length_anchorAt] at hanchor
    exact Problem.coord_anchorAt hi (hanchor ▸ hlt) (houter ▸ hlt)
  have hfinite : Scalar.isFinite (b.coord i) = true := by
    rw [Point.coord, List.getElem?_eq_getElem (houter ▸ hlt), Option.getD_some]
    exact hb _ (List.getElem_mem _)
  -- What is found is the anchor or a point between, and there the coordinate stands still.
  rcases find_interior hr with hsame | ⟨t, hzero, hone, hbetween⟩
  · rw [hsame, hcoord]
    exact Scalar.StillSegment.beq_self hfinite
  · rw [hbetween, Point.coord_between (hanchor.trans houter.symm) t (hanchor ▸ hlt), hcoord]
    exact Scalar.StillSegment.still hfinite hzero hone

end LineSearch

/-! ## Feasible anchors -/

namespace Exact

/-- What equals a number is that number. -/
theorem eq_of_beq_finite {a : Exact} {q : ℚ} (h : (a == finite q) = true) : a = finite q := by
  obtain ⟨hle, hge⟩ := (Scalar.NumberOrder.beq_iff _ _).1 h
  have ha := eq_finite_of_le hge hle
  rw [ha, finite_le] at hle hge
  rw [ha, le_antisymm hle hge]

/-- An integer is nearest to itself. -/
theorem nearest_intCast (z : ℤ) : nearest z = z := by
  have hfloor (w : ℤ) : ((w : ℚ) + 1 / 2).floor = w := by
    change ⌊(w : ℚ) + 1 / 2⌋ = w
    rw [Int.floor_intCast_add]
    norm_num
  unfold nearest
  split
  · rw [← Int.cast_neg, hfloor, neg_neg]
  · exact hfloor z

end Exact

namespace Point

variable {a b : Point Exact}

/-- A segment starts at its first end. -/
theorem between_zero (ha : a.Finite) (hb : b.Finite) (h : a.length = b.length) :
    between a b 0.0 = a := by
  refine List.ext_getElem (length_between a b 0.0 h) fun i hi hi' => ?_
  have ha := ha _ (List.getElem_mem hi')
  have hb := hb _ (List.getElem_mem (h ▸ hi'))
  simp only [between, List.getElem_zipWith]
  rw [Exact.eq_finite ha, Exact.eq_finite hb, Exact.zero_eq, Exact.along_finite, zero_mul,
    add_zero]

/-- A segment ends at its second end. -/
theorem between_one (ha : a.Finite) (hb : b.Finite) (h : a.length = b.length) :
    between a b 1.0 = b := by
  refine List.ext_getElem ((length_between a b 1.0 h).trans h) fun i hi hi' => ?_
  have ha := ha _ (List.getElem_mem (h ▸ hi'))
  have hb := hb _ (List.getElem_mem hi')
  simp only [between, List.getElem_zipWith]
  rw [Exact.eq_finite ha, Exact.eq_finite hb, Exact.one_eq, Exact.along_finite, one_mul,
    add_sub_cancel]

end Point

namespace Problem

variable {p : Problem Exact} {x y : Point Exact}

/-- Where the discrete variables have integers, a point with equal numbers is integral within
    every tolerance that is not negative. -/
theorem isIntegerFeasible_of_agrees {tolerance : Exact} (htolerance : 0.0 ≤ tolerance)
    (hlength : x.length = p.dimension) (hagrees : p.AgreesOnDiscrete x y)
    (hinteger : ∀ i ∈ p.discreteIndices, ∃ z : ℤ, y.coord i = .finite z) :
    p.isIntegerFeasible x tolerance = true := by
  refine List.all_eq_true.2 fun i hi => ?_
  obtain ⟨z, hz⟩ := hinteger i hi
  have hcoord := Exact.eq_of_beq_finite (hz ▸ hagrees i hi)
  have hlt := List.getElem?_eq_getElem (hlength ▸ lt_dimension_of_mem_discreteIndices hi)
  rw [Point.coord, hlt, Option.getD_some] at hcoord
  rw [hlt, hcoord]
  -- A whole number is its own nearest integer, at distance zero.
  have hround : Scalar.round (Exact.finite (z : ℚ)) = .finite z :=
    congrArg (fun n : ℤ => Exact.finite n) (Exact.nearest_intCast z)
  have hdistance : Scalar.abs (Exact.finite (z : ℚ) - Scalar.round (Exact.finite (z : ℚ))) =
      (0.0 : Exact) := by
    rw [hround, Exact.finite_sub, sub_self, Exact.zero_eq]
    rfl
  exact decide_eq_true (hdistance ▸ htolerance)

theorem fulfilledAt_constraintIndices {α : Type} [Scalar α] {p : Problem α} {x : Point α} :
    p.FulfilledAt x p.constraintIndices ↔ ∀ c ∈ p.constraints, c.residual x ≤ 0.0 := by
  constructor
  · intro hall c hc
    obtain ⟨i, hi⟩ := List.mem_iff_getElem?.1 hc
    exact hall i (List.mem_range.2 (List.getElem?_eq_some_iff.1 hi).1) c hi
  · exact fun hall i _ c hc => hall c (List.mem_of_getElem? hc)

/-- With finite right-hand sides, the sign of the largest value is whether all constraints
    hold. -/
theorem maxValue?_nonpos_iff {α : Type} [Scalar α] [Scalar.SignedQuotient α] {p : Problem α}
    {x : Point α} (hupper : ∀ c ∈ p.constraints, Scalar.isFinite c.upper = true)
    {top : ConstraintValue α} (htop : p.maxValue? x p.constraintIndices = some top) :
    (top.normalized ≤ 0.0 ↔ ∀ c ∈ p.constraints, c.residual x ≤ 0.0) ∧
      (0.0 < top.normalized ↔ ¬ ∀ c ∈ p.constraints, c.residual x ≤ 0.0) := by
  have hne : p.constraintIndices ≠ [] := by
    intro hnil
    rw [hnil] at htop
    exact nomatch htop
  -- With finite right-hand sides no value is lost.
  have hsees : ∀ i ∈ p.constraintIndices, p.blindAt x i = false := by
    intro i _
    rw [blindAt]
    cases hc : p.constraints[i]? with
    | none => rfl
    | some c =>
        rw [Option.any_some]
        exact c.blind_eq_false x (hupper c (List.mem_of_getElem? hc))
  obtain ⟨_, hsame, -, hpos, hnonpos⟩ :=
    shows_of_sees (x := x) hne (fun i hi => List.mem_range.1 hi) hsees
  obtain rfl := Option.some.inj (htop.symm.trans hsame)
  rw [← fulfilledAt_constraintIndices]
  exact ⟨hnonpos, hpos⟩

end Problem

/-- The values along a segment tell where all constraints hold. -/
theorem LineSearch.nonpos_iff_of_profile? {α : Type} [Scalar α] [Scalar.SignedQuotient α]
    {p : Problem α} {a b : Point α} {t v : α}
    (hupper : ∀ c ∈ p.constraints, Scalar.isFinite c.upper = true)
    (hv : profile? p a b p.constraintIndices t = some v) :
    v ≤ 0.0 ↔ ∀ c ∈ p.constraints, c.residual (Point.between a b t) ≤ 0.0 := by
  obtain ⟨top, htop, rfl⟩ := Option.map_eq_some_iff.1 hv
  exact (Problem.maxValue?_nonpos_iff hupper htop).1

namespace Session

/-- From an anchor that satisfies all constraints, a point that does is found. -/
theorem exists_primalSearch {s : Session Exact} {interior c : Candidate Exact}
    (hvalid : s.settings.validate = .ok ())
    (hinterior : interior.point.length = s.problem.dimension) (hinterior' : interior.point.Finite)
    (hc : c.point.length = s.problem.dimension) (hc' : c.point.Finite)
    (hdeviation : c.deviation = s.problem.maxDeviation c.point)
    (hupper : ∀ k ∈ s.problem.constraints, Scalar.isFinite k.upper = true)
    (houtside : ∃ k ∈ s.problem.constraints, ¬ k.residual c.point ≤ 0.0)
    (hinteger : ∀ i ∈ s.problem.discreteIndices, ∃ z : ℤ, c.point.coord i = .finite z)
    (hfree : ∃ v ∈ s.problem.vars, v.domain.isDiscrete = false)
    (hanchor : ∀ k ∈ s.problem.constraints,
      k.residual (s.problem.anchorAt interior.point c.point) ≤ 0.0) :
    ∃ found, s.primalSearch interior c = some found ∧
      ∀ k ∈ s.problem.constraints, k.residual found.point ≤ 0.0 := by
  have hfinite := hinterior'.anchorAt hc' s.problem
  have hlength := (s.problem.length_anchorAt interior.point c.point).trans hinterior
  have hsame := hlength.trans hc.symm
  obtain ⟨k, hk, hviolated⟩ := houtside
  obtain ⟨d, hd⟩ : ∃ d, s.problem.maxDeviation c.point = some d := by
    refine Option.ne_none_iff_exists'.1 fun hnone => ?_
    rw [Problem.maxDeviation_eq_none_iff.1 hnone] at hk
    exact absurd hk List.not_mem_nil
  -- There are constraints, so the search gives a result.
  obtain ⟨top, htop, rfl⟩ := Option.map_eq_some_iff.1 hd
  obtain ⟨r, hfind⟩ : ∃ r, LineSearch.find s.problem
      (s.problem.anchorAt interior.point c.point) c.point
      ⟨s.settings.boundary.maxIterations, s.settings.boundary.widthTolerance, 0.0⟩
      s.problem.constraintIndices false = .ok r := by
    cases hlist : s.problem.constraintsAt s.problem.constraintIndices with
    | nil =>
        rw [Problem.maxValue?, Problem.valuesAt, hlist] at htop
        cases htop
    | cons first rest =>
        exact ⟨_, LineSearch.find_eq_ok_iff.2 ⟨hlength, hc, first, rest, hlist, rfl⟩⟩
  -- The search is one along the largest residual on the segment.
  obtain ⟨h, hprofile, hstraddles⟩ := LineSearch.find_straddles hfind
  have hsign (t : Exact) := LineSearch.nonpos_iff_of_profile? hupper (hprofile t)
  -- In exact arithmetic the segment ends at the candidate and starts at the anchor.
  have houter : ¬ h 1.0 ≤ 0.0 := by
    rw [hsign, Point.between_one hfinite hc' hsame]
    exact fun hall => hviolated (hall k hk)
  have hinner : h 0.0 ≤ 0.0 := by
    rw [hsign, Point.between_zero hfinite hc' hsame]
    exact hanchor
  have hends := hstraddles houter
  have hfeasible : ∀ k ∈ s.problem.constraints, k.residual r.interior ≤ 0.0 := by
    rw [hends.innerEnd, ← hsign]
    exact hends.feasible hinner
  refine ⟨_, primalSearch_eq_some_iff.2 ⟨?_, ?_, r, hfind, ?_, fun d hd hlarge => ?_, rfl⟩,
    hfeasible⟩
  · rw [Candidate.deviationValue, hdeviation, hd]
    exact (Problem.maxValue?_nonpos_iff hupper htop).2.2 fun hall => hviolated (hall k hk)
  · obtain ⟨v, hv, hdomain⟩ := hfree
    exact List.all_eq_false.2 ⟨v, hv, by rw [hdomain]; exact Bool.false_ne_true⟩
  · obtain ⟨hinner, houter, hsegment⟩ := LineSearch.find_onSegment hfind
    refine Problem.isIntegerFeasible_of_agrees (by decide +kernel) ?_
      (LineSearch.agreesOnDiscrete_interior hc' hfind) hinteger
    rw [hsegment.length_interior (hinner.trans houter.symm), hinner]
  · -- What is found is within every tolerance that is not negative.
    obtain ⟨found, hfound, rfl⟩ := Option.map_eq_some_iff.1 hd
    have hnonpos := (Problem.maxValue?_nonpos_iff hupper hfound).1.2 hfeasible
    have htolerance := (Settings.of_validate hvalid).2.2
    exact ((Scalar.NumberOrder.lt_iff _ _).1 hlarge).2
      (Scalar.NumberOrder.le_trans hnonpos htolerance)

/-- What the primal line search finds, and when it finds something. A point that is found agrees
    with the candidate on the discrete variables, is integral within the tolerance for that, has
    its own objective and deviation, and does not violate a constraint by more than the
    tolerance. In exact arithmetic, where right-hand sides are numbers, a candidate outside that
    is integral leads to a point that satisfies all constraints, if some variable can move and
    the interior point with the integers of the candidate satisfies them. -/
theorem primalSearch_spec :
    (∀ (α : Type) [Scalar α] [Scalar.StillSegment α] (s : Session α)
      (interior c found : Candidate α), (∀ v ∈ c.point, Scalar.isFinite v = true) →
      s.primalSearch interior c = some found →
        found.point.length = s.problem.dimension ∧
        s.problem.AgreesOnDiscrete found.point c.point ∧
        s.problem.isIntegerFeasible found.point integerTolerance = true ∧
        found.objective = s.problem.objectiveValue found.point ∧
        found.deviation = s.problem.maxDeviation found.point ∧
        ∀ d ∈ found.deviation, ¬ s.settings.termination.constraintTolerance < d.value) ∧
    (∀ (s : Session Exact) (interior c : Candidate Exact), s.settings.validate = .ok () →
      interior.point.length = s.problem.dimension → interior.point.Finite →
      c.point.length = s.problem.dimension → c.point.Finite →
      c.deviation = s.problem.maxDeviation c.point →
      (∀ k ∈ s.problem.constraints, Scalar.isFinite k.upper = true) →
      (∃ k ∈ s.problem.constraints, ¬ k.residual c.point ≤ 0.0) →
      (∀ i ∈ s.problem.discreteIndices, ∃ z : ℤ, c.point.coord i = .finite z) →
      (∃ v ∈ s.problem.vars, v.domain.isDiscrete = false) →
      (∀ k ∈ s.problem.constraints,
        k.residual (s.problem.anchorAt interior.point c.point) ≤ 0.0) →
      ∃ found, s.primalSearch interior c = some found ∧
        ∀ k ∈ s.problem.constraints, k.residual found.point ≤ 0.0) := by
  constructor
  -- What is found went through every test, which holds for doubles too.
  · intro α _ _ s interior c found hc hfound
    obtain ⟨-, -, r, hfind, hinteger, hwithin, rfl⟩ := primalSearch_eq_some_iff.1 hfound
    obtain ⟨hanchor, houter, hsegment⟩ := LineSearch.find_onSegment hfind
    have hlength := (hsegment.length_interior (hanchor.trans houter.symm)).trans hanchor
    exact ⟨hlength, LineSearch.agreesOnDiscrete_interior hc hfind, hinteger, rfl, rfl, hwithin⟩
  · intro s interior c hvalid hinterior hinterior' hc hc' hdeviation hupper houtside hinteger
      hfree hanchor
    exact exists_primalSearch hvalid hinterior hinterior' hc hc' hdeviation hupper houtside
      hinteger hfree hanchor

end Session

/-! ## A sum that is too large -/

namespace LargeSum

/-- A continuous and an integer variable with a bounded sum. -/
def problem : Problem Exact :=
  (((Problem.ofObjective (.affine ⟨[(0, 1.0)], 0.0⟩ .maximize)).addVariable
    "x" (-5.0) 5.0 .real).addVariable "n" 0.0 5.0 .integer).addConstraint
      ⟨"sum", Affine.toFunction ⟨[(0, 1.0), (1, 1.0)], 0.0⟩, 3.0, true⟩

/-- A session for it. -/
def session : Session Exact where
  problem := problem
  settings := .standard
  bounds := .fresh .maximize Settings.standard.termination
  iterations := .empty
  statistics := {}
  clock := .still ⟨0⟩
  journal := #[]

/-- A point inside. -/
def inner : Candidate Exact := problem.candidate [0.0, 0.0] 0

/-- A point outside. -/
def outer : Candidate Exact := problem.candidate [4.0, 2.0] 1

/-- A feasible point is found that has the integer of the one outside. -/
theorem primalSearch_spec_sum :
    ∃ found, session.primalSearch inner outer = some found ∧
      (∀ k ∈ problem.constraints, k.residual found.point ≤ 0.0) ∧
      (found.point.coord 1 == (2.0 : Exact)) = true ∧
      problem.isIntegerFeasible found.point 1e-6 = true := by
  have hvalid : session.settings.validate = .ok () :=
    (Settings.validate_eq_ok_iff _).2 (List.all_eq_true.1 (by decide +kernel))
  have hinner : inner.point.Finite := by
    unfold Point.Finite
    decide +kernel
  have houter : outer.point.Finite := by
    unfold Point.Finite
    decide +kernel
  have hdiscrete : session.problem.discreteIndices = [1] := rfl
  have hinteger : ∀ i ∈ session.problem.discreteIndices,
      ∃ z : ℤ, outer.point.coord i = .finite z := by
    intro i hi
    rw [hdiscrete, List.mem_singleton] at hi
    exact ⟨2, hi ▸ by decide +kernel⟩
  -- It is found by the second part, and its coordinate is known by the first.
  obtain ⟨found, hfound, hfeasible⟩ := Session.primalSearch_spec.2 session inner outer hvalid
    rfl hinner rfl houter rfl (by decide +kernel) (by decide +kernel) hinteger
    ⟨_, List.mem_cons_self, rfl⟩ (by decide +kernel)
  obtain ⟨-, hagrees, hintegral, -⟩ :=
    Session.primalSearch_spec.1 Exact session inner outer found houter hfound
  exact ⟨found, hfound, hfeasible, hagrees 1 (hdiscrete ▸ List.mem_singleton_self 1), hintegral⟩

end LargeSum

end OuterApprox
