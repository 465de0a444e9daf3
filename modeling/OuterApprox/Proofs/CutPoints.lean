import OuterApprox.Callback.Handle
import OuterApprox.Proofs.Scaling
import OuterApprox.Proofs.Violation

/-!
# Where cuts are taken

What is asked for at a single candidate, over scalars that may round. Both strategies
take all their hyperplanes at one point: the candidate itself, or the outer end of a line
search from the interior point. That end is infeasible because the search never moves its
outer end to a parameter that is not. So it does not matter how a strategy came to its
point. If the candidate violates a constraint, the point does, and some constraint that is
violated there is asked for.

The test for a violation, the test that drops a constraint, and the threshold are three
different comparisons, and it is the worst constraint that passes them all. It is positive,
because it is a number and not at most zero; it reaches its own threshold, because the
selection factor is at most one; and it is not below zero. None of this needs a sum or a
product to be exact.

## Main definitions

* `Session.TakenAt`: The points at which a strategy may cut off a candidate.
* `Session.projected?`: The one that supporting hyperplanes are taken at.

## Theorems

* `Settings.of_validate`: What validation says of the settings that requests depend on.
* `Problem.defined_valuesAt`: Normalized values are numbers.
* `Problem.mostDeviating_spec`: The constraints worth linearizing at a point outside.
* `Session.exists_violated_request`: One of them is asked for.
* `Session.hyperplanes_select`: A strategy takes its hyperplanes at one point.
* `Session.exists_mem_select`: A candidate outside gets a request.
* `Session.accepts_eq_false_iff`, `Session.outside_or_below`: Why a candidate is not accepted.
* `Session.lifted_mem_epigraphRequests`: A candidate below the epigraph gets a request.
-/

namespace OuterApprox

variable {α : Type} [Scalar α]

/-- What validation says of the settings that requests depend on. -/
theorem Settings.of_validate {s : Settings α} (h : s.validate = .ok ()) :
    (0.0 < s.cuttingPlane.selectionFactor ∧ s.cuttingPlane.selectionFactor ≤ 1.0) ∧
      0 < s.dual.maxHyperplanes ∧ 0.0 ≤ s.termination.constraintTolerance := by
  have hall := (validate_eq_ok_iff s).1 h
  simp only [requirements, List.forall_mem_cons, Bool.and_eq_true, decide_eq_true_eq,
    bne_iff_ne] at hall
  exact ⟨hall.1, Nat.pos_of_ne_zero hall.2.1, hall.2.2.2.2.2.2.2.2.2.1⟩

/-! ## Normalized values -/

/-- The scale of a finite right-hand side is a positive number. -/
theorem Scalar.ScaledOrder.scale_spec [Scalar.ScaledOrder α] {u : α}
    (h : Scalar.isFinite u = true) :
    0.0 < Scalar.max (Scalar.abs u) 1.0 ∧
      Scalar.isFinite (Scalar.max (Scalar.abs u) 1.0) = true := by
  have hone : (0.0 : α) < 1.0 := Scalar.UnitInterval.zero_lt_one
  unfold Scalar.max
  split
  next hundefined =>
    rw [Scalar.UnitInterval.defined_one] at hundefined
    exact nomatch hundefined
  · split
    next hlarge =>
      exact ⟨Scalar.NumberOrder.lt_trans hone hlarge, Scalar.ScaledOrder.isFinite_abs h⟩
    · exact ⟨hone, Scalar.ScaledOrder.isFinite_one⟩

namespace Constraint

variable [Scalar.ScaledOrder α] {c : Constraint α}

theorem scale_spec (h : Scalar.isFinite c.upper = true) :
    0.0 < c.scale ∧ Scalar.isFinite c.scale = true := Scalar.ScaledOrder.scale_spec h

/-- A normalized value is a number, even where the function has none. -/
theorem defined_normalized (h : Scalar.isFinite c.upper = true) (i : Nat) (x : Point α) :
    Scalar.isUndefined (c.valueAt i x).normalized = false := by
  have hscale := c.scale_spec h
  simp only [valueAt]
  split
  · exact Sense.defined_worst .minimize
  next hvalue =>
    exact Scalar.ScaledOrder.defined_div (Bool.eq_false_iff.2 hvalue) hscale.1 hscale.2

end Constraint

namespace Problem

variable {p : Problem α} {x : Point α}

/-- The worst of the constraints that are looked at. -/
theorem maxValue?_eq_worst {indices : List Nat} {first : Nat × Constraint α}
    {rest : List (Nat × Constraint α)} (hlist : p.constraintsAt indices = first :: rest)
    (x : Point α) : p.maxValue? x indices = some (ConstraintValue.worst
      (first.2.valueAt first.1 x) (rest.map fun q => q.2.valueAt q.1 x)) := by
  rw [maxValue?, valuesAt, hlist]
  rfl

variable [Scalar.ScaledOrder α]

theorem defined_valuesAt (hupper : ∀ c ∈ p.constraints, Scalar.isFinite c.upper = true) :
    ∀ v ∈ p.valuesAt x p.constraintIndices, Scalar.isUndefined v.normalized = false := by
  intro v hv
  rcases mem_valuesAt_iff.1 hv with ⟨i, c, hc, rfl⟩
  exact Constraint.defined_normalized (hupper c (List.mem_of_getElem? hc)) i x

/-- Where the worst normalized value is not at most zero, its constraint is worth
    linearizing, and all that are have positive values. -/
theorem mostDeviating_spec {factor : α} (hfactor : 0.0 < factor ∧ factor ≤ 1.0)
    {top : ConstraintValue α} (htop : p.maxValue? x p.constraintIndices = some top)
    (hdefined : Scalar.isUndefined top.normalized = false) (hpos : ¬ top.normalized ≤ 0.0) :
    top.toDeviation ∈ p.mostDeviating x factor ∧
      ∀ d ∈ p.mostDeviating x factor, ∃ v ∈ p.valuesAt x p.constraintIndices,
        d = v.toDeviation ∧ 0.0 < v.normalized := by
  have hlarge : 0.0 < top.normalized :=
    Scalar.NumberOrder.lt_of_not_le hdefined Scalar.UnitInterval.defined_zero hpos
  -- A factor of at most one leaves the threshold within reach of the worst.
  have hthreshold : factor * top.normalized ≤ top.normalized :=
    Scalar.ScaledOrder.mul_le hfactor.1 hfactor.2 hlarge
  simp only [mostDeviating, htop, if_neg hpos, List.mem_mergeSort, List.mem_map,
    List.mem_filter, Bool.and_eq_true, decide_eq_true_eq]
  constructor
  · exact ⟨top, ⟨maxValue?_mem htop, hlarge, hthreshold⟩, rfl⟩
  · rintro d ⟨v, ⟨hv, hpositive, _⟩, rfl⟩
    exact ⟨v, hv, rfl, hpositive⟩

end Problem

/-! ## Requests at a point -/

namespace Session

/-- With room, a first deviation that is not strictly inside its constraint asks for
    a hyperplane. -/
theorem mem_requestsFor_cons (x : Point α) (source : CutSource) {room : Nat} (hroom : 0 < room)
    (d : Deviation α) (rest : List (Deviation α)) (hd : ¬ d.value < 0.0) :
    ⟨.constraint d.constraint, x, source⟩ ∈
      (requestsFor x source room (d :: rest)).hyperplanes := by
  cases room with
  | zero => exact absurd hroom (Nat.lt_irrefl 0)
  | succ room =>
      rw [requestsFor, if_neg hd]
      exact List.mem_append_left _ List.mem_cons_self

/-- At a point outside, some constraint that is violated there is asked for. -/
theorem exists_violated_request [Scalar.ScaledOrder α] {s : Session α} {x : Point α}
    (source : CutSource) {room : Nat} (hroom : 0 < room)
    (hfactor : 0.0 < s.settings.cuttingPlane.selectionFactor ∧
      s.settings.cuttingPlane.selectionFactor ≤ 1.0)
    (hupper : ∀ c ∈ s.problem.constraints, Scalar.isFinite c.upper = true)
    {top : ConstraintValue α}
    (htop : s.problem.maxValue? x s.problem.constraintIndices = some top)
    (hpos : ¬ top.normalized ≤ 0.0) :
    ∃ v ∈ s.problem.valuesAt x s.problem.constraintIndices, 0.0 < v.normalized ∧
      ⟨.constraint v.constraint, x, source⟩ ∈ (s.requestsAt x source room).hyperplanes := by
  have hdefined := Problem.defined_valuesAt hupper top (Problem.maxValue?_mem htop)
  rcases Problem.mostDeviating_spec hfactor htop hdefined hpos with ⟨hmem, hall⟩
  rw [requestsAt]
  -- The first of the list is asked for, whatever the room, as long as there is some.
  cases hlist : s.problem.mostDeviating x s.settings.cuttingPlane.selectionFactor with
  | nil => exact absurd (hlist ▸ hmem) List.not_mem_nil
  | cons d rest =>
      rcases hall d (hlist ▸ List.mem_cons_self) with ⟨v, hv, rfl, hpositive⟩
      have hnot : ¬ v.normalized < 0.0 := fun hneg =>
        ((Scalar.NumberOrder.lt_iff _ _).1 hpositive).2 (Scalar.NumberOrder.le_of_lt hneg)
      exact ⟨v, hv, hpositive, mem_requestsFor_cons x source hroom v.toDeviation rest hnot⟩

/-! ## Requests at a candidate -/

/-- The points at which a strategy may cut off a candidate: the candidate itself, or the
    outer end of a line search across the boundary from the interior point. -/
inductive TakenAt (s : Session α) (interior : Option (Candidate α)) (c : Candidate α) :
    Point α → Prop
  /-- At the candidate itself. -/
  | here : TakenAt s interior c c.point
  /-- At the outer end of a line search that crosses the boundary of the listed constraints. -/
  | beyond (z : Candidate α) (first : Nat × Constraint α) (rest : List (Nat × Constraint α))
      (stop : LineSearch.Stopping α) (r : LineSearch.Result α) (hz : z ∈ interior)
      (hlist : s.problem.constraintsAt s.problem.constraintIndices = first :: rest)
      (hcrossed : LineSearch.Crossed (LineSearch.level first rest z.point c.point) stop
        z.point c.point r) :
      TakenAt s interior c r.exterior

variable {s : Session α} {interior : Option (Candidate α)} {c : Candidate α}

/-- Where a candidate is projected to from the interior point, if it is outside and the line
    search does not fail. -/
def projected? (s : Session α) (z c : Candidate α) : Option (Point α) :=
  if 0.0 < c.deviationValue then
    let stop : LineSearch.Stopping α :=
      { maxIterations := s.settings.boundary.maxIterations
        width := s.settings.boundary.widthTolerance
        deviation := s.settings.boundary.deviationTolerance }
    match LineSearch.find s.problem z.point c.point stop s.problem.constraintIndices false with
    | .ok r => some r.exterior
    | .error _ => none
  else none

/-- Supporting hyperplanes are taken at the projected candidate, and at the candidate as it is
    if it was not projected. -/
theorem hyperplanes_supportingAt (s : Session α) (z c : Candidate α) (milp : Bool)
    (position room : Nat) :
    (s.supportingAt LineSearch.find z milp position c room).hyperplanes =
      (s.requestsAt ((s.projected? z c).getD c.point)
        (.ofPosition position milp (s.projected? z c).isSome) room).hyperplanes := by
  simp only [supportingAt, projected?]
  -- Both look at the same search, and a failed one counts as none.
  generalize LineSearch.find s.problem z.point c.point ⟨s.settings.boundary.maxIterations,
    s.settings.boundary.widthTolerance, s.settings.boundary.deviationTolerance⟩
    s.problem.constraintIndices false = found
  split
  · cases found <;> rfl
  · rfl

theorem takenAt_projected {z : Candidate α} (hz : z ∈ interior) :
    s.TakenAt interior c ((s.projected? z c).getD c.point) := by
  simp only [projected?]
  split
  · split
    next r hfind =>
      rcases LineSearch.find_cases hfind with ⟨_, _, first, rest, hlist, hends | hcrossed⟩
      · rw [Option.getD_some, hends.2]
        exact .here
      · exact .beyond z first rest _ r hz hlist hcrossed
    · exact .here
  · exact .here

/-- What is asked for at the only candidate is asked for. -/
theorem hyperplanes_visitAll_singleton {α : Type} (visit : Nat → Candidate α → Nat → Requests α)
    (room : Nat) (c : Candidate α) :
    (visitAll visit 0 room [c]).hyperplanes = (visit 0 c room).hyperplanes := by
  simp only [visitAll]
  split
  · rfl
  · exact List.append_nil _

/-- Either strategy takes all its hyperplanes for a candidate at one point. -/
theorem hyperplanes_select (strategy : CutStrategy) (milp : Bool) :
    ∃ w source, s.TakenAt interior c w ∧
      (s.select strategy interior [c] milp).hyperplanes =
        (s.requestsAt w source s.settings.dual.maxHyperplanes).hyperplanes := by
  have hplanes : (s.cuttingPlanes [c] milp).hyperplanes = (s.requestsAt c.point
      (.ofPosition 0 milp false) s.settings.dual.maxHyperplanes).hyperplanes := by
    rw [cuttingPlanes, hyperplanes_visitAll_singleton]
  cases strategy with
  | cuttingPlane => exact ⟨c.point, _, .here, hplanes⟩
  | supportingHyperplane =>
      simp only [select, supportingHyperplanes]
      cases interior with
      | none => exact ⟨c.point, _, .here, hplanes⟩
      | some z =>
          rw [hyperplanes_visitAll_singleton, hyperplanes_supportingAt]
          exact ⟨_, _, takenAt_projected rfl, rfl⟩

section Outside

variable [Scalar.ScaledOrder α]

/-- The point at which a candidate outside is cut off is outside as well. -/
theorem TakenAt.exists_worst {w : Point α} (h : s.TakenAt interior c w)
    {top : ConstraintValue α}
    (htop : s.problem.maxValue? c.point s.problem.constraintIndices = some top)
    (hpos : ¬ top.normalized ≤ 0.0) :
    ∃ top', s.problem.maxValue? w s.problem.constraintIndices = some top' ∧
      ¬ top'.normalized ≤ 0.0 := by
  cases h with
  | here => exact ⟨top, htop, hpos⟩
  | beyond z first rest stop r _ hlist hcrossed =>
      -- A search never moves its outer end to a feasible parameter.
      have houtside := (LineSearch.between_crossing hcrossed.outside stop).outside
      rw [← hcrossed.upper] at houtside
      rw [hcrossed.outerEnd]
      exact ⟨_, Problem.maxValue?_eq_worst hlist _, houtside⟩

/-- For a candidate outside, some constraint is asked for that is violated where the cut is
    taken. -/
theorem exists_mem_select (hvalid : s.settings.validate = .ok ())
    (hupper : ∀ c ∈ s.problem.constraints, Scalar.isFinite c.upper = true)
    (strategy : CutStrategy) (interior : Option (Candidate α)) (milp : Bool)
    {top : ConstraintValue α}
    (htop : s.problem.maxValue? c.point s.problem.constraintIndices = some top)
    (hpos : ¬ top.normalized ≤ 0.0) :
    ∃ w source, s.TakenAt interior c w ∧
      ∃ v ∈ s.problem.valuesAt w s.problem.constraintIndices, 0.0 < v.normalized ∧
        ⟨.constraint v.constraint, w, source⟩ ∈
          (s.select strategy interior [c] milp).hyperplanes := by
  rcases Settings.of_validate hvalid with ⟨hfactor, hroom, _⟩
  rcases s.hyperplanes_select strategy milp with ⟨w, source, htaken, hrequests⟩
  rcases htaken.exists_worst htop hpos with ⟨top', htop', hpos'⟩
  rw [hrequests]
  exact ⟨w, source, htaken, exists_violated_request source hroom hfactor hupper htop' hpos'⟩

end Outside

/-- A candidate is not accepted if it violates a constraint, or lies below the epigraph of an
    objective that needs cuts. -/
theorem accepts_eq_false_iff : s.accepts c = false ↔
    (∃ d, c.deviation = some d ∧ ¬ d.value ≤ s.settings.termination.constraintTolerance) ∨
      (s.objectiveNeedsCuts = true ∧ ∃ residual, s.problem.epigraphValue c.point = some residual ∧
        ¬ residual ≤ s.settings.termination.constraintTolerance) := by
  simp only [accepts, Bool.and_eq_false_iff, Bool.or_eq_false_iff, Bool.not_eq_false']
  refine or_congr ?_ (and_congr_right fun _ => ?_)
  · simp only [Candidate.isFeasible]
    cases c.deviation with
    | none => simp only [reduceCtorEq, false_and, exists_false]
    | some d =>
        simp only [decide_eq_false_iff_not, Option.some.injEq, exists_eq_left']
  · cases s.problem.epigraphValue c.point with
    | none => simp only [reduceCtorEq, false_and, exists_false]
    | some residual =>
        simp only [decide_eq_false_iff_not, Option.some.injEq, exists_eq_left']

section Rejected

variable [Scalar.NumberOrder α]

/-- So it is outside the constraints, or below the epigraph by more than the tolerance. -/
theorem outside_or_below {x : Point α} (hvalid : s.settings.validate = .ok ()) {number : Nat}
    (hrejected : s.accepts (s.problem.candidate x number) = false) :
    (∃ top, s.problem.maxValue? x s.problem.constraintIndices = some top ∧
        ¬ top.normalized ≤ 0.0) ∨
      (s.objectiveNeedsCuts = true ∧ ∃ residual, s.problem.epigraphValue x = some residual ∧
        ¬ residual ≤ s.settings.termination.constraintTolerance) := by
  refine (accepts_eq_false_iff.1 hrejected).imp_left ?_
  rintro ⟨d, hd, hlarge⟩
  simp only [Problem.candidate, Problem.maxDeviation, Option.map_eq_some_iff] at hd
  rcases hd with ⟨top, htop, rfl⟩
  -- What exceeds a tolerance is not at most zero.
  exact ⟨top, htop, fun hle =>
    hlarge (Scalar.NumberOrder.le_trans hle (Settings.of_validate hvalid).2.2)⟩

/-- A candidate below the epigraph is lifted and asked for. -/
theorem lifted_mem_epigraphRequests (hvalid : s.settings.validate = .ok ())
    (hneeds : s.objectiveNeedsCuts = true) {aux : Nat} (haux : s.problem.auxiliary = some aux)
    {residual : α} (hresidual : s.problem.epigraphValue c.point = some residual)
    (hdefined : Scalar.isUndefined residual = false)
    (hbelow : ¬ residual ≤ s.settings.termination.constraintTolerance) :
    0.0 < residual ∧
      ⟨.objective, c.point.setCoord aux (s.problem.objectiveValue c.point), .epigraph⟩ ∈
        (s.epigraphRequests [c]).hyperplanes := by
  rcases Settings.of_validate hvalid with ⟨_, hroom, htolerance⟩
  have hlarge := Scalar.NumberOrder.lt_of_not_le hdefined
    ((Scalar.NumberOrder.le_iff _ _).1 htolerance).2.1 hbelow
  refine ⟨Scalar.NumberOrder.lt_of_le_of_lt htolerance hlarge, ?_⟩
  simp only [epigraphRequests, hneeds, haux, Bool.not_true, Bool.false_eq_true, if_false,
    List.filterMap_cons, epigraphRequest?, hresidual, if_pos hlarge, List.filterMap_nil]
  -- One request is within any cap.
  rw [List.take_of_length_le (by exact hroom)]
  exact List.mem_singleton.2 rfl

end Rejected

end Session

end OuterApprox
