import OuterApprox.Proofs.Convexity
import OuterApprox.Proofs.CutMirror
import OuterApprox.Proofs.NumberOrder

/-!
# The interior point gets deeper

What the cut store keeps as an interior point is one at every moment in the life of a solver:
it has one coordinate per variable, the deviation recorded with it is its own, and that is
negative if there are constraints at all. The line searches that start from it rely on this in
every event. Besides, a point that takes over is always deeper than the one before. Replacing
the point compares recorded deviations, so this holds in floating-point arithmetic too. Drawing
it halfway evaluates a new point, which is deeper if arithmetic is exact and all constraints are
convex; then the fallback to the candidate itself is never taken.

## Main definitions

* `Problem.Evaluated`, `Problem.IsInterior`: Candidates that are what they are recorded as.
* `Session.Deepening`: The invariant of a session.
* `Solver.Reaches`: The moments in the life of a solver.

## Theorems

* `InteriorTracker.consider_cases`: What looking at an incumbent does.
* `InteriorTracker.deviationValue_lt_of_isDeeper`: Deeper is strictly deeper.
* `InteriorTracker.deviationValue_midpoint_lt`: Halfway between interior points of convex
  constraints.
* `Session.Deepening.step`: Every step of a turn keeps the invariant.
* `Solver.deepening_of_reaches`: It holds at every moment.
* `Solver.interior_point_deepens`: The interior point at every moment, and what becomes of it.
-/

namespace OuterApprox

variable {α σ : Type} [Scalar α]

namespace Problem

/-- A candidate with one coordinate per variable, whose recorded deviation is its own. -/
structure Evaluated (p : Problem α) (c : Candidate α) : Prop where
  /-- There is one coordinate for every variable. -/
  length : c.point.length = p.dimension
  /-- The deviation is the one of the point. -/
  deviation : c.deviation = p.maxDeviation c.point

/-- A candidate that is strictly inside, if there is anything to be inside of. -/
structure IsInterior (p : Problem α) (c : Candidate α) : Prop extends p.Evaluated c where
  /-- With constraints there is a deviation, and it is negative. -/
  inside : p.constraints ≠ [] → ∃ d, c.deviation = some d ∧ d.value < 0.0

variable {p : Problem α}

theorem evaluated_candidate {x : Point α} (h : x.length = p.dimension) (n : Nat) :
    p.Evaluated (p.candidate x n) := ⟨h, rfl⟩

/-- There is a deviation exactly if there are constraints. -/
theorem maxDeviation_eq_none_iff {x : Point α} :
    p.maxDeviation x = none ↔ p.constraints = [] := by
  -- The list of values is as long as the list of constraints.
  have hlist : p.valuesAt x p.constraintIndices = [] ↔ p.constraints = [] := by
    simp only [List.eq_nil_iff_forall_not_mem, mem_valuesAt_iff, not_exists, not_and]
    constructor
    · intro h c hc
      obtain ⟨i, hi⟩ := List.mem_iff_getElem?.1 hc
      exact h _ i c hi rfl
    · rintro h _ i c hi rfl
      exact h c (List.mem_of_getElem? hi)
  rw [← hlist, maxDeviation, maxValue?]
  cases p.valuesAt x p.constraintIndices with
  | nil => exact iff_of_true rfl rfl
  | cons first rest => exact iff_of_false (Option.some_ne_none _) (List.cons_ne_nil first rest)

theorem Evaluated.constraints_ne_nil {c : Candidate α} (h : p.Evaluated c) {d : Deviation α}
    (hd : c.deviation = some d) : p.constraints ≠ [] := by
  intro hnone
  rw [h.deviation, maxDeviation_eq_none_iff.2 hnone] at hd
  exact nomatch hd

end Problem

namespace InteriorTracker

variable {p : Problem α} {t : InteriorTracker α} {rule : InteriorUpdate}
variable {incumbent : Option (PrimalSolution α)} {now c next : Candidate α}

/-! ## One look at the incumbent -/

/-- Looking at the incumbent changes the point exactly if it leads to another one. -/
theorem consider_cases (t : InteriorTracker α) (p : Problem α) (rule : InteriorUpdate)
    (incumbent : Option (PrimalSolution α)) :
    ((t.consider p rule incumbent).2 = false ∧
        (t.consider p rule incumbent).1.current = t.current) ∨
      (t.consider p rule incumbent).2 = true ∧ ∃ i ∈ incumbent, ∃ next,
        t.successor? p rule i.candidate = some next ∧
        (t.consider p rule incumbent).1.current = some next := by
  unfold consider
  -- The incumbent is not looked at, or it is no reason to move, or it is.
  cases hpending : t.pending? rule incumbent with
  | none => exact .inl ⟨rfl, rfl⟩
  | some c =>
    obtain ⟨i, hi, rfl⟩ := exists_of_pending? hpending
    dsimp only
    cases hnext : t.successor? p rule i.candidate with
    | none => exact .inl ⟨rfl, rfl⟩
    | some next => exact .inr ⟨rfl, i, hi, next, hnext, rfl⟩

/-- A rule that keeps the point does not look at anything. -/
theorem consider_keep : t.consider p .keep incumbent = (t, false) := by
  simp only [consider, pending?, if_true]

theorem isDeeper_of_successor? (h : t.successor? p rule c = some next) : t.isDeeper c = true := by
  unfold successor? at h
  split at h
  · simp only [reduceCtorEq] at h
  next hdeeper => simpa using hdeeper

/-- A deeper candidate is an interior point. -/
theorem isInterior_of_isDeeper (hc : p.Evaluated c) (h : t.isDeeper c = true) :
    p.IsInterior c :=
  ⟨hc, fun _ => deviation_of_isDeeper h⟩

theorem isInterior_halfway (hnow : p.IsInterior now) (hc : p.IsInterior c) :
    p.IsInterior (halfway p now c) := by
  simp only [halfway]
  split
  next hmid =>
    have hlength := Point.length_midpoint (hnow.length.trans hc.length.symm)
    refine ⟨Problem.evaluated_candidate (hlength.trans hnow.length) _, fun _ => ?_⟩
    obtain ⟨d, hd, hneg⟩ := (Option.any_eq_true _ _).1 hmid
    exact ⟨d, hd, of_decide_eq_true hneg⟩
  · exact hc

/-- Whatever a candidate makes of an interior point is one. -/
theorem isInterior_successor? (ht : ∀ z ∈ t.current, p.IsInterior z) (hc : p.Evaluated c)
    (h : t.successor? p rule c = some next) : p.IsInterior next := by
  have hinterior := isInterior_of_isDeeper hc (isDeeper_of_successor? h)
  unfold successor? at h
  split at h
  · simp only [reduceCtorEq] at h
  · split at h
    next now hcurrent =>
      rw [← Option.some.inj h]
      exact isInterior_halfway (ht now hcurrent) hinterior
    · rw [← Option.some.inj h]
      exact hinterior

theorem isInterior_consider (ht : ∀ z ∈ t.current, p.IsInterior z)
    (hincumbent : ∀ i ∈ incumbent, p.Evaluated i.candidate) :
    ∀ z ∈ (t.consider p rule incumbent).1.current, p.IsInterior z := by
  obtain ⟨-, hsame⟩ | ⟨-, i, hi, next, hnext, hcurrent⟩ := t.consider_cases p rule incumbent
  · exact hsame ▸ ht
  · rw [hcurrent]
    rintro _ ⟨⟩
    exact isInterior_successor? ht (hincumbent i hi) hnext

/-! ## Deeper points -/

/-- The recorded value of an interior point and of a candidate that is deeper compare, so the
    candidate is strictly deeper. -/
theorem deviationValue_lt_of_isDeeper [Scalar.NumberOrder α] (hnow : p.IsInterior now)
    (hc : p.Evaluated c) (hcurrent : t.current = some now) (h : t.isDeeper c = true) :
    c.deviationValue < now.deviationValue := by
  have hdefined : ∀ {v : α}, v < 0.0 → Scalar.isUndefined v = false := fun hv =>
    (Scalar.BoundOrder.defined_of_better .minimize (decide_eq_true hv)).1
  obtain ⟨d, hd, hneg⟩ := deviation_of_isDeeper h
  obtain ⟨d', hd', hneg'⟩ := hnow.inside (hc.constraints_ne_nil hd)
  simp only [isDeeper, hd, hcurrent, Option.any_some, Candidate.deviationValue, hd',
    Bool.and_eq_true, Bool.not_eq_true', decide_eq_false_iff_not] at h
  simp only [Candidate.deviationValue, hd, hd']
  exact Scalar.NumberOrder.lt_of_not_le (hdefined hneg') (hdefined hneg) h.2

/-- Under the rule that replaces the point, what takes over is strictly deeper. -/
theorem consider_replace [Scalar.NumberOrder α] (hnow : p.IsInterior now)
    (hcurrent : t.current = some now) (hincumbent : ∀ i ∈ incumbent, p.Evaluated i.candidate)
    (h : (t.consider p .replace incumbent).2 = true) :
    ∃ next, (t.consider p .replace incumbent).1.current = some next ∧
      next.deviationValue < now.deviationValue := by
  obtain ⟨hfalse, -⟩ | ⟨-, i, hi, next, hnext, htaken⟩ := t.consider_cases p .replace incumbent
  · rw [h] at hfalse
    exact nomatch hfalse
  · have hdeeper := isDeeper_of_successor? hnext
    -- Under this rule the incumbent itself is the next point.
    have heq : next = i.candidate := by
      simp only [successor?, hdeeper, hcurrent, Bool.not_true, Bool.false_eq_true, if_false,
        Option.some.injEq] at hnext
      exact hnext.symm
    refine ⟨next, htaken, ?_⟩
    rw [heq]
    exact deviationValue_lt_of_isDeeper hnow (hincumbent i hi) hcurrent hdeeper

end InteriorTracker

/-- Halfway between an interior point of convex constraints and a deeper candidate there is an
    interior point that is deeper than the first one. -/
theorem InteriorTracker.deviationValue_midpoint_lt {p : Problem Exact} {now c : Candidate Exact}
    (hp : ∀ constraint ∈ p.constraints, constraint.function.Convex p.dimension)
    (hnow : p.IsInterior now) (hc : p.IsInterior c) (hnowf : now.point.Finite)
    (hcf : c.point.Finite) (hlt : c.deviationValue < now.deviationValue)
    (hconstraints : p.constraints ≠ []) :
    halfway p now c = p.candidate (Point.midpoint now.point c.point) c.iteration ∧
      (halfway p now c).deviationValue < now.deviationValue := by
  obtain ⟨a, ha, hneg⟩ := hnow.inside hconstraints
  obtain ⟨b, hb, hneg'⟩ := hc.inside hconstraints
  -- The largest deviation is a maximum of convex functions.
  obtain ⟨m, hm, haverage⟩ := Problem.averaged_maxDeviation hp hnow.length hc.length hnowf hcf
    (hnow.deviation.symm.trans ha) (hc.deviation.symm.trans hb)
  obtain ⟨q, r, s, hq, hr, hs, hle⟩ := haverage.exists_of_neg hneg hneg'
  simp only [Candidate.deviationValue, ha, hb, hq, hr, Exact.finite_lt] at hlt
  have hlower : s < q := by linarith
  -- Both ends are negative, so the midpoint is, and it is taken.
  have hmid : (p.candidate (Point.midpoint now.point c.point) c.iteration).deviation.any
      (fun d => decide (d.value < 0.0)) = true := by
    rw [hq, Exact.zero_eq, Exact.finite_lt] at hneg
    simp only [Problem.candidate, hm, Option.any_some, hs, Exact.zero_eq, Exact.finite_lt,
      decide_eq_true_eq]
    exact hlower.trans hneg
  have htaken : halfway p now c =
      p.candidate (Point.midpoint now.point c.point) c.iteration := if_pos hmid
  refine ⟨htaken, ?_⟩
  rw [htaken]
  simp only [Candidate.deviationValue, Problem.candidate, hm, ha, hs, hq, Exact.finite_lt]
  exact hlower

/-- Under the rule that draws the point halfway, what takes over is the midpoint, and strictly
    deeper. -/
theorem InteriorTracker.consider_average {p : Problem Exact} {t : InteriorTracker Exact}
    {incumbent : Option (PrimalSolution Exact)} {now : Candidate Exact}
    (hp : ∀ constraint ∈ p.constraints, constraint.function.Convex p.dimension)
    (hnow : p.IsInterior now) (hnowf : now.point.Finite) (hcurrent : t.current = some now)
    (hincumbent : ∀ i ∈ incumbent, p.Evaluated i.candidate ∧ i.candidate.point.Finite)
    (h : (t.consider p .average incumbent).2 = true) :
    ∃ i ∈ incumbent, ∃ next, (t.consider p .average incumbent).1.current = some next ∧
      next.point = Point.midpoint now.point i.candidate.point ∧
      next.deviationValue < now.deviationValue := by
  obtain ⟨hfalse, -⟩ | ⟨-, i, hi, next, hnext, htaken⟩ := t.consider_cases p .average incumbent
  · rw [h] at hfalse
    exact nomatch hfalse
  · have hdeeper := isDeeper_of_successor? hnext
    obtain ⟨hevaluated, hfinite⟩ := hincumbent i hi
    obtain ⟨d, hd, -⟩ := deviation_of_isDeeper hdeeper
    obtain ⟨hmid, hlower⟩ := deviationValue_midpoint_lt hp hnow
      (isInterior_of_isDeeper hevaluated hdeeper) hnowf hfinite
      (deviationValue_lt_of_isDeeper hnow hevaluated hcurrent hdeeper)
      (hevaluated.constraints_ne_nil hd)
    -- Under this rule the next point is the midpoint, unless that is not inside.
    have heq : halfway p now i.candidate = next := by
      simpa only [successor?, hdeeper, hcurrent, Bool.not_true, Bool.false_eq_true, if_false,
        Option.some.injEq] using hnext
    rw [heq] at hmid hlower
    exact ⟨i, hi, next, htaken, congrArg Candidate.point hmid, hlower⟩

/-! ## The life of a solver -/

namespace Session

/-- What stays true of a session and its cut store: the incumbent is what it is recorded as, and
    the interior point is one. -/
structure Deepening (p : Problem α) (s : Session α) (st : CutStore α) : Prop where
  /-- The session is about the problem. -/
  problem : s.problem = p
  /-- The incumbent carries its own deviation. -/
  incumbent : ∀ i ∈ s.bounds.incumbent, p.Evaluated i.candidate
  /-- An interior point in the store is strictly inside. -/
  interior : ∀ z ∈ st.interior.current, p.IsInterior z

variable {p : Problem α} {e : Event α} {t t' : Turn α}

theorem Deepening.of_eq {s s' : Session α} {st st' : CutStore α} (h : Deepening p s st)
    (hproblem : s'.problem = s.problem) (hincumbent : s'.bounds.incumbent = s.bounds.incumbent)
    (hinterior : st'.interior = st.interior) : Deepening p s' st' :=
  ⟨hproblem.trans h.problem, hincumbent ▸ h.incumbent, hinterior ▸ h.interior⟩

theorem Deepening.step (hstep : Turn.Step e t t') (h : Deepening p t.session t.store) :
    Deepening p t'.session t'.store := by
  have hproblem : t.problem = p := h.problem
  cases hstep with
  | quiet hq => exact h.of_eq hq.problem (congrArg BoundLedger.incumbent hq.bounds) hq.interior
  | primal x n source hlength =>
    -- A new incumbent has just been evaluated.
    refine ⟨h.problem, fun i hi => ?_, h.interior⟩
    rw [hproblem] at hlength hi
    rcases t.session.bounds.offerPrimal_cases ⟨p.candidate x n, source⟩ with
      ⟨-, -, hnew⟩ | ⟨-, hold⟩
    · have heq : some ⟨p.candidate x n, source⟩ = some i := hnew.symm.trans hi
      rw [← Option.some.inj heq]
      exact Problem.evaluated_candidate hlength n
    · exact h.incumbent i (hold.symm.trans hi)
  | dual d => exact h.of_eq rfl (BoundLedger.incumbent_offerDual _ _) rfl
  -- The interior point is moved by the rule, to a point that is inside.
  | interior rule =>
    refine ⟨h.problem, h.incumbent, ?_⟩
    rw [hproblem]
    exact InteriorTracker.isInterior_consider h.interior h.incumbent
  | cut => exact h.of_eq rfl rfl rfl

theorem Deepening.steps (hsteps : Turn.Steps e t t') (h : Deepening p t.session t.store) :
    Deepening p t'.session t'.store := by
  induction hsteps with
  | refl => exact h
  | tail _ hstep ih => exact ih.step hstep

/-- The invariant survives everything that happens in a solve. -/
theorem deepening_invariant (p : Problem α) :
    Callback.Invariant (fun _ => True) (Deepening p) where
  event c e _ h := h.steps (c.steps_handle e)
  statistics _ _ _ h := h.of_eq rfl rfl rfl
  note _ _ _ h := h.of_eq rfl rfl rfl
  dual _ _ _ h := h.of_eq rfl (BoundLedger.incumbent_offerDual _ _) rfl
  repaired _ _ h := h.of_eq rfl rfl rfl

end Session

namespace Solver

/-- The moments in the life of a solver: whatever was done with it before, it is at rest, or in
    a search of one more solve, or in the middle of an event of it. -/
inductive Reaches (E : Engine α σ) (s : Solver α σ) : Session α → CutStore α → Prop
  /-- Between two deeds. -/
  | rest (deeds : List (Deed α)) :
    Reaches E s (s.performAll E deeds).master.session (s.performAll E deeds).master.store
  /-- Before, between or after the events of a search. -/
  | search (deeds : List (Deed α)) {m : Master α σ} (hm : m ∈ (s.performAll E deeds).searches E)
    {c : Callback α} (hc : c ∈ m.searchStates E) : Reaches E s c.session c.store
  /-- In the middle of an event, after some of its steps. -/
  | event (deeds : List (Deed α)) {c : Callback α} {e : Event α} {t : Turn α}
    (hstep : (c, e) ∈ (s.performAll E deeds).trace E) (ht : Turn.Steps e ⟨c, []⟩ t) :
    Reaches E s t.session t.store

variable {E : Engine α σ} {p : Problem α} {s : Solver α σ}

theorem deepening_addWaitingRows (m : Master α σ)
    (h : Session.Deepening p m.session m.store) :
    Session.Deepening p (m.addWaitingRows E).1.session (m.addWaitingRows E).1.store := by
  -- Rows and entries are added one after the other, and neither is looked at.
  have hfold : ∀ (number : Nat) (hs : List (Hyperplane α)) (acc : Master α σ × Nat),
      Session.Deepening p acc.1.session acc.1.store →
      Session.Deepening p (hs.foldl (Master.addRow E number) acc).1.session
        (hs.foldl (Master.addRow E number) acc).1.store := by
    intro number hs acc hacc
    refine List.foldlRecOn hs _ (motive := fun acc : Master α σ × Nat =>
      Session.Deepening p acc.1.session acc.1.store) hacc ?_
    intro acc hacc x _
    simp only [Master.addRow]
    split
    · exact hacc.of_eq rfl rfl rfl
    · split <;> exact hacc.of_eq rfl rfl rfl
  have hrows := hfold m.session.iterations.lastNumber m.store.waiting
    ({ m with store := { m.store with waiting := [] } }, 0) (h.of_eq rfl rfl rfl)
  simp only [Master.addWaitingRows]
  split
  · exact hrows
  · exact hrows.of_eq rfl rfl rfl

/-- A point that is installed is an interior point. -/
theorem deepening_setInterior (h : Session.Deepening p s.master.session s.master.store)
    {x : Point α} {s' : Solver α σ} (hset : s.setInterior x = .ok s') :
    Session.Deepening p s'.master.session s'.master.store := by
  simp only [setInterior, h.problem] at hset
  split at hset
  · simp only [reduceCtorEq] at hset
  next hdimension =>
    have hlength : x.length = p.dimension := by
      by_contra hne
      simp only [Problem.checkDimension, if_neg hne, reduceCtorEq] at hdimension
    have hevaluated := Problem.evaluated_candidate hlength 0
    split at hset
    -- Without constraints every point of the right length is taken.
    next hnone =>
      cases hset
      refine ⟨h.problem, h.incumbent, ?_⟩
      rintro _ ⟨⟩
      exact ⟨hevaluated, fun hsome => absurd (Problem.maxDeviation_eq_none_iff.1 hnone) hsome⟩
    -- With constraints it is taken only if its largest deviation is negative.
    next d hd =>
      split at hset
      next hneg =>
        cases hset
        refine ⟨h.problem, h.incumbent, ?_⟩
        rintro _ ⟨⟩
        exact ⟨hevaluated, fun _ => ⟨d, hd, hneg⟩⟩
      · simp only [reduceCtorEq] at hset

theorem deepening_prepare (h : Session.Deepening p s.master.session s.master.store)
    (preparation : Preparation α) :
    Session.Deepening p (s.prepare E preparation).master.session
      (s.prepare E preparation).master.store := by
  cases preparation with
  | interior x =>
    simp only [prepare]
    cases hset : s.setInterior x with
    | error e => exact h
    | ok s' => exact deepening_setInterior h hset
  | fixedInteger solver => exact h.of_eq rfl rfl rfl
  | queueIntegerCut indices => exact h.of_eq rfl rfl rfl
  -- The row goes to the engine, and a count and a remark to the session.
  | integerCutRow indices =>
    simp only [prepare, addIntegerCutRow, Master.addIntegerCutRow]
    cases (noGoodRow s.master.session.problem.dimension indices : Option (Row α)) with
    | none => exact h
    | some row =>
      cases hanswer : (E.addRow s.master.engine row
        s!"ic_{s.master.session.statistics.integerCuts}").2 <;>
      · simp only [hanswer]
        exact h.of_eq rfl rfl rfl
  | hyperplanes hs =>
    exact deepening_addWaitingRows (s.mapStore (·.request hs)).master (h.of_eq rfl rfl rfl)

theorem deepening_solve (h : Session.Deepening p s.master.session s.master.store) :
    (∀ m ∈ s.searches E, Session.Deepening p m.session m.store) ∧
      Session.Deepening p (s.solve E).1.master.session (s.solve E).1.master.store := by
  cases hvalid : s.master.session.settings.validate with
  | error e =>
    have hsearches : s.searches E = [] := by simp only [searches, rounds, hvalid, List.flatMap_nil]
    have hsolve : (s.solve E).1 = s := by simp only [solve, hvalid]
    rw [hsearches, hsolve]
    exact ⟨fun m hm => absurd hm List.not_mem_nil, h⟩
  | ok u =>
    -- A solve starts without an incumbent.
    have hstart : s.startMaster.Holds fun s st _ => Session.Deepening p s st :=
      ⟨h.problem, (fun i hi => absurd hi (Option.not_mem_none i)), h.interior⟩
    obtain ⟨hsearches, hend⟩ := invariant_solve (τ := [])
      ((Session.deepening_invariant p).master E) s hvalid (fun _ _ => trivial) hstart
    exact ⟨fun m hm => (hsearches m hm).elim fun _ h => h, hend⟩

theorem deepening_performAll (h : Session.Deepening p s.master.session s.master.store)
    (deeds : List (Deed α)) :
    Session.Deepening p (s.performAll E deeds).master.session
      (s.performAll E deeds).master.store := by
  induction deeds generalizing s with
  | nil => exact h
  | cons deed rest ih =>
    refine ih ?_
    cases deed with
    | prepare preparation => exact deepening_prepare h preparation
    | solve => exact (deepening_solve h).2

/-- The invariant holds at every moment in the life of a solver. -/
theorem deepening_of_reaches {given : Settings α} {engine : σ} {clock : Clock}
    (hcreate : create E p given engine clock = .ok s) {session : Session α} {store : CutStore α}
    (h : s.Reaches E session store) : Session.Deepening p session store := by
  have hcreated : Session.Deepening p s.master.session s.master.store := by
    obtain ⟨-, rfl⟩ := create_eq_ok hcreate
    exact ⟨rfl, (fun _ hi => nomatch hi), (fun _ hz => nomatch hz)⟩
  have hstates : ∀ (deeds : List (Deed α)), ∀ m ∈ (s.performAll E deeds).searches E,
      ∀ c ∈ m.searchStates E, Session.Deepening p c.session c.store := by
    intro deeds m hm
    have hmaster := (deepening_solve (deepening_performAll hcreated deeds)).1 m hm
    exact (Session.deepening_invariant p).searchStates m (fun _ _ => trivial) hmaster
  cases h with
  | rest deeds => exact deepening_performAll hcreated deeds
  | search deeds hm hc => exact hstates deeds _ hm _ hc
  -- Inside of an event, the steps up to there preserve it.
  | event deeds hstep ht =>
    obtain ⟨r, hr, hround⟩ := List.mem_flatMap.1 hstep
    obtain ⟨m, hm, hsearch⟩ := List.mem_flatMap.1 hround
    have hstate := hstates deeds m (List.mem_flatMap.2 ⟨r, hr, hm⟩) _
      (Search.mem_states_of_mem_trace _ _ hsearch)
    exact Session.Deepening.steps ht hstate

/-- At every moment in the life of a solver, whatever is done with it and whatever the engine
    and the local solver answer, the interior point is inside and recorded as it is. Looking at
    the incumbent keeps it under one rule, and under the second one what takes over is strictly
    deeper. Under the third one, if arithmetic is exact and all constraints are convex, it is
    the midpoint of the interior point and the incumbent, and strictly deeper. -/
theorem interior_point_deepens :
    (∀ {α σ : Type} [Scalar α] [Scalar.NumberOrder α] (E : Engine α σ) (p : Problem α)
      (given : Settings α) (engine : σ) (clock : Clock) (s : Solver α σ),
      create E p given engine clock = .ok s →
      ∀ session store, s.Reaches E session store →
        (p.constraints ≠ [] → ∀ z ∈ store.interior.current,
          z.point.length = p.dimension ∧ z.deviation = p.maxDeviation z.point ∧
            ∃ d, z.deviation = some d ∧ d.value < 0.0) ∧
        let look := fun rule => store.interior.consider p rule session.bounds.incumbent
        look .keep = (store.interior, false) ∧
        ((look .replace).2 = true → ∀ now, store.interior.current = some now →
          ∃ next, (look .replace).1.current = some next ∧
            next.deviationValue < now.deviationValue)) ∧
    ∀ {σ : Type} (E : Engine Exact σ) (p : Problem Exact) (given : Settings Exact) (engine : σ)
      (clock : Clock) (s : Solver Exact σ), create E p given engine clock = .ok s →
      (∀ c ∈ p.constraints, c.function.Convex p.dimension) →
      ∀ session store, s.Reaches E session store →
        let look := store.interior.consider p .average session.bounds.incumbent
        look.2 = true → ∀ now, store.interior.current = some now → now.point.Finite →
          (∀ i ∈ session.bounds.incumbent, i.candidate.point.Finite) →
          ∃ i ∈ session.bounds.incumbent, ∃ next, look.1.current = some next ∧
            next.point.length = p.dimension ∧
            (∀ j < p.dimension, next.point.coord j = .finite
              (((now.point.coord j).toRat + (i.candidate.point.coord j).toRat) / 2)) ∧
            next.deviationValue < now.deviationValue := by
  constructor
  -- The first part holds for every kind of scalars.
  · intro α σ _ _ E p given engine clock s hcreate session store hreaches
    have hdeep := deepening_of_reaches hcreate hreaches
    refine ⟨fun hconstraints z hz => ?_, InteriorTracker.consider_keep, fun hchanged now hnow => ?_⟩
    · have hinterior := hdeep.interior z hz
      exact ⟨hinterior.length, hinterior.deviation, hinterior.inside hconstraints⟩
    · exact InteriorTracker.consider_replace (hdeep.interior now hnow) hnow hdeep.incumbent hchanged
  -- The midpoint is compared in exact arithmetic.
  · intro σ E p given engine clock s hcreate hconvex session store hreaches look hchanged now
      hnow hfinite hincumbent
    have hdeep := deepening_of_reaches hcreate hreaches
    have hinterior := hdeep.interior now hnow
    obtain ⟨i, hi, next, hnext, hpoint, hlower⟩ := InteriorTracker.consider_average hconvex
      hinterior hfinite hnow (fun i hi => ⟨hdeep.incumbent i hi, hincumbent i hi⟩) hchanged
    have hsame := hinterior.length.trans (hdeep.incumbent i hi).length.symm
    refine ⟨i, hi, next, hnext, ?_, fun j hj => ?_, hlower⟩
    · rw [hpoint, Point.length_midpoint hsame, hinterior.length]
    · rw [hpoint, Point.coord_midpoint hfinite (hincumbent i hi) (hinterior.length ▸ hj) hsame]

end Solver

namespace Bowl

/-- The square of the first coordinate. -/
def square : SmoothFunction Exact where
  value x := x.coord 0 * x.coord 0
  gradient x := .ok (.collect [(0, 2.0 * x.coord 0)])

theorem square_convex : square.Convex 1 := by
  have hpoint : ∀ x : Point Exact, x.length = 1 → x.Finite → ∃ q : ℚ, x = [.finite q] := by
    intro x hlength hfinite
    obtain ⟨u, rfl⟩ := List.length_eq_one_iff.1 hlength
    exact ⟨u.toRat, congrArg (fun v => [v]) (Exact.eq_finite (hfinite u List.mem_cons_self))⟩
  have hvalue : ∀ q : ℚ, square.value [.finite q] = .finite (q * q) := fun _ => rfl
  constructor
  · intro x hx hxf
    obtain ⟨q, rfl⟩ := hpoint x hx hxf
    exact .inr rfl
  · intro x y hx hy hxf hyf _ _ t ht ht'
    obtain ⟨q, rfl⟩ := hpoint x hx hxf
    obtain ⟨r, rfl⟩ := hpoint y hy hyf
    have hbetween : Point.between [Exact.finite q] [.finite r] (.finite t) =
        [.finite (q + t * (r - q))] := by
      simp only [Point.between, List.zipWith_cons_cons, List.zipWith_nil_left, Exact.finite_sub,
        Exact.finite_mul, Exact.finite_add]
    rw [hbetween, hvalue, hvalue, hvalue]
    refine ⟨rfl, ?_⟩
    simp only [Exact.toRat_finite]
    -- The chord is above by the square of the distance, times the two parts of the segment.
    nlinarith [mul_nonneg (mul_nonneg ht (sub_nonneg.2 ht')) (mul_self_nonneg (q - r))]

/-- One variable, whose square may be at most four. -/
def problem : Problem Exact :=
  ((Problem.ofObjective (.affine ⟨[(0, 1.0)], 0.0⟩ .minimize)).addVariable
    "x" (-5.0) 5.0 .real).addConstraint ⟨"bowl", square, 4.0, true⟩

/-- An engine that finds the bottom of the bowl. -/
def engine : Engine Exact (Tabular Exact) :=
  scriptedEngine
    [{ events := [{ Event.blank .integerSolution with objective := .ok 0.0, values := .ok [0.0] }]
       status := .ok .optimal
       finalBound := .ok (-5.0)
       ignoreAbort := false }]
    (.error (.notAvailable "elastic"))

def tables : Tabular Exact := .fresh [(-5.0, 5.0)] [] {}

/-- A solver that leaves its interior point alone. -/
def solver : Solver Exact (Tabular Exact) where
  master := .start
    { problem
      settings := .withCuttingPlanes
      bounds := .fresh .minimize (Settings.withCuttingPlanes (α := Exact)).termination
      iterations := .empty
      statistics := {}
      clock := .still ⟨0⟩
      journal := #[] } tables .cuttingPlane
  initialHyperplanes := 0
  initialIntegerCuts := 0

theorem create_eq_solver :
    Solver.create engine problem .withCuttingPlanes tables (.still ⟨0⟩) = .ok solver := by
  have hvalid : (Settings.withCuttingPlanes : Settings Exact).validate = .ok () :=
    (Settings.validate_eq_ok_iff _).2 (List.all_eq_true.1 (by decide +kernel))
  simp only [Solver.create, Session.start, hvalid]
  rfl

/-- After a solve that has found the bottom of the bowl, a look at it takes an interior point on
    the slope there, or halfway there. -/
theorem interior_point_deepens_bowl :
    let s := solver.performAll engine [.prepare (.interior [1.0]), .solve]
    let tracker := s.master.store.interior
    let incumbent := s.master.session.bounds.incumbent
    tracker.current.map (fun z => (z.point, z.deviationValue)) =
        some ([Exact.finite 1], Exact.finite (-3 / 4)) ∧
      incumbent.map (·.candidate.point) = some [Exact.finite 0] ∧
      (∃ next, (tracker.consider problem .replace incumbent).1.current = some next ∧
        next.deviationValue < Exact.finite (-3 / 4)) ∧
      ∃ next, (tracker.consider problem .average incumbent).1.current = some next ∧
        next.point.coord 0 = Exact.finite (1 / 2) ∧
        next.deviationValue < Exact.finite (-3 / 4) := by
  intro s tracker incumbent
  have hcurrent : tracker.current.map (fun z => (z.point, z.deviationValue)) =
      some ([Exact.finite 1], Exact.finite (-3 / 4)) := by decide +kernel
  have hincumbent : incumbent.map (·.candidate.point) = some [Exact.finite 0] := by decide +kernel
  obtain ⟨now, hnow, hvalue⟩ := Option.map_eq_some_iff.1 hcurrent
  simp only [Prod.mk.injEq] at hvalue
  obtain ⟨i, hi, hpoint⟩ := Option.map_eq_some_iff.1 hincumbent
  have hnumber : ∀ q : ℚ, Point.Finite [.finite q] := by
    intro q v hv
    rw [List.mem_singleton.1 hv]
    rfl
  -- The solver is at rest after an interior point was given and one solve.
  have hreaches : solver.Reaches engine s.master.session s.master.store := .rest _
  refine ⟨hcurrent, hincumbent, ?_, ?_⟩
  · obtain ⟨-, -, hreplace⟩ := Solver.interior_point_deepens.1 engine problem _ _ _ solver
      create_eq_solver _ _ hreaches
    rw [← hvalue.2]
    exact hreplace (by decide +kernel) now hnow
  · obtain ⟨j, hj, next, hnext, -, hcoord, hlower⟩ := Solver.interior_point_deepens.2 engine
      problem _ _ _ solver create_eq_solver
      (by rintro c hc; rw [List.mem_singleton.1 hc]; exact square_convex) _ _ hreaches
      (by decide +kernel) now hnow (hvalue.1 ▸ hnumber 1)
      (by rintro j hj; rw [Option.some.inj (hj.symm.trans hi), hpoint]; exact hnumber 0)
    have heq : j = i := Option.some.inj (hj.symm.trans hi)
    refine ⟨next, hnext, ?_, hvalue.2 ▸ hlower⟩
    rw [hcoord 0 (by decide), heq, hpoint, hvalue.1]
    decide +kernel

end Bowl

end OuterApprox
