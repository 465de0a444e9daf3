import OuterApprox.Callback.Handle
import OuterApprox.Proofs.Segment
import Mathlib.Logic.Relation

/-!
# Steps of a turn

What the handling of an event can do, said once. Handling is a long composition
of small functions, and most of what is worth proving about it concerns three
things that outlive the event: the bounds with their incumbent, the hyperplanes
the engine took, and the interior point. All those functions together do only
five things to them, so handling an event is described as a sequence of steps of
five kinds, and a fact about a ledger is a fact about five kinds of steps.

A candidate solution enters the bound ledger in one place of the code for each
of its three sources. The step that offers one says where its point came from,
because what can be said about an incumbent is what can be said about those
sources.

## Main definitions

* `Call.takenHyperplane?`, `Turn.cuts`: The hyperplane rows the engine took.
* `Turn.Quiet`: Steps that touch neither ledger nor the interior point.
* `Turn.Offered`: Where the point of a candidate solution came from.
* `Turn.Step`, `Turn.Steps`: One step, and any number of them.
* `Turn.refined`, `Turn.requested`: The moments before hyperplanes are chosen and
  before they are handed over.

## Theorems

* `Turn.cuts_call_row`: A row that is taken is the last one.
* `Turn.Quiet.refl`, `Turn.Quiet.trans`: Quiet steps compose.
* `Turn.Steps.problem`, `Turn.Steps.settings`, `Turn.Steps.grows`: What no step
  changes, and that calls are never taken back.
* `Session.primalSearch_eq_some`: A point found by the primal line search ends a
  line search, has the right length and is integral.
* `FixedIntegerQueue.outcome_eq_solution`: A point from the local solver is its
  answer.
* `Turn.steps_flushHyperplanes`: Flushing is quiet but for the rows taken.
* `Turn.steps_fixIntegers`, `Turn.steps_searchPrimal`: The heuristics offer
  what they found and nothing else.
* `Turn.steps_requested`, `Turn.steps_afterFlush`: Cutting off a solution, before
  and after its hyperplanes are handed over.
* `Callback.steps_handle`: Handling an event is a sequence of steps.
-/

namespace OuterApprox

variable {α : Type}

/-- The row of a call, if it is a linearization and the engine took it. -/
def Call.takenHyperplane? : Call α → Option (Row α)
  | .row .hyperplane r true => some r
  | _ => none

namespace Turn

/-- The hyperplane rows that the engine took in this turn, in order. -/
def cuts (t : Turn α) : List (Row α) := t.calls.filterMap Call.takenHyperplane?

/-- A linearization that is taken is one more cut. -/
theorem cuts_call_row (t : Turn α) (row : Row α) :
    (t.call (.row .hyperplane row true)).cuts = t.cuts ++ [row] := by
  simp only [cuts, call, List.filterMap_append, List.filterMap_cons, List.filterMap_nil,
    Call.takenHyperplane?]

/-- A step that touches neither the bounds nor the cut ledger nor the interior
    point, nor anything that decides what may be put into them. -/
structure Quiet (t t' : Turn α) : Prop where
  /-- The problem stays. -/
  problem : t'.session.problem = t.session.problem
  /-- The settings stay. -/
  settings : t'.session.settings = t.session.settings
  /-- The bounds stay. -/
  bounds : t'.session.bounds = t.session.bounds
  /-- The cut ledger stays. -/
  ledger : t'.store.ledger = t.store.ledger
  /-- The local solver stays. -/
  solver : t'.store.fixedInteger.solver = t.store.fixedInteger.solver
  /-- The interior point stays. -/
  interior : t'.store.interior = t.store.interior
  /-- The engine takes no hyperplane. -/
  cuts : t'.cuts = t.cuts
  /-- No call is taken back. -/
  grows : t.calls <+: t'.calls

/-- A step that makes no call. -/
theorem Quiet.of_calls_eq {t t' : Turn α} (hp : t'.session.problem = t.session.problem)
    (hs : t'.session.settings = t.session.settings) (hb : t'.session.bounds = t.session.bounds)
    (hl : t'.store.ledger = t.store.ledger)
    (hf : t'.store.fixedInteger.solver = t.store.fixedInteger.solver)
    (hi : t'.store.interior = t.store.interior) (hcalls : t'.calls = t.calls) : Quiet t t' :=
  ⟨hp, hs, hb, hl, hf, hi, congrArg (List.filterMap Call.takenHyperplane?) hcalls,
    hcalls ▸ List.prefix_rfl⟩

/-- Nothing is quiet. -/
theorem Quiet.refl (t : Turn α) : Quiet t t := .of_calls_eq rfl rfl rfl rfl rfl rfl rfl

/-- Quiet steps compose. -/
theorem Quiet.trans {a b c : Turn α} (h1 : Quiet a b) (h2 : Quiet b c) : Quiet a c where
  problem := h2.problem.trans h1.problem
  settings := h2.settings.trans h1.settings
  bounds := h2.bounds.trans h1.bounds
  ledger := h2.ledger.trans h1.ledger
  solver := h2.solver.trans h1.solver
  interior := h2.interior.trans h1.interior
  cuts := h2.cuts.trans h1.cuts
  grows := h1.grows.trans h2.grows

/-- A change of the session that leaves the problem, the settings and the bounds. -/
theorem quiet_mapSession (t : Turn α) (f : Session α → Session α)
    (hp : (f t.session).problem = t.session.problem)
    (hs : (f t.session).settings = t.session.settings)
    (hb : (f t.session).bounds = t.session.bounds) : Quiet t (t.mapSession f) :=
  .of_calls_eq hp hs hb rfl rfl rfl rfl

/-- A change of the store that leaves the ledger, the local solver and the interior point. -/
theorem quiet_mapStore (t : Turn α) (f : CutStore α → CutStore α)
    (hl : (f t.store).ledger = t.store.ledger)
    (hs : (f t.store).fixedInteger.solver = t.store.fixedInteger.solver)
    (hi : (f t.store).interior = t.store.interior) : Quiet t (t.mapStore f) :=
  .of_calls_eq rfl rfl rfl hl hs hi rfl

/-- A call that is not the taking of a linearization. -/
theorem quiet_call (t : Turn α) (c : Call α) (h : c.takenHyperplane? = none) :
    Quiet t (t.call c) := by
  refine ⟨rfl, rfl, rfl, rfl, rfl, rfl, ?_, List.prefix_append _ _⟩
  simp only [Turn.cuts, Turn.call, List.filterMap_append, List.filterMap_cons, h,
    List.filterMap_nil, List.append_nil]

/-- A remark is quiet, and so are a failure and the start of a phase. -/
theorem quiet_note (t : Turn α) (remarks : List (Diagnostic α)) : Quiet t (t.note remarks) :=
  .of_calls_eq rfl rfl rfl rfl rfl rfl rfl

theorem quiet_fail (t : Turn α) (step : EventStep) (e : EngineError) : Quiet t (t.fail step e) :=
  quiet_note t _

theorem quiet_enter (t : Turn α) (phase : Phase) : Quiet t (t.enter phase) :=
  .of_calls_eq rfl rfl rfl rfl rfl rfl rfl

/-- A fold of quiet steps is quiet. -/
theorem quiet_foldl {β : Type} (f : Turn α × Nat → β → Turn α × Nat)
    (hf : ∀ acc b, Quiet acc.1 (f acc b).1) (l : List β) (acc : Turn α × Nat) :
    Quiet acc.1 (l.foldl f acc).1 := by
  induction l generalizing acc with
  | nil => exact .refl _
  | cons b rest ih => exact (hf acc b).trans (ih _)

/-- The progress of the engine is written down in the callback. -/
theorem quiet_recordProgress (t : Turn α) (e : Event α) : Quiet t (t.recordProgress e) := by
  unfold recordProgress
  cases e.explored <;> cases e.openNodes <;> exact .of_calls_eq rfl rfl rfl rfl rfl rfl rfl

/-- A candidate is recorded in its iteration, not in the bounds. -/
theorem quiet_recordIteration (t : Turn α) (objective : α) (c : Candidate α) :
    Quiet t (t.recordIteration objective c) :=
  .of_calls_eq rfl rfl rfl rfl rfl rfl rfl

/-- Handing over the incumbent is a call, and a remark if it is refused. -/
theorem quiet_submitIncumbent (t : Turn α) (e : Event α) (primal : α) :
    Quiet t (t.submitIncumbent e primal) := by
  simp only [submitIncumbent]
  split
  · exact .refl t
  · split
    · exact quiet_call t _ rfl
    · exact (quiet_call t _ rfl).trans (quiet_fail _ _ _)

variable [Scalar α]

/-- Where the point of a candidate solution came from, by its source. -/
inductive Offered (e : Event α) (t : Turn α) (x : Point α) : PrimalSource → Prop
  /-- The engine reported it. -/
  | solution (hreason : e.reason = .integerSolution) (hvalues : e.values = .ok x) :
      Offered e t x .integerSolution
  /-- The primal line search found it between the interior point and a solution that
      the engine reported. -/
  | line (inner : Candidate α) (y : Point α) (stop : LineSearch.Stopping α)
      (r : LineSearch.Result α) (hreason : e.reason = .integerSolution)
      (hvalues : e.values = .ok y) (hinner : t.store.interior.current = some inner)
      (hfind : LineSearch.find t.problem (t.problem.anchorAt inner.point y) y stop
        t.problem.constraintIndices false = .ok r)
      (hx : x = r.interior)
      (hinteger : t.problem.isIntegerFeasible x Session.integerTolerance = true) :
      Offered e t x .lineSearch
  /-- The local solver answered with it. -/
  | solved (solve : FixedIntegerSolver α) (asked : Nat) (c : Candidate α)
      (hsolver : t.store.fixedInteger.solver = some solve)
      (hanswer : solve asked t.problem c = some x) :
      Offered e t x .fixedInteger

/-- One step of handling an event. -/
inductive Step (e : Event α) : Turn α → Turn α → Prop
  /-- Nothing of interest. -/
  | quiet {t t' : Turn α} (h : Quiet t t') : Step e t t'
  /-- A candidate solution is offered, evaluated at a point of the right
      length. -/
  | primal (t : Turn α) (x : Point α) (n : Nat) (source : PrimalSource)
      (hlength : x.length = t.problem.dimension) (hfrom : Offered e t x source) :
      Step e t (t.mapSession (·.offerPrimal (t.problem.candidate x n) source))
  /-- A bound is offered. -/
  | dual (t : Turn α) (d : DualBound α) : Step e t (t.mapSession (·.offerDual d))
  /-- The interior point looks at the incumbent. -/
  | interior (t : Turn α) (rule : InteriorUpdate) : Step e t (t.mapStore fun s =>
      { s with interior := (s.interior.consider t.problem rule t.session.bounds.incumbent).1 })
  /-- The engine takes the linearization of a hyperplane, which is recorded. -/
  | cut (t : Turn α) (h : Hyperplane α) (l : Linearization α) (number : Nat)
      (hrow : t.problem.linearize h = .ok l) :
      Step e t ((t.call (.row .hyperplane l.row true)).mapStore fun s =>
        { s with ledger := s.ledger.record h number true (h.target.isConvex t.problem) none })

/-- Any number of steps. -/
def Steps (e : Event α) : Turn α → Turn α → Prop := Relation.ReflTransGen (Step e)

/-- No step at all. -/
theorem Steps.refl {e : Event α} {t : Turn α} : Steps e t t := Relation.ReflTransGen.refl

/-- One step. -/
theorem Step.steps {e : Event α} {t t' : Turn α} (h : Step e t t') : Steps e t t' :=
  Relation.ReflTransGen.single h

/-- Steps after steps. -/
theorem Steps.trans {e : Event α} {a b c : Turn α} (h1 : Steps e a b) (h2 : Steps e b c) :
    Steps e a c :=
  Relation.ReflTransGen.trans h1 h2

/-- A quiet step is one of the steps. -/
theorem Quiet.steps {e : Event α} {t t' : Turn α} (h : Quiet t t') : Steps e t t' :=
  (Step.quiet h).steps

/-- Steps followed by a quiet one. -/
theorem Steps.quiet {e : Event α} {a b c : Turn α} (h1 : Steps e a b) (h2 : Quiet b c) :
    Steps e a c :=
  h1.trans h2.steps

/-- No step changes the problem. -/
theorem Steps.problem {e : Event α} {t t' : Turn α} (h : Steps e t t') :
    t'.problem = t.problem := by
  induction h with
  | refl => rfl
  | tail _ hstep ih =>
      cases hstep with
      | quiet hq => exact hq.problem.trans ih
      | primal | dual | interior | cut => exact ih

/-- No step changes the settings. -/
theorem Steps.settings {e : Event α} {t t' : Turn α} (h : Steps e t t') :
    t'.session.settings = t.session.settings := by
  induction h with
  | refl => rfl
  | tail _ hstep ih =>
      cases hstep with
      | quiet hq => exact hq.settings.trans ih
      | primal | dual | interior | cut => exact ih

/-- Calls are only added. -/
theorem Steps.grows {e : Event α} {t t' : Turn α} (h : Steps e t t') : t.calls <+: t'.calls := by
  induction h with
  | refl => exact List.prefix_rfl
  | tail _ hstep ih =>
      cases hstep with
      | quiet hq => exact ih.trans hq.grows
      | primal | dual | interior => exact ih
      | cut => exact ih.trans (List.prefix_append _ _)

/-! ## Quiet functions -/

/-- All that a check does: it looks at the clock, and asks the engine to stop if there is a
    reason. -/
theorem exists_checkTermination_eq (t : Turn α) : ∃ journal,
    t.checkTermination =
      { callback := { t.callback with
          session := { t.session.look with journal }
          phase := .checkingTermination
          aborted := t.callback.aborted || t.session.stopReason?.isSome }
        calls := t.calls ++ if t.session.stopReason?.isSome then [.abort] else [] } := by
  have hentered : (t.enter .checkingTermination).session.stopReason? = t.session.stopReason? := rfl
  -- The reason is sought after the phase was entered, which does not matter.
  simp only [checkTermination, hentered]
  cases t.session.stopReason? with
  | none =>
    simp only [Option.isSome_none, Bool.or_false, Bool.false_eq_true, if_false, List.append_nil]
    exact ⟨_, rfl⟩
  | some reason =>
    simp only [Option.isSome_some, Bool.or_true, if_true]
    exact ⟨_, rfl⟩

/-- A check aborts if there is a reason to stop; an aborted callback stays so. -/
theorem aborted_checkTermination (t : Turn α) :
    t.checkTermination.callback.aborted =
      (t.callback.aborted || t.session.stopReason?.isSome) := by
  obtain ⟨_, hcheck⟩ := t.exists_checkTermination_eq
  rw [hcheck]

/-- A check is quiet: its call is a request to stop. -/
theorem quiet_checkTermination (t : Turn α) : Quiet t t.checkTermination := by
  refine (quiet_enter t .checkingTermination).trans ?_
  simp only [checkTermination]
  split
  · exact quiet_mapSession _ _ rfl rfl rfl
  · exact ⟨rfl, rfl, rfl, rfl, rfl, rfl, (quiet_call _ .abort rfl).cuts,
      List.prefix_append _ _⟩

/-- Requested hyperplanes wait, and are not in the ledger yet. -/
theorem quiet_requestCuts (t : Turn α) (c : Candidate α) (milp : Bool) :
    Quiet t (t.requestCuts c milp) :=
  .of_calls_eq rfl rfl rfl rfl rfl rfl rfl

theorem quiet_requestEpigraph (t : Turn α) (c : Candidate α) : Quiet t (t.requestEpigraph c) :=
  .of_calls_eq rfl rfl rfl rfl rfl rfl rfl

/-- A new iteration is quiet. -/
theorem quiet_ensureIteration (t : Turn α) : Quiet t t.ensureIteration := by
  unfold ensureIteration
  split
  · exact quiet_mapSession t _ rfl rfl rfl
  · exact .refl t

/-- So is closing one. -/
theorem quiet_closeIteration (t : Turn α) (c : Candidate α) (added : Nat) :
    Quiet t (t.closeIteration c added) :=
  .of_calls_eq rfl rfl rfl rfl rfl rfl rfl

/-- One no-good cut is handed over. -/
theorem quiet_flushIntegerCut (e : Event α) (acc : Turn α × Nat) (indices : List Nat) :
    Quiet acc.1 (flushIntegerCut e acc indices).1 := by
  simp only [flushIntegerCut]
  split
  · exact quiet_note _ _
  next row _ =>
    -- A no-good cut is a row of its own kind, taken or not.
    have hsubmit : Quiet acc.1 (acc.1.submit e .noGood row).1 := quiet_call _ _ rfl
    split
    next t err hanswer =>
      rw [hanswer] at hsubmit
      exact hsubmit.trans (quiet_fail _ _ _)
    next t hanswer =>
      rw [hanswer] at hsubmit
      exact hsubmit

/-- All of them are, and what was taken is counted. -/
theorem quiet_flushIntegerCuts (t : Turn α) (e : Event α) : Quiet t (t.flushIntegerCuts e) := by
  simp only [flushIntegerCuts]
  split
  · exact .refl t
  -- The queue is emptied, then folded over, and then the count is noted.
  · have hempty := quiet_mapStore t (fun s => { s with integerCuts := [] }) rfl rfl rfl
    have hfold := quiet_foldl _ (quiet_flushIntegerCut e) t.store.integerCuts
      (t.mapStore fun s => { s with integerCuts := [] }, 0)
    refine (hempty.trans hfold).trans ?_
    exact (quiet_mapSession _ _ rfl rfl rfl).trans (quiet_note _ _)

/-- A cutoff is a call and a remark. -/
theorem quiet_submitCutoff (t : Turn α) (e : Event α) (primal : α) :
    Quiet t (t.submitCutoff e primal) := by
  simp only [submitCutoff]
  split
  · exact (quiet_call t _ rfl).trans (quiet_note _ _)
  · exact (quiet_call t _ rfl).trans (quiet_fail _ _ _)

/-- Both calls about the incumbent are quiet. -/
theorem quiet_injectIncumbent (t : Turn α) (e : Event α) : Quiet t (t.injectIncumbent e) := by
  simp only [injectIncumbent]
  split
  · exact .refl t
  · have hsolution := quiet_submitIncumbent t e t.session.bounds.primalBound
    refine hsolution.trans (Quiet.trans ?_ (quiet_submitCutoff _ e _))
    exact .of_calls_eq rfl rfl rfl rfl rfl rfl rfl

/-! ## Functions that touch a ledger -/

/-- The bound of the engine is offered if it is news. -/
theorem steps_updateDualBound (t : Turn α) (e : Event α) : Steps e t (t.updateDualBound e) := by
  have henter : Steps e t (t.enter .updatingBounds) := (quiet_enter t _).steps
  refine henter.trans ?_
  simp only [updateDualBound]
  split
  · exact (quiet_fail _ _ _).steps
  · split
    · exact (Step.dual _ _).steps
    · exact .refl

/-- One hyperplane is discarded, refused, or taken and recorded. -/
theorem steps_flushHyperplane (e : Event α) (number : Nat) (acc : Turn α × Nat)
    (h : Hyperplane α) : Steps e acc.1 (flushHyperplane e number acc h).1 := by
  simp only [flushHyperplane]
  have hnote := quiet_note acc.1 (acc.1.problem.linearizeRemarks h)
  refine hnote.steps.trans ?_
  split
  · exact .refl
  next l hl =>
    split
    next t err hanswer =>
      -- A refused row is handed over but not taken.
      simp only [submit, Prod.mk.injEq] at hanswer
      rw [hanswer.2] at hanswer
      rw [← hanswer.1]
      exact ((quiet_call _ _ rfl).trans (quiet_fail _ _ _)).steps
    next t hanswer =>
      simp only [submit, Prod.mk.injEq] at hanswer
      rw [hanswer.2] at hanswer
      rw [← hanswer.1]
      exact (Step.cut _ h l number hl).steps

/-- So are any number of hyperplanes, one after the other. -/
theorem steps_foldFlush (e : Event α) (number : Nat) (hs : List (Hyperplane α))
    (acc : Turn α × Nat) : Steps e acc.1 (hs.foldl (flushHyperplane e number) acc).1 := by
  induction hs generalizing acc with
  | nil => exact .refl
  | cons h rest ih => exact (steps_flushHyperplane e number acc h).trans (ih _)

/-- All that wait are discarded, refused, or taken and recorded. -/
theorem steps_flushHyperplanes (t : Turn α) (e : Event α) :
    Steps e t (t.flushHyperplanes e).1 := by
  -- Emptying the list is quiet, and so is counting what was taken.
  have hempty := (quiet_mapStore t (fun s => { s with waiting := [] }) rfl rfl rfl).steps (e := e)
  have hflush := hempty.trans (steps_foldFlush e t.iteration t.store.waiting (_, 0))
  simp only [flushHyperplanes]
  split
  · exact hflush
  · exact hflush.quiet (.of_calls_eq rfl rfl rfl rfl rfl rfl rfl)

/-- A relaxation is cut off: hyperplanes are requested, handed over and counted. -/
theorem steps_cutRelaxation (t : Turn α) (e : Event α) (values : Point α) :
    Steps e t (t.cutRelaxation e values) := by
  simp only [cutRelaxation]
  refine Steps.quiet ?_ (quiet_mapSession _ _ rfl rfl rfl)
  refine Steps.trans ?_ (steps_flushHyperplanes _ e)
  exact ((quiet_enter t .generatingCuts).trans (quiet_requestCuts _ _ false)).steps

/-- A node relaxation that is not optimal, has no room, or cannot be read is passed over. -/
theorem steps_relaxationNode (t : Turn α) (e : Event α) : Steps e t (t.relaxationNode e) := by
  simp only [relaxationNode]
  split
  · exact (quiet_fail t _ _).steps
  · exact .refl
  · split
    · exact .refl
    · split
      · exact (quiet_fail t _ _).steps
      · split
        · exact steps_cutRelaxation t e _
        · exact (quiet_note t _).steps

/-- An integer solution is offered as it was reported. -/
theorem steps_offerSolution (t : Turn α) (e : Event α) (objective : α) (x : Point α) (n : Nat)
    (hreason : e.reason = .integerSolution) (hvalues : e.values = .ok x)
    (hlength : x.length = t.problem.dimension) :
    Steps e t (t.offerSolution objective (t.problem.candidate x n)) := by
  simp only [offerSolution]
  split
  · exact (Step.primal t x n _ hlength (.solution hreason hvalues)).steps
  · exact .refl

end Turn

/-- The primal line search finds something exactly if the candidate is outside, some variable is
    not discrete, and the inner end of the line search from the anchor is integral and within
    the tolerance. -/
theorem Session.primalSearch_eq_some_iff [Scalar α] {s : Session α}
    {interior c found : Candidate α} :
    s.primalSearch interior c = some found ↔
      0.0 < c.deviationValue ∧ s.problem.isPureDiscrete = false ∧
        ∃ r, LineSearch.find s.problem (s.problem.anchorAt interior.point c.point) c.point
            ⟨s.settings.boundary.maxIterations, s.settings.boundary.widthTolerance, 0.0⟩
            s.problem.constraintIndices false = .ok r ∧
          s.problem.isIntegerFeasible r.interior integerTolerance = true ∧
          (∀ d ∈ s.problem.maxDeviation r.interior,
            ¬ s.settings.termination.constraintTolerance < d.value) ∧
          s.problem.candidate r.interior c.iteration = found := by
  -- The guard of the program, read as a proposition.
  have hmoves : (!(decide (0.0 < c.deviationValue)) || s.problem.isPureDiscrete) = false ↔
      0.0 < c.deviationValue ∧ s.problem.isPureDiscrete = false := by
    rw [Bool.or_eq_false_iff, Bool.not_eq_false', decide_eq_true_iff]
  rw [← and_assoc, ← hmoves]
  simp only [primalSearch, primalLine?]
  -- With the guard closed there is nothing to find; past it the line search decides.
  cases hstay : !(decide (0.0 < c.deviationValue)) || s.problem.isPureDiscrete with
  | true => simp only [if_true, reduceCtorEq, Bool.true_eq_false, false_and]
  | false =>
      simp only [Bool.false_eq_true, if_false, true_and]
      cases LineSearch.find s.problem (s.problem.anchorAt interior.point c.point) c.point
          ⟨s.settings.boundary.maxIterations, s.settings.boundary.widthTolerance, 0.0⟩
          s.problem.constraintIndices false with
      | error e => simp only [reduceCtorEq, false_and, exists_false]
      | ok r =>
          simp only [Except.ok.injEq, exists_eq_left', Option.ite_none_left_eq_some,
            Bool.not_eq_true', Bool.not_eq_false, Option.any_eq_true, Problem.candidate,
            decide_eq_true_iff, not_exists, not_and, Option.mem_def, Option.some.injEq]

/-- What the primal line search finds is a candidate at the inner end of a line search
    towards the candidate it was given, an integral point of the right length. -/
theorem Session.primalSearch_eq_some [Scalar α] {s : Session α} {interior c found : Candidate α}
    (h : s.primalSearch interior c = some found) :
    ∃ stop r, LineSearch.find s.problem (s.problem.anchorAt interior.point c.point) c.point stop
        s.problem.constraintIndices false = .ok r ∧
      found = s.problem.candidate r.interior c.iteration ∧
      r.interior.length = s.problem.dimension ∧
      s.problem.isIntegerFeasible r.interior integerTolerance = true := by
  obtain ⟨-, -, r, hfind, hinteger, -, rfl⟩ := primalSearch_eq_some_iff.1 h
  refine ⟨_, r, hfind, rfl, ?_, hinteger⟩
  -- The search was asked for the segment from the anchor to the candidate.
  rcases LineSearch.find_onSegment hfind with ⟨hinner, houter, hsegment⟩
  rw [hsegment.length_interior (hinner.trans houter.symm), hinner]

/-- A solution of the local solver is the answer it gave, evaluated. -/
theorem FixedIntegerQueue.outcome_eq_solution [Scalar α] {q : FixedIntegerQueue α}
    {p : Problem α} {c found : Candidate α} (h : q.outcome p c = .solution found) :
    ∃ solve x, q.solver = some solve ∧ solve q.asked p c = some x ∧
      x.length = p.dimension ∧ found = p.candidate x c.iteration := by
  -- All other ways lead to an outcome of another kind.
  simp only [outcome] at h
  split at h
  · simp only [reduceCtorEq] at h
  next solve hsolver =>
    split at h
    · simp only [deadEnd] at h
      split at h <;> simp only [reduceCtorEq] at h
    next x hanswer =>
      split at h
      next hlength =>
        exact ⟨solve, x, hsolver, hanswer, hlength, (FixedIntegerOutcome.solution.inj h).symm⟩
      · simp only [reduceCtorEq] at h

namespace Turn

variable [Scalar α]

/-- A search along the line offers what it finds, with where it comes from. -/
theorem steps_searchPrimal (t : Turn α) (e : Event α) (c : Candidate α)
    (hreason : e.reason = .integerSolution) (hvalues : e.values = .ok c.point) :
    Steps e t (t.searchPrimal c) := by
  simp only [searchPrimal]
  split
  · exact .refl
  · split
    · exact .refl
    next inner hinner =>
      split
      next found hfound =>
        rcases Session.primalSearch_eq_some hfound with ⟨stop, r, hfind, rfl, hlength, hinteger⟩
        have hnote := quiet_note t (t.session.primalSearchRemarks inner c)
        -- What is found is the inner end of a search towards a reported solution.
        have hoffered : Offered e (t.note (t.session.primalSearchRemarks inner c)) r.interior
            .lineSearch :=
          .line inner c.point stop r hreason hvalues hinner hfind rfl hinteger
        exact hnote.steps.trans (Step.primal (t.note _) r.interior _ _ hlength hoffered).steps
      · exact (quiet_note t _).steps

/-- The local solver is asked, and its answer offered or turned into a cut that
    waits. -/
theorem steps_fixIntegers (t : Turn α) (e : Event α) (c : Candidate α) :
    Steps e t (t.fixIntegers c) := by
  have hsolver := t.store.fixedInteger.solver_enrol t.session.settings.primal.fixedInteger
    t.problem c
  simp only [fixIntegers]
  -- It is decided on the candidate first; the solver is the same before and after.
  generalize t.store.fixedInteger.enrol t.session.settings.primal.fixedInteger t.problem c
    = queue at hsolver ⊢
  split
  · exact (quiet_mapStore t _ rfl hsolver rfl).steps
  · have hafter : queue.afterAsking.solver = t.store.fixedInteger.solver :=
      (FixedIntegerQueue.solver_afterAsking queue).trans hsolver
    split
    next found hfound =>
      rcases FixedIntegerQueue.outcome_eq_solution hfound with
        ⟨solve, x, hsome, hanswer, hlength, rfl⟩
      refine (Quiet.steps ?_).trans (Step.steps (.primal _ x c.iteration _ hlength ?_))
      · exact .of_calls_eq rfl rfl rfl rfl hafter rfl rfl
      · exact .solved solve queue.asked c (hafter.trans (hsolver.symm.trans hsome)) hanswer
    · exact Quiet.steps (.of_calls_eq rfl rfl rfl rfl hafter rfl rfl)
    · exact Quiet.steps (.of_calls_eq rfl rfl rfl rfl hafter rfl rfl)

/-- Letting the interior point follow the incumbent is a step of its own. -/
theorem steps_refineInterior (t : Turn α) (e : Event α) : Steps e t t.refineInterior := by
  simp only [refineInterior]
  split
  · exact .refl
  · exact (quiet_note t _).steps.trans (Step.interior (t.note _) _).steps

/-- The turn in which the hyperplanes that cut off a solution are chosen. -/
def refined (t : Turn α) : Turn α := (t.enter .generatingCuts).refineInterior

/-- The turn once they are requested. -/
def requested (t : Turn α) (c : Candidate α) : Turn α :=
  (t.refined.requestCuts c true).requestEpigraph c

/-- The interior point looks at the incumbent before anything is chosen. -/
theorem steps_refined (t : Turn α) (e : Event α) : Steps e t t.refined :=
  (quiet_enter t .generatingCuts).steps.trans (steps_refineInterior _ e)

/-- Choosing hyperplanes adds quiet steps only. -/
theorem steps_requested (t : Turn α) (e : Event α) (c : Candidate α) :
    Steps e t (t.requested c) :=
  ((steps_refined t e).quiet (quiet_requestCuts _ c true)).quiet (quiet_requestEpigraph _ c)

/-- What is left to do after the hyperplanes of a solution are handed over: the steps of
    its parts, one after the other. -/
theorem steps_afterFlush (t : Turn α) (e : Event α) (objective : α) (c : Candidate α)
    (hreason : e.reason = .integerSolution) (hvalues : e.values = .ok c.point) :
    Steps e ((t.requested c).flushHyperplanes e).1 (t.cutOff e objective c) := by
  -- Three of the parts are done on a condition; either way they are quiet.
  have hnoted : ∀ (u : Turn α) (added : Nat),
      Quiet u (if added = 0 then u.note [.noHyperplane c.objective] else u) := by
    intro u added
    split
    · exact quiet_note u _
    · exact .refl u
  have hnoGood : ∀ u : Turn α,
      Quiet u (if u.session.settings.dual.useIntegerCuts then u.flushIntegerCuts e else u) := by
    intro u
    split
    · exact quiet_flushIntegerCuts u e
    · exact .refl u
  have hinject : ∀ u : Turn α, Quiet u (if u.callback.aborted then u else u.injectIncumbent e) := by
    intro u
    split
    · exact .refl u
    · exact quiet_injectIncumbent u e
  simp only [cutOff]
  -- From the last part to the first.
  refine Steps.quiet ?_ (hinject _)
  refine Steps.quiet ?_ (quiet_checkTermination _)
  refine Steps.quiet ?_ (quiet_closeIteration _ _ _)
  refine Steps.quiet ?_ (hnoGood _)
  refine Steps.trans ?_ (steps_fixIntegers _ e c)
  refine Steps.trans ?_ (steps_searchPrimal _ e c hreason hvalues)
  refine Steps.quiet ?_ (quiet_recordIteration _ _ _)
  exact (hnoted _ _).steps

/-- Cutting off a solution: hyperplanes are requested, handed over, and the rest follows. -/
theorem steps_cutOff (t : Turn α) (e : Event α) (objective : α) (c : Candidate α)
    (hreason : e.reason = .integerSolution) (hvalues : e.values = .ok c.point) :
    Steps e t (t.cutOff e objective c) :=
  ((steps_requested t e c).trans (steps_flushHyperplanes _ e)).trans
    (steps_afterFlush t e objective c hreason hvalues)

/-- A solution is offered, and cut off if it is not accepted. -/
theorem steps_considerSolution (t : Turn α) (e : Event α) (objective : α) (x : Point α)
    (hreason : e.reason = .integerSolution) (hvalues : e.values = .ok x)
    (hlength : x.length = t.problem.dimension) :
    Steps e t (t.considerSolution e objective x) := by
  -- An iteration is opened, the point is offered as it was read, and only then is it checked.
  have hopen := quiet_ensureIteration t
  have hoffer := steps_offerSolution t.ensureIteration e objective x t.ensureIteration.iteration
    hreason hvalues (by rw [problem, hopen.problem]; exact hlength)
  have hcheck := (hopen.steps.trans hoffer).quiet (quiet_checkTermination _)
  simp only [considerSolution]
  split
  · exact hcheck
  · split
    · exact hcheck.quiet (quiet_note _ _)
    · exact hcheck.trans (steps_cutOff _ e _ _ hreason hvalues)

/-- A solution of the wrong length is never offered. -/
theorem steps_integerSolution (t : Turn α) (e : Event α)
    (hreason : e.reason = .integerSolution) : Steps e t (t.integerSolution e) := by
  simp only [integerSolution]
  split
  · exact (quiet_fail t _ _).steps
  · split
    · exact (quiet_fail t _ _).steps
    next x hvalues =>
      split
      next hlength => exact steps_considerSolution t e _ x hreason hvalues hlength
      · exact (quiet_note t _).steps

/-- Whatever the kind of the event. -/
theorem steps_dispatch (t : Turn α) (e : Event α) : Steps e t (t.dispatch e) := by
  simp only [dispatch]
  split
  · exact (quiet_recordProgress t e).steps
  · exact steps_relaxationNode t e
  next hreason => exact steps_integerSolution t e hreason
  · exact .refl

/-- An event between its two checks. -/
theorem steps_active (t : Turn α) (e : Event α) : Steps e t (t.active e) := by
  -- Phases and checks frame the event and are quiet.
  have hopen : Quiet t ((t.enter .evaluatingNode).checkTermination) :=
    (quiet_enter t _).trans (quiet_checkTermination _)
  have hcheck : ∀ u : Turn α, Quiet u (if u.callback.aborted then u else u.checkTermination) := by
    intro u
    split
    · exact .refl u
    · exact quiet_checkTermination u
  simp only [active]
  split
  · exact (hopen.trans (quiet_enter _ _)).steps
  · refine Steps.quiet ?_ (quiet_enter _ _)
    refine Steps.quiet ?_ (hcheck _)
    exact (hopen.steps.trans (steps_updateDualBound _ e)).trans (steps_dispatch _ e)

end Turn

/-- Handling an event is a sequence of steps, from the callback as it was. -/
theorem Callback.steps_handle [Scalar α] (c : Callback α) (e : Event α) :
    Turn.Steps e ⟨c, []⟩ (c.handle e) := by
  simp only [handle]
  -- An aborted callback does nothing, and an event of no interest is only counted.
  split
  · exact .refl
  · split
    · exact Turn.Quiet.steps ⟨rfl, rfl, rfl, rfl, rfl, rfl, rfl, List.nil_prefix⟩
    · refine Turn.Steps.trans (Turn.Quiet.steps ?_) (Turn.steps_active ⟨c.counted, []⟩ e)
      exact .of_calls_eq rfl rfl rfl rfl rfl rfl rfl

end OuterApprox
