import OuterApprox.Proofs.Separation

/-!
# Rejected candidates

An integer solution that is not accepted gets a row that it violates, in the very
event that reported it. Among the hyperplanes asked for there is one that cuts the
solution off; here it is followed to the engine. It waits, it can be linearized,
it is handed over with everything else that waits, and nothing that happens
afterwards takes a call back. An engine that respects the rows it took will
therefore not report the solution again in the same search.

The choice of hyperplanes depends on the interior point at that moment, which may
have followed the incumbent since the solve began, even in the same event. So the
statement is about whole solves: the interior point is inside at the beginning,
the points that engine and local solver come up with are made of numbers, and
then it is inside whenever it is used. How candidates are projected does not
matter, and neither do the budget and the tolerances of line searches, the
selection factor or the cap on hyperplanes.

Whether a solution is rejected is read off the callback and the event. It is when
the event gets past both checks for termination, the one at the beginning and the
one after the solution is offered, and the solution needs cuts.

## Main definitions

* `Callback.offered`, `Callback.Rejects`: An event rejects a solution.
* `Turn.AllTaken`: The engine took every row of an event.
* `Trace.RespectsRows`: Solutions satisfy the rows that came before them.

## Theorems

* `Turn.mem_calls_flushHyperplanes`: What waits and can be linearized is handed
  over.
* `Turn.mem_waiting_requested`: What is asked for waits.
* `Callback.Rejects.exists_cutOff`: A rejected solution is cut off.
* `Callback.Rejects.exists_violated`: It violates a row of its event.
* `Solver.rejected_separated`: So does every one in a solve, and an engine that
  respects its rows does not report it again.
-/

namespace OuterApprox

variable {α : Type} [Scalar α]

namespace Turn

/-! ## What is waiting is handed over -/

/-- A hyperplane that can be linearized is handed over, whether the engine takes it or
    not. -/
theorem mem_calls_flushHyperplane (e : Event α) (number : Nat) (acc : Turn α × Nat)
    {h : Hyperplane α} {l : Linearization α} (hl : acc.1.problem.linearize h = .ok l) :
    ∃ taken, .row .hyperplane l.row taken ∈ (flushHyperplane e number acc h).1.calls := by
  have hnoted : (acc.1.note (acc.1.problem.linearizeRemarks h)).problem.linearize h = .ok l := hl
  simp only [flushHyperplane, hnoted, submit]
  split
  next t err heq =>
    rw [Prod.mk.injEq] at heq
    rw [← heq.1]
    exact ⟨_, List.mem_append_right _ (List.mem_singleton.2 rfl)⟩
  next t heq =>
    rw [Prod.mk.injEq] at heq
    rw [← heq.1]
    exact ⟨_, List.mem_append_right _ (List.mem_singleton.2 rfl)⟩

/-- Every hyperplane that is waiting and can be linearized is handed over. -/
theorem mem_calls_flushHyperplanes {t : Turn α} (e : Event α) {h : Hyperplane α}
    {l : Linearization α} (hwaiting : h ∈ t.store.waiting) (hl : t.problem.linearize h = .ok l) :
    ∃ taken, .row .hyperplane l.row taken ∈ (t.flushHyperplanes e).1.calls := by
  have hfold : ∀ (hs : List (Hyperplane α)) (acc : Turn α × Nat), h ∈ hs →
      acc.1.problem.linearize h = .ok l →
      ∃ taken, .row .hyperplane l.row taken ∈
        (hs.foldl (flushHyperplane e t.iteration) acc).1.calls := by
    intro hs
    induction hs with
    | nil => intro acc hmem; exact absurd hmem List.not_mem_nil
    | cons u rest ih =>
        intro acc hmem hlinear
        rcases List.mem_cons.1 hmem with rfl | hrest
        · -- Once it is among the calls it stays there.
          rcases mem_calls_flushHyperplane e t.iteration acc hlinear with ⟨taken, hcall⟩
          exact ⟨taken, (steps_foldFlush e t.iteration rest _).grows.subset hcall⟩
        · have hproblem := (steps_flushHyperplane e t.iteration acc u).problem
          exact ih _ hrest (hproblem ▸ hlinear)
  rcases hfold t.store.waiting (t.mapStore fun s => { s with waiting := [] }, 0) hwaiting hl with
    ⟨taken, hcall⟩
  refine ⟨taken, ?_⟩
  simp only [flushHyperplanes]
  split
  · exact hcall
  · exact hcall

/-- What is asked for at a solution is waiting before it is handed over. -/
theorem mem_waiting_requested {t : Turn α} {c : Candidate α} {h : Hyperplane α}
    (hmem : h ∈ (t.refined.session.select t.refined.callback.strategy
        t.refined.store.interior.current [c] true).hyperplanes ++
      (t.refined.session.epigraphRequests [c]).hyperplanes) :
    h ∈ (t.requested c).store.waiting := by
  -- Requests go to the end of what is waiting, the objective's last.
  have hwaiting : (t.requested c).store.waiting = t.refined.store.waiting ++
      (t.refined.session.select t.refined.callback.strategy
        t.refined.store.interior.current [c] true).hyperplanes ++
      (t.refined.session.epigraphRequests [c]).hyperplanes := rfl
  rw [hwaiting, List.append_assoc]
  exact List.mem_append_right _ hmem

/-! ## Reaching the cuts -/

/-- A check that finds no reason to stop changes nothing but the phase and the clock. -/
theorem checkTermination_of_none {t : Turn α} (h : t.session.stopReason? = none) :
    t.checkTermination = (t.enter .checkingTermination).mapSession (·.look) := by
  have hentered : (t.enter .checkingTermination).session.stopReason? = none := h
  simp only [checkTermination, hentered]

/-- A solution that is offered, gives no reason to stop and is not accepted is cut off. -/
theorem considerSolution_eq_cutOff {t : Turn α} {e : Event α} {objective : α} {x : Point α}
    {c : Candidate α} (hc : c = t.ensureIteration.problem.candidate x t.ensureIteration.iteration)
    (hgoes : (t.ensureIteration.offerSolution objective c).checkTermination.callback.aborted
      = false)
    (hnot : (t.ensureIteration.offerSolution objective c).checkTermination.session.accepts c
      = false) :
    t.considerSolution e objective x =
      (t.ensureIteration.offerSolution objective c).checkTermination.cutOff e objective c := by
  subst hc
  simp only [considerSolution]
  rw [if_neg (Bool.eq_false_iff.1 hgoes), if_neg (Bool.eq_false_iff.1 hnot)]

theorem aborted_updateDualBound (t : Turn α) (e : Event α) :
    (t.updateDualBound e).callback.aborted = t.callback.aborted := by
  simp only [updateDualBound]
  split
  · rfl
  · split <;> rfl

theorem aborted_ensureIteration (t : Turn α) :
    t.ensureIteration.callback.aborted = t.callback.aborted := by
  unfold ensureIteration
  split <;> rfl

theorem aborted_offerSolution (t : Turn α) (objective : α) (c : Candidate α) :
    (t.offerSolution objective c).callback.aborted = t.callback.aborted := by
  unfold offerSolution
  split <;> rfl

end Turn

theorem Session.accepts_congr {s s' : Session α} (hp : s'.problem = s.problem)
    (hs : s'.settings = s.settings) (c : Candidate α) : s'.accepts c = s.accepts c := by
  simp only [accepts, objectiveNeedsCuts, hp, hs]

namespace Callback

/-- The turn that handles an event, once it was checked that there is no reason to stop. -/
def opened (c : Callback α) : Turn α :=
  ((⟨c.counted, []⟩ : Turn α).enter .evaluatingNode).checkTermination

/-- The turn in which an integer solution is considered. -/
def considering (c : Callback α) (e : Event α) : Turn α :=
  (c.opened.updateDualBound e).ensureIteration

/-- The turn in which an integer solution, reported with an objective, was offered. -/
def offered (c : Callback α) (e : Event α) (objective : α) (x : Point α) : Turn α :=
  let t := c.considering e
  t.offerSolution objective (t.problem.candidate x t.iteration)

/-- An event reports an integer solution to a callback that was not asked to stop, there
    is no reason to stop before or after the solution is offered, and it is not
    accepted. -/
structure Rejects (c : Callback α) (e : Event α) (objective : α) (x : Point α) : Prop where
  /-- The event reports an integer solution. -/
  reason : e.reason = .integerSolution
  /-- Its objective can be read. -/
  read : e.objective = .ok objective
  /-- Its values can be read. -/
  values : e.values = .ok x
  /-- There is one value per variable. -/
  length : x.length = c.session.problem.dimension
  /-- The engine was not asked to stop. -/
  active : c.aborted = false
  /-- There is no reason to stop before the event is handled. -/
  before : c.session.stopReason? = none
  /-- There is no reason to stop once the solution is offered. -/
  after : (c.offered e objective x).session.stopReason? = none
  /-- The solution needs cuts. -/
  rejected : c.session.accepts (c.session.problem.candidate x 0) = false

instance [DecidableEq α] (c : Callback α) (e : Event α) (objective : α) (x : Point α) :
    Decidable (c.Rejects e objective x) :=
  decidable_of_iff
    (e.reason = .integerSolution ∧ e.objective = .ok objective ∧ e.values = .ok x ∧
      x.length = c.session.problem.dimension ∧ c.aborted = false ∧
      c.session.stopReason? = none ∧ (c.offered e objective x).session.stopReason? = none ∧
      c.session.accepts (c.session.problem.candidate x 0) = false)
    ⟨fun ⟨h1, h2, h3, h4, h5, h6, h7, h8⟩ => ⟨h1, h2, h3, h4, h5, h6, h7, h8⟩,
      fun h => ⟨h.reason, h.read, h.values, h.length, h.active, h.before, h.after, h.rejected⟩⟩

variable {c : Callback α} {e : Event α} {objective : α} {x : Point α}

theorem steps_opened (c : Callback α) (e : Event α) : Turn.Steps e ⟨c, []⟩ c.opened := by
  have hcounted : Turn.Quiet ⟨c, []⟩ ⟨c.counted, []⟩ := .of_calls_eq rfl rfl rfl rfl rfl rfl rfl
  have hentered := hcounted.trans (Turn.quiet_enter _ .evaluatingNode)
  exact (hentered.trans (Turn.quiet_checkTermination _)).steps

theorem steps_considering (c : Callback α) (e : Event α) :
    Turn.Steps e ⟨c, []⟩ (c.considering e) :=
  ((steps_opened c e).trans (Turn.steps_updateDualBound _ e)).quiet (Turn.quiet_ensureIteration _)

theorem Rejects.steps_offered (h : c.Rejects e objective x) :
    Turn.Steps e ⟨c, []⟩ (c.offered e objective x) := by
  have hsteps := steps_considering c e
  exact hsteps.trans (Turn.steps_offerSolution _ e objective x _ h.reason h.values
    (hsteps.problem ▸ h.length))

theorem aborted_opened (h : c.session.stopReason? = none) :
    c.opened.callback.aborted = c.aborted := by
  have hentered : ((⟨c.counted, []⟩ : Turn α).enter .evaluatingNode).session.stopReason? = none :=
    h
  rw [opened, Turn.checkTermination_of_none hentered]
  rfl

/-- An event that is neither passive nor stopped at once is dispatched, and closed with a
    last check. -/
theorem handle_eq_dispatch (hpassive : e.reason.isPassive = false) (hactive : c.aborted = false)
    (hopened : c.opened.callback.aborted = false) :
    c.handle e =
      (if ((c.opened.updateDualBound e).dispatch e).callback.aborted then
          (c.opened.updateDualBound e).dispatch e
        else ((c.opened.updateDualBound e).dispatch e).checkTermination).enter .idle := by
  rw [opened] at hopened ⊢
  rw [handle, hpassive, if_neg Bool.false_ne_true, hactive, if_neg Bool.false_ne_true]
  simp only [Turn.active]
  rw [if_neg (Bool.eq_false_iff.1 hopened)]

/-- An event that rejects a solution is handled by cutting it off. -/
theorem Rejects.exists_cutOff (h : c.Rejects e objective x) :
    ∃ t n, Turn.Steps e ⟨c, []⟩ t ∧
      Turn.Steps e (t.cutOff e objective (c.session.problem.candidate x n)) (c.handle e) := by
  have hproblem : (c.considering e).problem = c.session.problem := (steps_considering c e).problem
  have hopened : c.opened.callback.aborted = false := (aborted_opened h.before).trans h.active
  have hsteps := h.steps_offered.quiet (Turn.quiet_checkTermination _)
  have hgoes : (c.offered e objective x).checkTermination.callback.aborted = false := by
    rw [Turn.checkTermination_of_none h.after]
    change (c.offered e objective x).callback.aborted = false
    rw [offered, Turn.aborted_offerSolution, considering, Turn.aborted_ensureIteration,
      Turn.aborted_updateDualBound]
    exact hopened
  have hnot : (c.offered e objective x).checkTermination.session.accepts
      (c.session.problem.candidate x (c.considering e).iteration) = false := by
    rw [Session.accepts_congr hsteps.problem hsteps.settings]
    exact h.rejected
  -- The turn to cut off from is the one after the second check.
  refine ⟨(c.offered e objective x).checkTermination, (c.considering e).iteration, hsteps, ?_⟩
  rw [← hproblem] at hnot ⊢
  have hconsider : (c.opened.updateDualBound e).considerSolution e objective x =
      (c.offered e objective x).checkTermination.cutOff e objective
        ((c.considering e).problem.candidate x (c.considering e).iteration) :=
    Turn.considerSolution_eq_cutOff rfl hgoes hnot
  -- The point has the right length, so it is considered at all.
  have hbounded := (steps_opened c e).trans (Turn.steps_updateDualBound _ e)
  have hlength : x.length = (c.opened.updateDualBound e).problem.dimension :=
    h.length.trans (congrArg Problem.dimension hbounded.problem).symm
  have hdispatch : (c.opened.updateDualBound e).dispatch e =
      (c.opened.updateDualBound e).considerSolution e objective x := by
    simp only [Turn.dispatch, h.reason, Turn.integerSolution, h.read, h.values]
    rw [if_pos hlength]
  rw [handle_eq_dispatch (h.reason ▸ rfl) h.active hopened, hdispatch, hconsider]
  refine Turn.Steps.quiet (Turn.Quiet.steps ?_) (Turn.quiet_enter _ .idle)
  split
  · exact .refl _
  · exact Turn.quiet_checkTermination _

end Callback

/-- Every row that was handed over in a turn was taken. -/
def Turn.AllTaken (t : Turn α) : Prop :=
  ∀ call ∈ t.calls, call.isRow = true → call.takenRow?.isSome = true

instance (t : Turn α) : Decidable t.AllTaken :=
  inferInstanceAs (Decidable (∀ call ∈ t.calls, call.isRow = true → call.takenRow?.isSome = true))

/-- Every integer solution satisfies the rows that were taken before it. -/
def Trace.RespectsRows (τ : Trace α) : Prop :=
  τ.Pairwise fun earlier later => later.2.reason = .integerSolution → ∀ y, later.2.values = .ok y →
    ∀ call ∈ (earlier.1.handle earlier.2).calls, ∀ row ∈ call.takenRow?, row.Satisfied y

/-- An event that rejects a solution hands over a row that the solution violates. -/
theorem Callback.Rejects.exists_violated {p : Problem Exact} {given : Settings Exact}
    {solver : Option (FixedIntegerSolver Exact)} {c : Callback Exact} {e : Event Exact}
    {objective : Exact} {x : Point Exact} (h : c.Rejects e objective x) (hp : p.Regular)
    (hvalid : given.validate = .ok ()) (hsolver : ∀ solve ∈ solver, solve.AnswersNumbers p)
    (hevent : Session.Reported p Point.Finite e)
    (hkept : Session.Enclosed p given solver c.session c.store) :
    ∃ row taken, .row .hyperplane row taken ∈ (c.handle e).calls ∧ ¬ row.Satisfied x := by
  have hproblem : c.session.problem = p := hkept.kept.problem
  have hx : x.length = p.dimension := hproblem ▸ h.length
  have hxf : x.Finite := hevent h.reason x h.values hx
  rcases h.exists_cutOff with ⟨t, n, hbefore, hafter⟩
  -- The interior point is still inside when hyperplanes are chosen.
  have hsteps := hbefore.trans (Turn.steps_refined t e)
  have henclosed := hkept.steps hp.valued hsolver hevent hsteps
  have hrefined : t.refined.session.problem = c.session.problem := hsteps.problem
  have hsame : t.refined.session.problem = p := henclosed.kept.problem
  have hrejected : t.refined.session.accepts (t.refined.session.problem.candidate x n) = false := by
    rw [Session.accepts_congr hsteps.problem hsteps.settings, hrefined]
    exact h.rejected
  -- One of the hyperplanes asked for there cuts the solution off.
  rcases Session.exists_cutsOff (hsame ▸ hp) (henclosed.kept.settings ▸ hvalid)
    t.refined.callback.strategy (hsame ▸ henclosed.inside) (hsame ▸ hx) hxf n true hrejected with
    ⟨hyperplane, hmem, l, hl, hviolated⟩
  rw [hrefined] at hmem hl
  have hwaiting := Turn.mem_waiting_requested hmem
  have hrequested : (t.requested (c.session.problem.candidate x n)).problem = c.session.problem :=
    (hbefore.trans (Turn.steps_requested t e _)).problem
  rcases Turn.mem_calls_flushHyperplanes e hwaiting (hrequested ▸ hl) with ⟨taken, hcall⟩
  -- It is handed over, and what follows only adds calls.
  have hrest := (Turn.steps_afterFlush t e objective (c.session.problem.candidate x n) h.reason
    h.values).trans hafter
  exact ⟨l.row, taken, hrest.grows.subset hcall, hviolated⟩

/-- In a solve of a regular problem with an interior point that is inside, every event that
    rejects a solution, and whose rows are taken, adds a hyperplane row that the solution
    violates. In a search that respects the rows it took, that solution does not come
    back. -/
theorem Solver.rejected_separated {σ : Type} (E : Engine Exact σ) (s : Solver Exact σ)
    (hp : s.master.session.problem.Regular)
    (hvalid : s.master.session.settings.validate = .ok ())
    (hinterior : ∀ z ∈ s.master.store.interior.current, s.master.session.problem.Inside z.point)
    (hsolver : ∀ solve ∈ s.master.store.fixedInteger.solver,
      solve.AnswersNumbers s.master.session.problem)
    (hevents : ∀ e ∈ s.events E, Session.Reported s.master.session.problem Point.Finite e) :
    (∀ step ∈ s.trace E, ∀ objective x, step.1.Rejects step.2 objective x →
      (step.1.handle step.2).AllTaken →
        ∃ row, .row .hyperplane row true ∈ (step.1.handle step.2).calls ∧ ¬ row.Satisfied x) ∧
    ∀ m ∈ s.searches E, (m.searchTrace E).RespectsRows →
      (m.searchTrace E).Pairwise fun earlier later => ∀ objective x,
        earlier.1.Rejects earlier.2 objective x → (earlier.1.handle earlier.2).AllTaken →
          later.2.reason = .integerSolution → later.2.values ≠ .ok x := by
  have hsteps : ∀ step ∈ s.trace E,
      Session.Reported s.master.session.problem Point.Finite step.2 :=
    fun step hstep => hevents step.2 (List.mem_map_of_mem hstep)
  have hstart : Session.Enclosed s.master.session.problem s.master.session.settings
      s.master.store.fixedInteger.solver s.freshSession s.master.store :=
    ⟨s.kept_startMaster Point.Finite, hinterior⟩
  have hkept := (Session.enclosed_invariant hp.valued hsolver).solveTrace s hvalid hsteps hstart
  have hseparated : ∀ step ∈ s.trace E, ∀ objective x, step.1.Rejects step.2 objective x →
      (step.1.handle step.2).AllTaken →
        ∃ row, .row .hyperplane row true ∈ (step.1.handle step.2).calls ∧ ¬ row.Satisfied x := by
    intro step hstep objective x hrejects htaken
    rcases hrejects.exists_violated hp hvalid hsolver (hsteps step hstep) (hkept step hstep) with
      ⟨row, taken, hcall, hviolated⟩
    -- The engine took all rows, so it took this one.
    have hyes : taken = true := by
      cases taken with
      | true => rfl
      | false => exact absurd (htaken _ hcall rfl) Bool.false_ne_true
    exact ⟨row, hyes ▸ hcall, hviolated⟩
  refine ⟨hseparated, fun m hm hrespects => ?_⟩
  refine List.Pairwise.imp_of_mem ?_ hrespects
  -- A solution that came back would satisfy a row that it violates.
  intro earlier later hearlier _ hrow objective x hrejects htaken hreason hvalues
  rcases hseparated earlier (searchTrace_subset hm hearlier) objective x hrejects htaken with
    ⟨row, hcall, hviolated⟩
  exact hviolated (hrow hreason x hvalues _ hcall row rfl)

namespace Parabola

/-- An engine that reports a solution outside the interval, and one below the parabola
    alone. -/
def finder : Engine Exact (Tabular Exact) :=
  scriptedEngine
    [{ events := [Solver.found 0.0 [3.0, 0.0], Solver.found 0.0 [1.0, 0.0]]
       status := .ok .optimal
       finalBound := .ok 0.0
       ignoreAbort := false }]
    (.error (.notAvailable "elastic"))

/-- A solver that projects solutions from a point inside, with three evaluations for each
    line search. -/
def projected : Solver Exact (Tabular Exact) where
  master :=
    { session :=
        { problem
          settings := { Settings.standard with
            boundary := { (Settings.standard : Settings Exact).boundary with maxIterations := 3 } }
          bounds := .fresh .minimize Settings.standard.termination
          iterations := .empty
          statistics := {}
          clock := .still ⟨0⟩
          journal := #[] }
      store := { CutStore.empty with interior := ⟨some (problem.candidate [0.0, 1.0] 0), none⟩ }
      strategy := .supportingHyperplane
      engine := tables }
  initialHyperplanes := 0
  initialIntegerCuts := 0

theorem square_total : square.Total 2 := by
  intro x hx hxf
  have hcoord := hxf.coord (i := 0) (by omega)
  refine ⟨_, ?_, rfl, ?_⟩
  · change Scalar.isFinite (x.coord 0 * x.coord 0) = true
    rw [Exact.eq_finite hcoord, Exact.finite_mul, Exact.isFinite_finite]
  · intro t ht
    have ht : t = (0, x.coord 0 + x.coord 0) := List.mem_singleton.1 ht
    rw [ht]
    refine ⟨Nat.zero_lt_two, ?_, fun _ => hcoord⟩
    change Scalar.isFinite (x.coord 0 + x.coord 0) = true
    rw [Exact.eq_finite hcoord, Exact.finite_add, Exact.isFinite_finite]

theorem regular : problem.Regular where
  upper c hc := by
    rw [List.mem_singleton.1 hc]
    decide +kernel
  constraintTotal c hc := by
    rw [List.mem_singleton.1 hc]
    exact square_total
  constraintAbove c hc := by
    rw [List.mem_singleton.1 hc]
    exact square_aboveExpansions
  objectiveTotal := square_total
  objective := square_aboveExpansions
  independent := by
    rintro aux ⟨⟩ x v _ _
    have hfirst : (x.setCoord 1 (.finite v)).coord 0 = x.coord 0 := by
      rw [Point.coord, Point.setCoord, List.getElem?_set_ne (by decide), Point.coord]
    change (x.setCoord 1 (.finite v)).coord 0 * (x.setCoord 1 (.finite v)).coord 0 =
      x.coord 0 * x.coord 0
    rw [hfirst]

/-- Both solutions are cut off in their events, the first past the boundary and the second
    along the parabola, and the first does not come back. -/
theorem rejected_separated_parabola :
    (projected.trace finder).map (·.2.values) = [.ok [3.0, 0.0], .ok [1.0, 0.0]] ∧
    (∀ step ∈ projected.trace finder, ∃ x, step.2.values = .ok x ∧
      ∃ row, .row .hyperplane row true ∈ (step.1.handle step.2).calls ∧ ¬ row.Satisfied x) ∧
    (projected.startMaster.searchTrace finder).Pairwise fun earlier later =>
      later.2.values ≠ earlier.2.values := by
  have hrejects : ∀ step ∈ projected.trace finder,
      step.1.Rejects step.2 0.0 (step.2.values.toOption.getD []) ∧
        (step.1.handle step.2).AllTaken := by
    decide +kernel
  have hvalid : projected.master.session.settings.validate = .ok () :=
    (Settings.validate_eq_ok_iff _).2 (List.all_eq_true.1 (by decide +kernel))
  have hinside : problem.Inside [0.0, 1.0] := by
    refine ⟨rfl, by unfold Point.Finite; decide +kernel, fun c hc => ?_⟩
    rw [List.mem_singleton.1 hc]
    decide +kernel
  have hnumbers : ∀ e ∈ projected.events finder,
      ∀ v ∈ e.values.toOption.getD [], Scalar.isFinite v = true := by
    decide +kernel
  have hseparated := Solver.rejected_separated finder projected regular hvalid
    (by rintro z ⟨⟩; exact hinside) (by rintro solve ⟨⟩)
    (fun e he _ x hx _ v hv => hnumbers e he v (by rw [hx]; exact hv))
  have hsearched : projected.startMaster ∈ projected.searches finder := by
    refine List.mem_flatMap.2 ⟨projected.startMaster, ?_, List.mem_cons_self⟩
    simp only [Solver.rounds, hvalid, List.mem_cons_self]
  -- The second solution satisfies the rows that were taken at the first.
  have hrespects : (projected.startMaster.searchTrace finder).Pairwise fun earlier later =>
      ∀ call ∈ (earlier.1.handle earlier.2).calls, ∀ row ∈ call.takenRow?,
        row.Satisfied (later.2.values.toOption.getD []) := by
    decide +kernel
  refine ⟨by decide +kernel, fun step hstep => ?_, ?_⟩
  · rcases hrejects step hstep with ⟨hreject, htaken⟩
    exact ⟨_, hreject.values, hseparated.1 step hstep _ _ hreject htaken⟩
  · refine List.Pairwise.imp_of_mem ?_ (hseparated.2 _ hsearched (hrespects.imp ?_))
    · intro earlier later hearlier hlater hnew heq
      rcases hrejects earlier (Solver.searchTrace_subset hsearched hearlier) with
        ⟨hreject, htaken⟩
      have hreason := (hrejects later (Solver.searchTrace_subset hsearched hlater)).1.reason
      exact hnew _ _ hreject htaken hreason (heq.trans hreject.values)
    · intro earlier later hrows _ y hy call hcall row hrow
      have hsatisfied := hrows call hcall row hrow
      rw [hy] at hsatisfied
      exact hsatisfied

end Parabola

end OuterApprox
