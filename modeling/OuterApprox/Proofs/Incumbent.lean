import OuterApprox.Proofs.Course
import OuterApprox.Proofs.ScalarOrder
import OuterApprox.Proofs.TurnSteps
import OuterApprox.Engine.Scripted

/-!
# The incumbent

What the bound ledger says about the best solution is true at every moment of a
solve: its point has one coordinate per variable, the recorded objective and
deviation are those of the point, the deviation is within the tolerance, and the
primal bound is the recorded objective. While there is no incumbent the bound is
the infinite value it started with, and never afterwards.

Three sources offer candidates, and each evaluates its own. The engine's integer
solutions and the answers of the local solver are points from outside, so an
incumbent is integral if those are; the points of the primal line search are
tested before they are offered. The invariant carries one predicate on points,
which is true of whatever the three sources produce, and integrality is one
choice of it.

## Main definitions

* `Problem.Truthful`: What a bound and an incumbent have to do with a problem.
* `Session.Kept`: The invariant of a session.
* `Session.Supplied`: A predicate holds of all points that can be offered.
* `Solver.IntegralSources`: The points from outside are integral.

## Theorems

* `BoundLedger.judgePrimal_accepted`: What an accepted candidate passed.
* `Problem.Truthful.offerPrimal`: The offer of an evaluated point keeps the
  ledger truthful.
* `Session.Kept.step`, `Session.Kept.steps`: Steps keep the invariant.
* `Session.kept_invariant`: So does handling an event.
* `Solver.kept_sessions`: The invariant holds throughout a solve.
* `Solver.incumbent_truthful`: The ledger is truthful throughout a solve.
-/

namespace OuterApprox

variable {α : Type} [Scalar α]

/-- The bound and the incumbent of a ledger tell the truth about a problem. -/
structure Problem.Truthful (p : Problem α) (tolerance bound : α)
    (incumbent : Option (PrimalSolution α)) : Prop where
  /-- The bound is the one of the beginning exactly while there is no incumbent. -/
  worst_iff : bound = p.sense.worst ↔ incumbent = none
  /-- There is one coordinate per variable. -/
  length : ∀ i ∈ incumbent, i.candidate.point.length = p.dimension
  /-- The objective is the one of the point. -/
  objective : ∀ i ∈ incumbent, i.candidate.objective = p.objectiveValue i.candidate.point
  /-- The deviation is the one of the point. -/
  deviation : ∀ i ∈ incumbent, i.candidate.deviation = p.maxDeviation i.candidate.point
  /-- The deviation is within the tolerance, if there are constraints. -/
  feasible : ∀ i ∈ incumbent, ∀ d ∈ i.candidate.deviation, d.value ≤ tolerance
  /-- The bound is the objective. -/
  bound : ∀ i ∈ incumbent, bound = i.candidate.objective

theorem Problem.truthful_none (p : Problem α) (tolerance : α) :
    p.Truthful tolerance p.sense.worst none where
  worst_iff := ⟨fun _ => rfl, fun _ => rfl⟩
  length _ h := nomatch h
  objective _ h := nomatch h
  deviation _ h := nomatch h
  feasible _ h := nomatch h
  bound _ h := nomatch h

namespace BoundLedger

/-- An accepted candidate is feasible and improves the bound. -/
theorem judgePrimal_accepted {l : BoundLedger α} {c : Candidate α}
    (h : l.judgePrimal c = .accepted) :
    c.isFeasible l.constraintTolerance = true ∧ l.improvesPrimal c.objective = true := by
  unfold judgePrimal at h
  by_cases hfeasible : c.isFeasible l.constraintTolerance
  · refine ⟨hfeasible, ?_⟩
    by_cases himproves : l.improvesPrimal c.objective
    · exact himproves
    · simp only [hfeasible, himproves, Bool.not_true, Bool.not_false, Bool.or_true, if_true,
        Bool.false_eq_true, if_false, reduceCtorEq] at h
  · simp only [hfeasible, Bool.not_false, if_true, reduceCtorEq] at h

/-- An offer makes the candidate the incumbent or leaves bound and incumbent
    alone. -/
theorem offerPrimal_cases (l : BoundLedger α) (s : PrimalSolution α) :
    (l.judgePrimal s.candidate = .accepted ∧
      (l.offerPrimal s).primalBound = s.candidate.objective ∧
      (l.offerPrimal s).incumbent = some s) ∨
    ((l.offerPrimal s).primalBound = l.primalBound ∧
      (l.offerPrimal s).incumbent = l.incumbent) := by
  unfold offerPrimal
  split
  next h => exact .inl ⟨h, rfl, rfl⟩
  · exact .inr ⟨rfl, rfl⟩

@[simp] theorem sense_offerPrimal (l : BoundLedger α) (s : PrimalSolution α) :
    (l.offerPrimal s).sense = l.sense := by
  unfold offerPrimal
  split <;> rfl

@[simp] theorem constraintTolerance_offerPrimal (l : BoundLedger α) (s : PrimalSolution α) :
    (l.offerPrimal s).constraintTolerance = l.constraintTolerance := by
  unfold offerPrimal
  split <;> rfl

@[simp] theorem absoluteTolerance_offerPrimal (l : BoundLedger α) (s : PrimalSolution α) :
    (l.offerPrimal s).absoluteTolerance = l.absoluteTolerance := by
  unfold offerPrimal
  split <;> rfl

@[simp] theorem relativeTolerance_offerPrimal (l : BoundLedger α) (s : PrimalSolution α) :
    (l.offerPrimal s).relativeTolerance = l.relativeTolerance := by
  unfold offerPrimal
  split <;> rfl

@[simp] theorem dualBound_offerPrimal (l : BoundLedger α) (s : PrimalSolution α) :
    (l.offerPrimal s).dualBound = l.dualBound := by
  unfold offerPrimal
  split <;> rfl

@[simp] theorem sense_offerDual (l : BoundLedger α) (d : DualBound α) :
    (l.offerDual d).sense = l.sense := by
  unfold offerDual
  split <;> rfl

@[simp] theorem constraintTolerance_offerDual (l : BoundLedger α) (d : DualBound α) :
    (l.offerDual d).constraintTolerance = l.constraintTolerance := by
  unfold offerDual
  split <;> rfl

@[simp] theorem absoluteTolerance_offerDual (l : BoundLedger α) (d : DualBound α) :
    (l.offerDual d).absoluteTolerance = l.absoluteTolerance := by
  unfold offerDual
  split <;> rfl

@[simp] theorem relativeTolerance_offerDual (l : BoundLedger α) (d : DualBound α) :
    (l.offerDual d).relativeTolerance = l.relativeTolerance := by
  unfold offerDual
  split <;> rfl

@[simp] theorem primalBound_offerDual (l : BoundLedger α) (d : DualBound α) :
    (l.offerDual d).primalBound = l.primalBound := by
  unfold offerDual
  split <;> rfl

@[simp] theorem incumbent_offerDual (l : BoundLedger α) (d : DualBound α) :
    (l.offerDual d).incumbent = l.incumbent := by
  unfold offerDual
  split <;> rfl

end BoundLedger

theorem Candidate.le_of_isFeasible {c : Candidate α} {tolerance : α}
    (h : c.isFeasible tolerance = true) : ∀ d ∈ c.deviation, d.value ≤ tolerance := by
  intro d hd
  simp only [isFeasible, Option.mem_def.1 hd] at h
  exact of_decide_eq_true h

/-- The ledger stays truthful when a point of the right length is evaluated and
    offered. -/
theorem Problem.Truthful.offerPrimal [Scalar.ExtremeInfinity α] {p : Problem α}
    {l : BoundLedger α} (h : p.Truthful l.constraintTolerance l.primalBound l.incumbent)
    (hsense : l.sense = p.sense) (x : Point α) (n : Nat) (source : PrimalSource)
    (hlength : x.length = p.dimension) :
    p.Truthful l.constraintTolerance (l.offerPrimal ⟨p.candidate x n, source⟩).primalBound
      (l.offerPrimal ⟨p.candidate x n, source⟩).incumbent := by
  -- Either the new candidate takes over and was just evaluated, or nothing changes.
  rcases l.offerPrimal_cases ⟨p.candidate x n, source⟩ with ⟨haccepted, hb, hi⟩ | ⟨hb, hi⟩
  · rw [hb, hi]
    have hpassed := BoundLedger.judgePrimal_accepted haccepted
    -- A value that improves a bound is not the worst one.
    have hne : (p.candidate x n).objective ≠ p.sense.worst := by
      intro heq
      have hbetter := hpassed.2
      rw [heq, BoundLedger.improvesPrimal, hsense, Sense.not_better_worst] at hbetter
      exact Bool.false_ne_true hbetter
    refine ⟨⟨fun hw => absurd hw hne, fun hn => by simp only [reduceCtorEq] at hn⟩,
      ?_, ?_, ?_, ?_, ?_⟩ <;> rintro i ⟨⟩
    · exact hlength
    · rfl
    · rfl
    · exact Candidate.le_of_isFeasible hpassed.1
    · rfl
  · rw [hb, hi]
    exact h

namespace Session

/-- What stays true of a session and its cut store: the problem, the settings and
    the local solver are the given ones, and the bound ledger tells the truth
    about them. Of the points of incumbents, `Q` holds besides. -/
structure Kept (p : Problem α) (given : Settings α)
    (solver : Option (FixedIntegerSolver α)) (Q : Point α → Prop) (s : Session α)
    (st : CutStore α) : Prop where
  /-- The problem stays. -/
  problem : s.problem = p
  /-- The settings stay. -/
  settings : s.settings = given
  /-- The local solver stays. -/
  solver : st.fixedInteger.solver = solver
  /-- The ledger optimizes in the direction of the problem. -/
  sense : s.bounds.sense = p.sense
  /-- The ledger uses the tolerance of the settings. -/
  tolerance : s.bounds.constraintTolerance = given.termination.constraintTolerance
  /-- The ledger tells the truth. -/
  truthful : p.Truthful given.termination.constraintTolerance s.bounds.primalBound
    s.bounds.incumbent
  /-- The incumbent has the property of points that are offered. -/
  supplied : ∀ i ∈ s.bounds.incumbent, Q i.candidate.point

/-- A property holds of all points that an event reports as integer solutions. -/
def Reported (p : Problem α) (Q : Point α → Prop) (e : Event α) : Prop :=
  e.reason = .integerSolution → ∀ x, e.values = .ok x → x.length = p.dimension → Q x

/-- A property holds of all points that the heuristics can offer. -/
structure Supplied (p : Problem α) (solver : Option (FixedIntegerSolver α))
    (Q : Point α → Prop) : Prop where
  /-- It holds of what the primal line search offers. -/
  line : ∀ x, x.length = p.dimension → p.isIntegerFeasible x integerTolerance = true → Q x
  /-- It holds of what the local solver answers. -/
  solved : ∀ solve ∈ solver, ∀ asked c x, solve asked p c = some x →
    x.length = p.dimension → Q x

variable {p : Problem α} {given : Settings α} {solver : Option (FixedIntegerSolver α)}
variable {Q : Point α → Prop} {e : Event α}

/-- The invariant speaks of nothing but the problem, the settings, the bounds and the
    local solver. -/
theorem Kept.of_eq {s s' : Session α} {st st' : CutStore α} (h : Kept p given solver Q s st)
    (hp : s'.problem = s.problem) (hs : s'.settings = s.settings) (hb : s'.bounds = s.bounds)
    (hf : st'.fixedInteger.solver = st.fixedInteger.solver) : Kept p given solver Q s' st' :=
  ⟨hp.trans h.problem, hs.trans h.settings, hf.trans h.solver, hb ▸ h.sense, hb ▸ h.tolerance,
    hb ▸ h.truthful, hb ▸ h.supplied⟩

theorem Kept.offerDual {s : Session α} {st : CutStore α} (h : Kept p given solver Q s st)
    (d : DualBound α) : Kept p given solver Q (s.offerDual d) st where
  problem := h.problem
  settings := h.settings
  solver := h.solver
  sense := (BoundLedger.sense_offerDual _ _).trans h.sense
  tolerance := (BoundLedger.constraintTolerance_offerDual _ _).trans h.tolerance
  truthful := by
    simpa only [Session.offerDual, note, BoundLedger.primalBound_offerDual,
      BoundLedger.incumbent_offerDual] using h.truthful
  supplied := by
    simpa only [Session.offerDual, note, BoundLedger.incumbent_offerDual] using h.supplied

theorem Kept.offerPrimal [Scalar.ExtremeInfinity α] {s : Session α} {st : CutStore α}
    (h : Kept p given solver Q s st) (x : Point α) (n : Nat) (source : PrimalSource)
    (hlength : x.length = p.dimension) (hQ : Q x) :
    Kept p given solver Q (s.offerPrimal (p.candidate x n) source) st where
  problem := h.problem
  settings := h.settings
  solver := h.solver
  sense := (BoundLedger.sense_offerPrimal _ _).trans h.sense
  tolerance := (BoundLedger.constraintTolerance_offerPrimal _ _).trans h.tolerance
  -- The tolerance of the ledger is that of the settings, by which feasibility is judged.
  truthful := by
    have htruthful := h.truthful
    rw [← h.tolerance] at htruthful ⊢
    exact htruthful.offerPrimal h.sense x n source hlength
  -- An incumbent is the point just offered, or one from before.
  supplied := by
    intro i hi
    rcases s.bounds.offerPrimal_cases ⟨p.candidate x n, source⟩ with ⟨_, _, hnew⟩ | ⟨_, hold⟩
    · have heq : some ⟨p.candidate x n, source⟩ = some i := hnew.symm.trans hi
      rw [← Option.some.inj heq]
      exact hQ
    · exact h.supplied i (hold.symm.trans hi)

/-- The source of a candidate vouches for its point. -/
theorem Supplied.offered (hsource : Supplied p solver Q) (hevent : Reported p Q e)
    {t : Turn α} {x : Point α} {source : PrimalSource}
    (hproblem : t.problem = p) (hsolver : t.store.fixedInteger.solver = solver)
    (hlength : x.length = p.dimension) (h : Turn.Offered e t x source) : Q x := by
  cases h with
  | solution hreason hvalues => exact hevent hreason x hvalues hlength
  | line inner y stop r _ _ _ _ _ hinteger => exact hsource.line x hlength (hproblem ▸ hinteger)
  | solved solve asked c hsome hanswer =>
      exact hsource.solved solve (hsolver ▸ hsome) asked c x (hproblem ▸ hanswer) hlength

/-- Every step of a turn keeps the invariant, if the point it may offer has the
    property. -/
theorem Kept.step [Scalar.ExtremeInfinity α] {t t' : Turn α} (hstep : Turn.Step e t t')
    (hoffered : ∀ x source, x.length = p.dimension → Turn.Offered e t x source → Q x)
    (h : Kept p given solver Q t.session t.store) :
    Kept p given solver Q t'.session t'.store := by
  cases hstep with
  | quiet hq => exact h.of_eq hq.problem hq.settings hq.bounds hq.solver
  | primal x n source hlength hfrom =>
      have hproblem : t.problem = p := h.problem
      -- The source vouches for the point, and the offer evaluates it for this problem.
      have hQ := hoffered x source (hproblem ▸ hlength) hfrom
      rw [hproblem]
      exact h.offerPrimal x n source (hproblem ▸ hlength) hQ
  | dual d => exact h.offerDual d
  | interior rule => exact h.of_eq rfl rfl rfl rfl
  | cut hp l number hrow => exact h.of_eq rfl rfl rfl rfl

theorem Kept.steps [Scalar.ExtremeInfinity α] (hsource : Supplied p solver Q)
    (hevent : Reported p Q e) {t t' : Turn α} (hsteps : Turn.Steps e t t')
    (h : Kept p given solver Q t.session t.store) :
    Kept p given solver Q t'.session t'.store := by
  induction hsteps with
  | refl => exact h
  | tail _ hstep ih =>
      exact ih.step hstep fun x source hlength hfrom =>
        hsource.offered hevent ih.problem ih.solver hlength hfrom

/-- The invariant survives everything that happens in a solve, if the points from
    outside have the property. -/
theorem kept_invariant [Scalar.ExtremeInfinity α] (hsource : Supplied p solver Q) :
    Callback.Invariant (Reported p Q) (Kept p given solver Q) where
  event c e hevent h := Kept.steps hsource hevent (c.steps_handle e) h
  statistics _ _ _ h := h.of_eq rfl rfl rfl rfl
  note _ _ _ h := h.of_eq rfl rfl rfl rfl
  dual _ _ d h := h.offerDual d
  repaired _ _ h := h.of_eq rfl rfl rfl rfl

end Session

namespace Solver

variable {σ : Type}

theorem kept_startMaster (s : Solver α σ) (Q : Point α → Prop) :
    s.startMaster.Holds fun t st _ => Session.Kept s.master.session.problem
      s.master.session.settings s.master.store.fixedInteger.solver Q t st where
  problem := rfl
  settings := rfl
  solver := rfl
  sense := rfl
  tolerance := rfl
  truthful := Problem.truthful_none _ _
  supplied _ h := by cases h

/-- A solve with admissible settings gives a report, unless its queue has overflowed, and the
    figures are those of the final session. -/
theorem exists_report (E : Engine α σ) (s : Solver α σ)
    (hvalid : s.master.session.settings.validate = .ok ()) :
    ∃ r, (s.solve E).2 = answer (s.solve E).1.master.store r ∧
      r.primalBound = (s.solve E).1.master.session.bounds.primalBound ∧
      r.incumbent = (s.solve E).1.master.session.bounds.incumbent := by
  simp only [solve, hvalid]
  exact ⟨_, rfl, rfl, rfl⟩

/-- The invariant holds in every state of a solve, if the points from outside have
    the property. -/
theorem kept_sessions [Scalar.ExtremeInfinity α] (E : Engine α σ) (s : Solver α σ)
    (hvalid : s.master.session.settings.validate = .ok ()) {Q : Point α → Prop}
    (hsource : Session.Supplied s.master.session.problem
      s.master.store.fixedInteger.solver Q)
    (hevents : ∀ e ∈ s.events E, Session.Reported s.master.session.problem Q e) :
    ∀ t ∈ s.sessions E, ∃ st, Session.Kept s.master.session.problem
      s.master.session.settings s.master.store.fixedInteger.solver Q t st := by
  have I : Callback.Invariant (Session.Reported s.master.session.problem Q)
      (Session.Kept s.master.session.problem s.master.session.settings
        s.master.store.fixedInteger.solver Q) := Session.kept_invariant hsource
  have hstart := s.kept_startMaster Q
  have hsteps : ∀ step ∈ s.trace E, Session.Reported s.master.session.problem Q step.2 :=
    fun step hstep => hevents step.2 (List.mem_map_of_mem hstep)
  intro t ht
  simp only [sessions, hvalid, List.mem_append, List.mem_flatMap, List.mem_map,
    List.mem_singleton] at ht
  -- A session during a search, or the one at the end.
  rcases ht with ⟨m, hm, c, hc, rfl⟩ | rfl
  · exact ⟨_, I.solveStates s hvalid hsteps hstart m hm c hc⟩
  · exact ⟨_, (invariant_solve (τ := []) (I.master E) s hvalid hsteps hstart).2⟩

theorem final_mem_sessions (E : Engine α σ) (s : Solver α σ)
    (hvalid : s.master.session.settings.validate = .ok ()) :
    (s.solve E).1.master.session ∈ s.sessions E := by
  simp only [sessions, hvalid, List.mem_append, List.mem_singleton, or_true]

/-- The points that come from outside are integral on the discrete variables: the
    integer solutions of the engine, and the answers of the local solver. -/
structure IntegralSources (E : Engine α σ) (s : Solver α σ) : Prop where
  /-- The engine's solutions are. -/
  reported : ∀ e ∈ s.events E, e.reason = .integerSolution → ∀ x, e.values = .ok x →
    x.length = s.master.session.problem.dimension →
    s.master.session.problem.isIntegerFeasible x 1e-6 = true
  /-- The answers of the local solver are. -/
  solved : ∀ solve ∈ s.master.store.fixedInteger.solver, ∀ asked c x,
    solve asked s.master.session.problem c = some x →
    x.length = s.master.session.problem.dimension →
    s.master.session.problem.isIntegerFeasible x 1e-6 = true

/-- With integral sources, integrality is a property of everything offered. -/
theorem IntegralSources.supplied {E : Engine α σ} {s : Solver α σ}
    (h : s.IntegralSources E) :
    Session.Supplied s.master.session.problem s.master.store.fixedInteger.solver
      fun x => s.master.session.problem.isIntegerFeasible x 1e-6 = true where
  line _ _ hinteger := hinteger
  solved solve hsolve asked c x hanswer hlength := h.solved solve hsolve asked c x hanswer hlength

/-- Throughout a solve and in its report, the incumbent is what the ledger says it
    is, and feasible within the tolerance; and it is integral if the points from
    outside are. Nothing is assumed about the problem, the engine or the clock. -/
theorem incumbent_truthful [Scalar.ExtremeInfinity α] (E : Engine α σ) (s : Solver α σ)
    (hvalid : s.master.session.settings.validate = .ok ()) :
    let p := s.master.session.problem
    let tolerance := s.master.session.settings.termination.constraintTolerance
    (∀ t ∈ s.sessions E, p.Truthful tolerance t.bounds.primalBound t.bounds.incumbent) ∧
    (∃ r, (s.solve E).2 = answer (s.solve E).1.master.store r ∧
      p.Truthful tolerance r.primalBound r.incumbent) ∧
    (s.IntegralSources E →
      (∀ t ∈ s.sessions E, ∀ i ∈ t.bounds.incumbent,
        p.isIntegerFeasible i.candidate.point 1e-6 = true) ∧
      (∀ r, (s.solve E).2 = .ok r → ∀ i ∈ r.incumbent,
        p.isIntegerFeasible i.candidate.point 1e-6 = true)) := by
  intro p tolerance
  -- For the truth of the ledger any points will do.
  have hanything : Session.Supplied p s.master.store.fixedInteger.solver fun _ => True :=
    ⟨fun _ _ _ => trivial, fun _ _ _ _ _ _ _ => trivial⟩
  have htruthful : ∀ t ∈ s.sessions E,
      p.Truthful tolerance t.bounds.primalBound t.bounds.incumbent := by
    intro t ht
    rcases s.kept_sessions E hvalid hanything (fun _ _ _ _ _ _ => trivial) t ht with ⟨_, hkept⟩
    exact hkept.truthful
  have hfinal := s.final_mem_sessions E hvalid
  rcases s.exists_report E hvalid with ⟨report, hreport, hbound, hincumbent⟩
  refine ⟨htruthful, ⟨report, hreport, ?_⟩, ?_⟩
  · rw [hbound, hincumbent]
    exact htruthful _ hfinal
  · intro hintegral
    -- The same invariant with integrality as the predicate.
    have hpoints : ∀ t ∈ s.sessions E, ∀ i ∈ t.bounds.incumbent,
        p.isIntegerFeasible i.candidate.point 1e-6 = true := by
      intro t ht
      rcases s.kept_sessions E hvalid hintegral.supplied hintegral.reported t ht with ⟨_, hkept⟩
      exact hkept.supplied
    refine ⟨hpoints, fun r hr => ?_⟩
    rw [hreport] at hr
    rw [← (answer_eq_ok_iff.1 hr).2, hincumbent]
    exact hpoints _ hfinal

/-- Two variables, one of them binary, whose sum is to be large but at most one
    and a half. -/
def capped : Problem α :=
  (((Problem.ofObjective (.affine ⟨[(0, -1.0), (1, -1.0)], 0.0⟩ .minimize)).addVariable
    "b" 0.0 1.0 .binary).addVariable "x" 0.0 4.0 .real).addConstraint
      ⟨"cap", Affine.toFunction ⟨[(0, 1.0), (1, 1.0)], 0.0⟩, 1.5, true⟩

/-- An integer solution, reported with its objective. -/
def found (objective : α) (x : Point α) : Event α :=
  { Event.blank .integerSolution with objective := .ok objective, values := .ok x }

/-- An engine that finds a point beyond the cap first and a feasible one later. -/
def twoFinds : Engine α (Tabular α) :=
  scriptedEngine
    [{ events := [found (-2.0) [1.0, 1.0], found (-1.5) [0.0, 1.5]]
       status := .ok .optimal
       finalBound := .ok (-1.5)
       ignoreAbort := false }]
    (.error (.notAvailable "elastic"))

/-- A solver for the capped problem whose local solver turns the first point into
    a feasible one. -/
def cappedSolver : Solver α (Tabular α) where
  master :=
    { session :=
        { problem := capped
          settings := { Settings.standard with primal := ⟨true, .always⟩ }
          bounds := .fresh .minimize Settings.standard.termination
          iterations := .empty
          statistics := {}
          clock := .still ⟨0⟩
          journal := #[] }
      store := { CutStore.empty with
        fixedInteger := ⟨some fun _ _ _ => some [1.0, 0.25], 0, [], none, false⟩ }
      strategy := .cuttingPlane
      engine := .fresh [(0.0, 1.0), (0.0, 4.0)] [] {} }
  initialHyperplanes := 0
  initialIntegerCuts := 0

/-- The points of the incumbents in the course of a solve. -/
def incumbents (E : Engine α σ) (s : Solver α σ) : List (Option (Point α)) :=
  (s.sessions E).map fun t => t.bounds.incumbent.map (·.candidate.point)

/-- Both incumbents of the capped problem are what they are said to be, in double
    precision and exactly, and integral. -/
theorem incumbent_truthful_capped :
    (cappedSolver (α := Float)).incumbents twoFinds =
      [none, some [1.0, 0.25], some [0.0, 1.5], some [0.0, 1.5]] ∧
    (∀ t ∈ (cappedSolver (α := Float)).sessions twoFinds,
      capped.Truthful 1e-8 t.bounds.primalBound t.bounds.incumbent) ∧
    (cappedSolver (α := Exact)).incumbents twoFinds =
      [none, some [1.0, 0.25], some [0.0, 1.5], some [0.0, 1.5]] ∧
    (cappedSolver (α := Exact)).IntegralSources twoFinds ∧
    ∀ t ∈ (cappedSolver (α := Exact)).sessions twoFinds, ∀ i ∈ t.bounds.incumbent,
      capped.isIntegerFeasible i.candidate.point 1e-6 = true := by
  -- Both the reported points and the answers of the local solver are integral.
  have hintegral : (cappedSolver (α := Exact)).IntegralSources twoFinds := by
    have hvalues : ((cappedSolver.events twoFinds).all fun e =>
        (e.values.toOption).all fun x =>
          (capped (α := Exact)).isIntegerFeasible x 1e-6) = true := by
      decide +kernel
    constructor
    · intro e he _ x hx _
      have hall := List.all_eq_true.1 hvalues e he
      rw [hx] at hall
      exact hall
    · rintro solve ⟨⟩ asked c x ⟨⟩ _
      decide +kernel
  have hfloat := incumbent_truthful twoFinds (cappedSolver (α := Float))
    ((Settings.validate_eq_ok_iff _).2 (List.all_eq_true.1 (by decide +kernel)))
  have hexact := incumbent_truthful twoFinds (cappedSolver (α := Exact))
    ((Settings.validate_eq_ok_iff _).2 (List.all_eq_true.1 (by decide +kernel)))
  exact ⟨by decide +kernel, hfloat.1, by decide +kernel, hintegral, (hexact.2.2 hintegral).1⟩

end Solver

end OuterApprox
