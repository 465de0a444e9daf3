import OuterApprox.Decimal.Rounded
import OuterApprox.Master.Repair
import OuterApprox.Text.Layout

/-!
# The solver

Outer approximation in a single branch-and-bound tree. The caller supplies a
problem, settings and an engine that holds the linear part; it may install an
interior point and a local solver, and add hyperplanes and no-good cuts. A solve
runs the master problem, repairs the model once if it turns out infeasible, and
reports.

Solves are sessions of their own: each starts with empty ledgers and counters.
What was added before the search is counted in the first iteration.

## Main definitions

* `SolverError`: What a caller can see going wrong.
* `Solver`, `Solver.create`: A solver.
* `Solver.setInterior`, `Solver.addHyperplanes`, `Solver.addIntegerCutRow`:
  Before a search.
* `Solver.finalStatus`: What the outcome of the search amounts to.
* `Report`, `Solver.solve`, `Solver.answer`: A solve and its report.
-/

namespace OuterApprox

/-- What a caller can see going wrong. -/
inductive SolverError (α : Type) where
  /-- The engine failed. -/
  | engine (error : EngineError)
  /-- The problem or the settings are at fault. -/
  | model (error : ModelError)
  /-- A no-good cut without binaries, or with columns that do not exist. -/
  | invalidIntegerCut (indices : List Nat)
  /-- The engine does not have one column per variable. -/
  | columnMismatch (columns count : Nat)
  /-- A point that was to be interior is not. -/
  | notInterior (constraint : Nat) (value : α)
  /-- A sum of iterations is no word. Nothing is reported then, not even as an error: the program
      ends. -/
  | overflow

namespace SolverError

/-- The layer that is at fault, in reports. -/
def label {α : Type} : SolverError α → String
  | engine _ | invalidIntegerCut _ => "Backend"
  | model _ => "Core"
  | columnMismatch .. | notInterior .. => "Internal"
  | overflow => "panic"

/-- The text shown to a reader. -/
def message : SolverError Float → String
  | engine e => s!"Backend error: {e.message}"
  | model e => s!"Core error: {e.message}"
  | invalidIntegerCut indices =>
    let e := EngineError.cutRejected s!"invalid integer cut over {Text.indexList indices}"
    s!"Backend error: {e.message}"
  | columnMismatch columns count =>
    s!"Internal error: backend has {columns} columns, problem has {count} variables"
  | notInterior constraint value =>
    s!"Internal error: interior point violates or touches constraint {constraint} " ++
      s!"({Decimal.scientific 3 value})"
  | overflow => "attempt to add with overflow"

end SolverError

namespace Master

variable {α σ : Type} [Scalar α]

/-- Add a no-good cut as a row. The answer is its position. -/
def addIntegerCutRow (E : Engine α σ) (m : Master α σ) (indices : List Nat) :
    Master α σ × Except (SolverError α) Nat :=
  match noGoodRow m.session.problem.dimension indices with
  | none => (m, .error (.invalidIntegerCut indices))
  | some row =>
    let (engine, answer) := E.addRow m.engine row s!"ic_{m.session.statistics.integerCuts}"
    let m := { m with engine }
    match answer with
    | .error e => (m, .error (.engine e))
    | .ok position =>
      ({ m with session := m.session.modifyStatistics fun st =>
          { st with integerCuts := st.integerCuts + 1 } },
       .ok position)

end Master

/-- A solver with an engine of states `σ`. -/
structure Solver (α σ : Type) where
  /-- The master problem. -/
  master : Master α σ
  /-- Hyperplanes added before any search. -/
  initialHyperplanes : Nat
  /-- No-good cuts added as rows before any search. -/
  initialIntegerCuts : Nat

/-- The outcome of a solve. -/
structure Report (α : Type) where
  /-- How it ended. -/
  status : Status
  /-- The objective of the best solution. -/
  primalBound : α
  /-- The best proven bound. -/
  dualBound : α
  /-- The best solution. -/
  incumbent : Option (PrimalSolution α)
  /-- The number of closed iterations. -/
  iterations : Nat
  /-- Hyperplanes added, those before the search included. -/
  hyperplanes : Nat
  /-- No-good cuts added. -/
  integerCuts : Nat
  /-- The absolute gap. -/
  absoluteGap : α
  /-- The relative gap. -/
  relativeGap : α

namespace Solver

variable {α σ : Type} [Scalar α]

/-- A new solver. The engine must have one column per variable, and the settings
    must be admissible. -/
def create (E : Engine α σ) (problem : Problem α) (settings : Settings α) (engine : σ)
    (clock : Clock) : Except (SolverError α) (Solver α σ) :=
  if E.columns engine ≠ problem.dimension then
    .error (.columnMismatch (E.columns engine) problem.dimension)
  else
    match Session.start problem settings clock with
    | .error e => .error (.model e)
    | .ok session =>
      .ok {
        master := .start session engine settings.dual.strategy
        initialHyperplanes := 0
        initialIntegerCuts := 0 }

/-- Change the cut store. -/
def mapStore (s : Solver α σ) (f : CutStore α → CutStore α) : Solver α σ :=
  { s with master := { s.master with store := f s.master.store } }

/-- Install an interior point. It must satisfy every constraint strictly. -/
def setInterior (s : Solver α σ) (x : Point α) : Except (SolverError α) (Solver α σ) :=
  let p := s.master.session.problem
  match p.checkDimension x with
  | .error e => .error (.model e)
  | .ok () =>
    let c := p.candidate x 0
    let installed := s.mapStore fun st => { st with interior := st.interior.install c }
    match c.deviation with
    | none => .ok installed
    | some d => if d.value < 0.0 then .ok installed else .error (.notInterior d.constraint d.value)

/-- Install a local solver for fixed integers. -/
def setFixedInteger (s : Solver α σ) (solver : FixedIntegerSolver α) : Solver α σ :=
  s.mapStore fun st => { st with fixedInteger := st.fixedInteger.install solver }

/-- Queue a no-good cut for the next integer solution. -/
def queueIntegerCut (s : Solver α σ) (indices : List Nat) : Solver α σ :=
  s.mapStore (·.queueIntegerCut indices)

/-- Add a no-good cut as a row. The answer is its position. -/
def addIntegerCutRow (E : Engine α σ) (s : Solver α σ) (indices : List Nat) :
    Solver α σ × Except (SolverError α) Nat :=
  match s.master.addIntegerCutRow E indices with
  | (m, .error e) => ({ s with master := m }, .error e)
  | (m, .ok position) =>
    ({ s with master := m, initialIntegerCuts := s.initialIntegerCuts + 1 }, .ok position)

/-- Add hyperplanes as rows before a search. The second component counts those
    the engine took. -/
def addHyperplanes (E : Engine α σ) (s : Solver α σ) (hs : List (Hyperplane α)) :
    Solver α σ × Nat :=
  let (m, added) := (s.mapStore (·.request hs)).master.addWaitingRows E
  ({ s with master := m, initialHyperplanes := s.initialHyperplanes + added }, added)

/-- What the outcome of a search amounts to, given the bounds and limits. -/
def finalStatus (session : Session α) (status : Status) : Status :=
  if status = .error then .error
  else if session.bounds.gapMet then .optimal
  else if session.iterationLimitReached then .iterationLimit
  else if session.timeLimitReached then .timeLimit
  else
    match status with
    | .optimal | .abort | .feasible =>
      if session.bounds.incumbent.isSome then .feasible else .notSolved
    | other => other

/-- What there is to say about the final status: a search that ended well should
    have left a solution. -/
def finalRemarks (session : Session α) (status : Status) : List (Diagnostic α) :=
  if finalStatus session status = .notSolved && status != .notSolved then
    [.endedWithoutSolution status]
  else []

/-- The report of a session that ended with a status. -/
def report (session : Session α) (status : Status) : Report α where
  status
  primalBound := session.bounds.primalBound
  dualBound := session.bounds.dualBound
  incumbent := session.bounds.incumbent
  iterations := session.iterations.solved
  hyperplanes := session.iterations.total
  integerCuts := session.statistics.integerCuts
  absoluteGap := session.bounds.absoluteGap
  relativeGap := session.bounds.relativeGap

/-- The session at the start of a solve: empty but for what was added before. -/
def freshSession (s : Solver α σ) : Session α :=
  ((s.master.session.reset.openIteration true).modifyIteration
    (·.addHyperplanes s.initialHyperplanes)).modifyStatistics
      fun st => { st with integerCuts := s.initialIntegerCuts }

/-- Repair an infeasible model once and search again. A second infeasible search
    leaves the verdict as it was. -/
def repairAndResolve (E : Engine α σ) (m : Master α σ) (status : Status) :
    Master α σ × Status :=
  if status ≠ .infeasible then (m, status)
  else
    match m.repair E with
    | (m, false) => (m.note [.unrepaired], status)
    | (m, true) =>
      let (m, again) := (m.note [.resolving]).solve E
      (m, if again = .infeasible then status else again)

/-- The answer of a solve: its report, unless the queue of the local search has overflowed. -/
def answer (store : CutStore α) (r : Report α) : Except (SolverError α) (Report α) :=
  if store.fixedInteger.overflowed then .error .overflow else .ok r

omit [Scalar α] in
/-- A report is what it was before anyone looked whether the queue has overflowed. -/
theorem answer_eq_ok_iff {store : CutStore α} {r r' : Report α} :
    answer store r = .ok r' ↔ store.fixedInteger.overflowed = false ∧ r = r' := by
  unfold answer
  split
  next hover => exact iff_of_false nofun fun h => Bool.noConfusion (hover.symm.trans h.1)
  next hnot => simp only [Except.ok.injEq, Bool.eq_false_iff.2 hnot, true_and]

/-- Run the whole solve. -/
def solve (E : Engine α σ) (s : Solver α σ) :
    Solver α σ × Except (SolverError α) (Report α) :=
  match s.master.session.settings.validate with
  | .error e => (s, .error (.model e))
  | .ok () =>
    -- The cut store and the engine go on as they are; only the session is new.
    let m := { s.master with session := s.freshSession }
    let (m, status) := m.solve E
    let (m, status) := repairAndResolve E m status
    let m := m.note (finalRemarks m.session status)
    let r := report m.session (finalStatus m.session status)
    let m := m.note
      [.terminated r.status r.primalBound r.dualBound r.iterations r.hyperplanes]
    ({ s with master := m }, answer m.store r)

end Solver

end OuterApprox
