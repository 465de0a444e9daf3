import OuterApprox.Callback.Basic
import OuterApprox.Heuristic.PrimalSearch
import OuterApprox.Selection

/-!
# Handling events

What the callback does with each event that is not passive. The bound of the
search is offered as a dual bound. Progress is remembered. A solved node
relaxation may be cut off, as long as the iteration has room for such cuts. An
integer solution is offered as a primal solution and, if it violates a
constraint or lies below the epigraph of the objective, cut off; that closes an
iteration, with primal heuristics, pending no-good cuts and the incumbent on
the way.

Before and after, the callback looks whether the search should stop. Once it has
asked for that, it does nothing but repeat the request. A read that fails, or a
row that is refused, is noted and skipped; nothing else depends on it.

## Main definitions

* `Session.accepts`: Whether a candidate needs no cuts.
* `Turn.updateDualBound`, `Turn.recordProgress`, `Turn.relaxationNode`,
  `Turn.integerSolution`: The parts of handling an event.
* `Turn.cutOff`: Cutting off an integer solution.
* `Turn.injectIncumbent`: Telling the engine about the incumbent.
* `Callback.handle`: Handling an event.
-/

namespace OuterApprox

/-- Whether a candidate needs no cuts: it satisfies the constraints, and lies on
    or above the epigraph of the objective if that matters. -/
def Session.accepts {α : Type} [Scalar α] (s : Session α) (c : Candidate α) : Bool :=
  let tolerance := s.settings.termination.constraintTolerance
  c.isFeasible tolerance &&
    (!s.objectiveNeedsCuts ||
      match s.problem.epigraphValue c.point with
      | some residual => decide (residual ≤ tolerance)
      | none => true)

namespace Turn

variable {α : Type} [Scalar α]

/-- Offer the bound of the search as a dual bound, if it is an improvement. -/
def updateDualBound (t : Turn α) (e : Event α) : Turn α :=
  let t := t.enter .updatingBounds
  match e.bound with
  | .error err => t.fail .readBound err
  | .ok bound =>
    if t.session.bounds.improvesDual bound then
      t.mapSession (·.offerDual (.ofSearch bound t.iteration))
    else t

/-- Remember the node counts. -/
def recordProgress (t : Turn α) (e : Event α) : Turn α :=
  let t :=
    match e.explored with
    | .ok n => { t with callback := { t.callback with explored := n } }
    | .error err => t.fail .readExplored err
  match e.openNodes with
  | .ok n => { t with callback := { t.callback with openNodes := n } }
  | .error err => t.fail .readOpen err

/-- Ask for the hyperplanes of the strategy at a candidate. -/
def requestCuts (t : Turn α) (c : Candidate α) (milp : Bool) : Turn α :=
  let r := t.session.select t.callback.strategy t.store.interior.current [c] milp
  (t.note r.remarks).mapStore (·.request r.hyperplanes)

/-- Ask for the hyperplanes of the objective at a candidate. -/
def requestEpigraph (t : Turn α) (c : Candidate α) : Turn α :=
  let r := t.session.epigraphRequests [c]
  (t.note r.remarks).mapStore (·.request r.hyperplanes)

/-- Cut off the relaxation of a node. -/
def cutRelaxation (t : Turn α) (e : Event α) (values : Point α) : Turn α :=
  let t := t.enter .generatingCuts
  let t := t.requestCuts (t.problem.candidate values t.iteration) false
  let (t, added) := t.flushHyperplanes e
  t.mapSession (·.modifyIteration fun it => { it with relaxed := it.relaxed + added })

/-- Whether the live iteration takes more hyperplanes from relaxation nodes. -/
def hasRelaxationRoom (t : Turn α) : Bool :=
  decide (t.session.iterations.last?.elim 0 (·.relaxed) <
    t.session.settings.dual.maxRelaxationCuts)

/-- A node relaxation was solved. -/
def relaxationNode (t : Turn α) (e : Event α) : Turn α :=
  match e.optimal with
  | .error err => t.fail .readNodeStatus err
  | .ok false => t
  | .ok true =>
    if !t.hasRelaxationRoom then t
    else
      match e.relaxation with
      | .error err => t.fail .readRelaxation err
      | .ok values =>
        if values.length = t.problem.dimension then t.cutRelaxation e values
        else t.note [.relaxationLength values.length]

/-- Open an iteration unless the last one is still open. -/
def ensureIteration (t : Turn α) : Turn α :=
  if t.session.iterations.needsNew then t.mapSession (·.openIteration true) else t

/-- Objective values from which on the engine means "no solution". -/
def noSolutionObjective : α := 1e100

/-- Offer an integer solution as a primal solution, if the engine stands by it
    and it is an improvement. -/
def offerSolution (t : Turn α) (objective : α) (c : Candidate α) : Turn α :=
  if decide (objective < noSolutionObjective) && t.session.bounds.improvesPrimal c.objective then
    t.mapSession (·.offerPrimal c .integerSolution)
  else t

/-- Let the interior point follow the incumbent, if the strategy needs it. -/
def refineInterior (t : Turn α) : Turn α :=
  if !t.callback.strategy.needsInterior then t
  else
    let after := t.store.interior.consider t.problem t.session.settings.boundary.interiorUpdate
      t.session.bounds.incumbent
    (t.note (InteriorTracker.remarks after)).mapStore fun s => { s with interior := after.1 }

/-- Record the candidate and the node counts in the live iteration. -/
def recordIteration (t : Turn α) (objective : α) (c : Candidate α) : Turn α :=
  let explored := t.callback.explored - t.session.statistics.explored
  let bounds := t.session.bounds
  t.mapSession fun s =>
    (s.modifyStatistics fun st =>
      { st with explored := t.callback.explored, openNodes := t.callback.openNodes }).modifyIteration
      fun it =>
        { it with
          status := .feasible
          objective
          explored
          openNodes := t.callback.openNodes
          dualBound := bounds.dualBound
          primalBound := bounds.primalBound
          deviation := c.deviation
          candidates := it.candidates ++ [c] }

/-- Look for a feasible point between the interior point and the candidate. -/
def searchPrimal (t : Turn α) (c : Candidate α) : Turn α :=
  if !t.session.settings.primal.useLineSearch || t.problem.constraints.isEmpty then t
  else
    match t.store.interior.current with
    | none => t
    | some inner =>
      let found := t.session.primalSearch inner c
      let t := t.note (t.session.primalSearchRemarks inner c)
      match found with
      | some point => t.mapSession (·.offerPrimal point .lineSearch)
      | none => t

/-- Fix the candidate's integers and ask the local solver, if the rule says so. -/
def fixIntegers (t : Turn α) (c : Candidate α) : Turn α :=
  let rule := t.session.settings.primal.fixedInteger
  let queue := t.store.fixedInteger.enrol rule t.problem c
  if !t.store.fixedInteger.wants rule t.problem c then
    t.mapStore fun s => { s with fixedInteger := queue }
  else
    let outcome := queue.outcome t.problem c
    let t := t.mapStore fun s => { s with fixedInteger := queue.afterAsking }
    let t := t.mapSession (·.modifyStatistics fun st =>
      { st with fixedIntegerRuns := st.fixedIntegerRuns + 1 })
    let t := t.note outcome.remarks
    match outcome with
    | .solution found => t.mapSession (·.offerPrimal found .fixedInteger)
    | .noGood indices => t.mapStore (·.queueIntegerCut indices)
    | _ => t

/-- The report line of the live iteration. -/
def iterationRemarks (t : Turn α) (c : Candidate α) (added : Nat) : List (Diagnostic α) :=
  if !t.session.settings.output.iterationReport then []
  else
    match t.session.iterations.last? with
    | none => []
    | some it =>
      [.iterationLine
        { number := it.number
          explored := it.explored
          openNodes := it.openNodes
          added
          total := it.total
          dual := t.session.bounds.dualBound
          primal := t.session.bounds.primalBound
          gap := t.session.bounds.relativeGap
          deviation := c.deviationValue
          constraint := c.deviation.elim 0 (·.constraint) }]

/-- Close the live iteration and report on it. -/
def closeIteration (t : Turn α) (c : Candidate α) (added : Nat) : Turn α :=
  let t := t.mapSession fun s => { s with iterations := s.iterations.closeLast }
  t.note (t.iterationRemarks c added)

/-- Hand the incumbent to the engine. The variable that carries the objective
    gets the value it stands for. -/
def submitIncumbent (t : Turn α) (e : Event α) (primal : α) : Turn α :=
  match t.session.bounds.incumbent with
  | none => t
  | some s =>
    let x := s.candidate.point
    let values := t.problem.auxiliary.elim x fun aux => x.setCoord aux primal
    let answer := e.onSolution values
    let t := t.call (.solution values answer.taken)
    match answer with
    | .ok () => t
    | .error err => t.fail .setIncumbent err

/-- Set the cutoff just behind a primal bound. -/
def submitCutoff (t : Turn α) (e : Event α) (primal : α) : Turn α :=
  let cutoff := t.problem.sense.worsen primal t.session.settings.dual.cutoffTolerance
  let answer := e.onCutoff cutoff
  let t := t.call (.cutoff cutoff answer.taken)
  match answer with
  | .ok () => t.note [.cutoffSet cutoff]
  | .error err => t.fail .setCutoff err

/-- Tell the engine about the incumbent and set the cutoff, if the primal bound
    is finite and better than when this was last done. -/
def injectIncumbent (t : Turn α) (e : Event α) : Turn α :=
  let primal := t.session.bounds.primalBound
  let isNews := t.callback.injected.all fun last => t.problem.sense.better primal last
  if !Scalar.isFinite primal || !isNews then t
  else
    let t := t.submitIncumbent e primal
    let t := { t with callback := { t.callback with injected := some primal } }
    t.submitCutoff e primal

/-- Cut off an integer solution and close the iteration. -/
def cutOff (t : Turn α) (e : Event α) (objective : α) (c : Candidate α) : Turn α :=
  -- Cuts come first: the candidate must not come back while heuristics look at it.
  let t := t.enter .generatingCuts
  let t := t.refineInterior
  let t := t.requestCuts c true
  let t := t.requestEpigraph c
  let (t, added) := t.flushHyperplanes e
  let t := if added = 0 then t.note [.noHyperplane c.objective] else t
  let t := t.recordIteration objective c
  -- Heuristics may queue a no-good cut, so they come before those are added.
  let t := t.searchPrimal c
  let t := t.fixIntegers c
  let t := if t.session.settings.dual.useIntegerCuts then t.flushIntegerCuts e else t
  let t := t.closeIteration c added
  -- A closed iteration may be the last one allowed.
  let t := t.checkTermination
  if t.callback.aborted then t else t.injectIncumbent e

/-- An integer solution of the right length was found. -/
def considerSolution (t : Turn α) (e : Event α) (objective : α) (values : Point α) : Turn α :=
  let t := t.ensureIteration
  let c := t.problem.candidate values t.iteration
  -- A solution that closes the gap ends the search before any cut is made.
  let t := t.offerSolution objective c
  let t := t.checkTermination
  if t.callback.aborted then t
  else if t.session.accepts c then t.note [.accepted c.objective]
  else t.cutOff e objective c

/-- An integer solution was found. -/
def integerSolution (t : Turn α) (e : Event α) : Turn α :=
  match e.objective with
  | .error err => t.fail .readObjective err
  | .ok objective =>
    match e.values with
    | .error err => t.fail .readValues err
    | .ok values =>
      if values.length = t.problem.dimension then t.considerSolution e objective values
      else t.note [.solutionLength values.length]

/-- What an event is about, once the bounds are updated. -/
def dispatch (t : Turn α) (e : Event α) : Turn α :=
  match e.reason with
  | .progress => t.recordProgress e
  | .relaxationNode => t.relaxationNode e
  | .integerSolution => t.integerSolution e
  | _ => t

/-- Handle an event that is not passive, before any request to stop. -/
def active (t : Turn α) (e : Event α) : Turn α :=
  let t := (t.enter .evaluatingNode).checkTermination
  if t.callback.aborted then t.enter .idle
  else
    -- Handling the event may have stopped the search already.
    let t := (t.updateDualBound e).dispatch e
    let t := if t.callback.aborted then t else t.checkTermination
    t.enter .idle

end Turn

namespace Callback

variable {α : Type} [Scalar α]

/-- Count an event that is not passive. -/
def counted (c : Callback α) : Callback α :=
  { c with session :=
      c.session.modifyStatistics fun st => { st with events := st.events + 1 } }

/-- Handle an event. The calls are what was handed to the engine, in order. -/
def handle (c : Callback α) (e : Event α) : Turn α :=
  if e.reason.isPassive then ⟨c, []⟩
  else if c.aborted then ⟨c.counted, [.abort]⟩
  else Turn.active ⟨c.counted, []⟩ e

end Callback

end OuterApprox
