import OuterApprox.Callback.Handle
import OuterApprox.Engine.Basic

/-!
# The master problem

The MILP that outer-approximates the problem, in its engine, together with the
session and everything known about cuts. Cuts enter it lazily while a search
runs, or as rows between searches.

A search that ends badly for a reason that has a remedy is run once more. If an
epigraph variable without bounds made the problem infeasible, the variable is
bounded for a second search. If the problem is unbounded, the variables that
may be to blame are bounded for a second search and then get their bounds back.

## Main definitions

* `Master`: A session, a cut store and an engine's state.
* `Search.run`, `Master.runSearch`: One search under a callback.
* `Master.retryBoundedObjective`, `Master.retryBoundedColumns`: The remedies.
* `Master.recordFinalBound`: What the engine proved.
* `Master.solve`: A search with its remedies.
* `Master.addWaitingRows`: Cuts as rows.
-/

namespace OuterApprox

/-- The master problem in an engine with states `σ`. -/
structure Master (α σ : Type) where
  /-- The session. -/
  session : Session α
  /-- The cut store. -/
  store : CutStore α
  /-- Where cuts are generated. -/
  strategy : CutStrategy
  /-- The state of the engine. -/
  engine : σ

/-- Run a search under a callback: every event is handled, and the search goes on
    with what the callback did. -/
def Search.run {α σ : Type} [Scalar α] (c : Callback α) :
    Search α σ → Callback α × σ × Answer Status
  | .finish state result => (c, state, result)
  | .report e resume =>
    let t := c.handle e
    Search.run t.callback (resume t.calls)

namespace Master

variable {α σ : Type} [Scalar α]

/-- A master problem without cuts. -/
def start (session : Session α) (engine : σ) (strategy : CutStrategy) : Master α σ :=
  { session, store := .empty, strategy, engine }

/-- Remarks for the journal. -/
def note (m : Master α σ) (remarks : List (Diagnostic α)) : Master α σ :=
  { m with session := m.session.note remarks }

/-- One search. A failed search has a status of its own. -/
def runSearch (E : Engine α σ) (m : Master α σ) : Master α σ × Status :=
  let (c, engine, result) :=
    (E.search m.engine).run (Callback.start m.session m.store m.strategy)
  let m := { m with session := c.session, store := c.store, engine }
  match result with
  | .ok status => (m, status)
  | .error e => (m.note [.searchFailed e], .error)

/-- Change the bounds of a column. The second component tells whether it
    worked. -/
def setBounds (E : Engine α σ) (m : Master α σ) (column : Nat) (lower upper : α) :
    Master α σ × Bool :=
  let (engine, answer) := E.setColumnBounds m.engine column lower upper
  let m := { m with engine }
  match answer with
  | .ok () => (m, true)
  | .error e => (m.note [.boundsWriteFailed column e], false)

/-- The epigraph variable, if the problem turned infeasible and that variable may
    be to blame. -/
def suspectObjective? (m : Master α σ) (status : Status) : Option Nat :=
  if status = .infeasible && m.session.problem.objective.classification = .quadraticAsNonlinear
  then m.session.problem.auxiliary
  else none

/-- Search again with the epigraph variable bounded, if it is suspected. -/
def retryBoundedObjective (E : Engine α σ) (m : Master α σ) (status : Status) :
    Master α σ × Status :=
  match m.suspectObjective? status with
  | none => (m, status)
  | some aux =>
    let bound := m.session.settings.dual.auxiliaryBound
    let (m, done) := (m.note [.boundingObjective bound]).setBounds E aux (-bound) bound
    if !done then (m, status)
    else
      -- The variable has no bounds of its own to go back to.
      let (m, status) := m.runSearch E
      let restored := m.session.settings.dual.unboundedBound
      ((m.setBounds E aux (-restored) restored).1, status)

/-- The variables that may make the problem unbounded. -/
def suspectColumns (m : Master α σ) : List Nat :=
  let p := m.session.problem
  if p.objective.classification.isAboveQuadratic then p.auxiliary.toList
  else p.dualUnboundedIndices m.session.settings.dual.unboundedBound

/-- Read the bounds of columns. Columns that cannot be read are skipped. -/
def readBounds (E : Engine α σ) (m : Master α σ) (columns : List Nat) :
    Master α σ × List (Nat × α × α) :=
  columns.foldl
    (fun (m, read) column =>
      match E.columnBounds m.engine column with
      | .ok bounds => (m, read ++ [(column, bounds)])
      | .error e => (m.note [.boundsReadFailed column e], read))
    (m, [])

/-- Change the bounds of several columns. -/
def setAllBounds (E : Engine α σ) (m : Master α σ) (targets : List (Nat × α × α)) :
    Master α σ :=
  targets.foldl (fun m t => (m.setBounds E t.1 t.2.1 t.2.2).1) m

/-- Search again with the suspected variables bounded, then give them their
    bounds back. -/
def retryBoundedColumns (E : Engine α σ) (m : Master α σ) : Master α σ × Status :=
  let dual := m.session.settings.dual
  let bound := dual.unboundedBound / dual.unboundedScaling
  let columns := m.suspectColumns
  if columns.isEmpty then (m.note [.nothingToBound], .unbounded)
  else
    -- A column whose bounds cannot be read could not be restored, so it is left alone.
    let (m, before) := m.readBounds E columns
    let m := m.note [.boundingVariables before.length bound]
    let m := m.setAllBounds E (before.map fun t => (t.1, -bound, bound))
    let (m, status) := m.runSearch E
    let m := m.setAllBounds E before
    ({ m with session := m.session.modifyIteration fun it => { it with repaired := true } },
      status)

/-- Offer the engine's final bound as a dual bound. It holds if the search ran to
    its end or to a limit. -/
def recordFinalBound (E : Engine α σ) (m : Master α σ) (status : Status) : Master α σ :=
  if !status.mayHaveSolution then m
  else
    match E.finalBound m.engine with
    | .error e => m.note [.finalBoundFailed e]
    | .ok bound =>
      if Scalar.isFinite bound then
        { m with session :=
            m.session.offerDual (.ofSearch bound m.session.iterations.lastNumber) }
      else m

/-- A search with its remedies. -/
def solve (E : Engine α σ) (m : Master α σ) : Master α σ × Status :=
  let (m, status) := m.runSearch E
  let (m, status) := m.retryBoundedObjective E status
  let (m, status) := if status = .unbounded then m.retryBoundedColumns E else (m, status)
  (m.recordFinalBound E status, status)

/-- Add one hyperplane as a row, found in iteration `number`. -/
def addRow (E : Engine α σ) (number : Nat) (acc : Master α σ × Nat) (h : Hyperplane α) :
    Master α σ × Nat :=
  let (m, added) := acc
  let p := m.session.problem
  let m := m.note (p.linearizeRemarks h)
  match p.linearize h with
  | .error _ => (m, added)
  | .ok l =>
    let name := s!"h_{m.store.ledger.size}"
    let (engine, answer) := E.addRow m.engine l.row name
    let m := { m with engine }
    match answer with
    | .error e => (m.note [.rowRefused name e], added)
    | .ok row =>
      ({ m with store :=
          { m.store with
            ledger := m.store.ledger.record h number false (h.target.isConvex p) (some row) } },
       added + 1)

/-- Add the waiting hyperplanes as rows. The second component counts those the
    engine took. -/
def addWaitingRows (E : Engine α σ) (m : Master α σ) : Master α σ × Nat :=
  let number := m.session.iterations.lastNumber
  let waiting := m.store.waiting
  let emptied := { m with store := { m.store with waiting := [] } }
  let (m, added) := waiting.foldl (addRow E number) (emptied, 0)
  if added = 0 then (m, 0)
  else
    ({ m with session := m.session.modifyIteration (·.addHyperplanes added) }, added)

end Master

end OuterApprox
