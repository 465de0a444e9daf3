import OuterApprox.Cut.Linearize
import OuterApprox.Cut.NoGood
import OuterApprox.Cut.Store
import OuterApprox.Engine.Event
import OuterApprox.Session

/-!
# The callback

What handles the events of one search. The callback owns the session and the cut
store for the duration of the search, and a few figures that make sense within
one search only.

Handling one event is a turn: the callback together with what it has handed to
the engine so far. Every step of a turn is a function from turns to turns, and
what a step does to the engine is visible as the calls it appends.

## Main definitions

* `Callback`, `Callback.start`: The handler of one search.
* `Turn`: The handling of one event.
* `Turn.enter`, `Turn.note`, `Turn.fail`: Phases and remarks.
* `Turn.submit`: Hand a row to the engine.
* `Turn.checkTermination`: Stop the search if it should stop.
* `Turn.flushHyperplanes`, `Turn.flushIntegerCuts`: Hand over what is waiting.
-/

namespace OuterApprox

/-- The handler of one search. -/
structure Callback (α : Type) where
  /-- The session. -/
  session : Session α
  /-- The cut store. -/
  store : CutStore α
  /-- Where cuts are generated. -/
  strategy : CutStrategy
  /-- Where the callback stands. -/
  phase : Phase
  /-- Whether the engine was asked to stop. -/
  aborted : Bool
  /-- Nodes explored, as last reported. -/
  explored : Nat
  /-- Nodes open, as last reported. -/
  openNodes : Nat
  /-- The primal bound that was last handed to the engine. -/
  injected : Option α

/-- The handling of one event. -/
structure Turn (α : Type) where
  /-- The callback. -/
  callback : Callback α
  /-- What was handed to the engine, in order. -/
  calls : List (Call α)

namespace Callback

variable {α : Type}

/-- The handler of a new search. -/
def start (session : Session α) (store : CutStore α) (strategy : CutStrategy) : Callback α where
  session :=
    { session with statistics := { session.statistics with lastLazyIteration := 0 } }
  store
  strategy
  phase := .idle
  aborted := false
  explored := session.statistics.explored
  openNodes := 0
  injected := none

end Callback

namespace Turn

variable {α : Type}

/-- The session. -/
def session (t : Turn α) : Session α := t.callback.session

/-- The cut store. -/
def store (t : Turn α) : CutStore α := t.callback.store

/-- The problem. -/
def problem (t : Turn α) : Problem α := t.session.problem

/-- Change the session. -/
def mapSession (t : Turn α) (f : Session α → Session α) : Turn α :=
  { t with callback := { t.callback with session := f t.callback.session } }

/-- Change the cut store. -/
def mapStore (t : Turn α) (f : CutStore α → CutStore α) : Turn α :=
  { t with callback := { t.callback with store := f t.callback.store } }

/-- Do something to the engine. -/
def call (t : Turn α) (c : Call α) : Turn α := { t with calls := t.calls ++ [c] }

/-- The number of the live iteration, zero without one. -/
def iteration (t : Turn α) : Nat := t.session.iterations.lastNumber

variable [Scalar α]

/-- Remarks for the journal. -/
def note (t : Turn α) (remarks : List (Diagnostic α)) : Turn α :=
  t.mapSession (·.note remarks)

/-- The engine failed at a step, which is skipped. -/
def fail (t : Turn α) (step : EventStep) (e : EngineError) : Turn α :=
  t.note [.eventFailed step e]

/-- Enter a phase. -/
def enter (t : Turn α) (phase : Phase) : Turn α :=
  let t' := t.note [.entered t.callback.phase phase]
  { t' with callback := { t'.callback with phase } }

/-- Hand a row to the engine. The second component is its answer. -/
def submit (t : Turn α) (e : Event α) (kind : RowKind) (row : Row α) :
    Turn α × Answer Unit :=
  let answer := e.onRow (t.calls.countP Call.isRow) row
  (t.call (.row kind row answer.taken), answer)

/-- Stop the search if it should stop. The clock is looked at for that. -/
def checkTermination (t : Turn α) : Turn α :=
  let t := t.enter .checkingTermination
  let reason := t.session.stopReason?
  let t := t.mapSession (·.look)
  match reason with
  | none => t
  | some reason =>
    let t := (t.note [.terminating reason]).call .abort
    { t with callback := { t.callback with aborted := true } }

/-- Hand over one hyperplane, found in iteration `number`. A refused one is
    dropped and an accepted one recorded and counted. -/
def flushHyperplane (e : Event α) (number : Nat) (acc : Turn α × Nat) (h : Hyperplane α) :
    Turn α × Nat :=
  let (t, added) := acc
  let t := t.note (t.problem.linearizeRemarks h)
  match t.problem.linearize h with
  | .error _ => (t, added)
  | .ok l =>
    match t.submit e .hyperplane l.row with
    | (t, .error err) => (t.fail .addHyperplane err, added)
    | (t, .ok ()) =>
      (t.mapStore fun s =>
        { s with
          ledger := s.ledger.record h number true (h.target.isConvex t.problem) none },
       added + 1)

/-- Hand over all waiting hyperplanes. The second component counts those the
    engine took. -/
def flushHyperplanes (t : Turn α) (e : Event α) : Turn α × Nat :=
  -- The list is emptied first: a hyperplane that is refused is not tried again.
  let number := t.iteration
  let waiting := t.store.waiting
  let emptied := t.mapStore fun s => { s with waiting := [] }
  let (t, added) := waiting.foldl (flushHyperplane e number) (emptied, 0)
  if added = 0 then (t, 0)
  else
    (t.mapSession fun s =>
      (s.modifyIteration (·.addHyperplanes added)).modifyStatistics
        fun c => { c with lastLazyIteration := number },
     added)

/-- Hand over one no-good cut. -/
def flushIntegerCut (e : Event α) (acc : Turn α × Nat) (indices : List Nat) : Turn α × Nat :=
  let (t, added) := acc
  match noGoodRow t.problem.dimension indices with
  | none => (t.note [.invalidIntegerCut indices], added)
  | some row =>
    match t.submit e .noGood row with
    | (t, .error err) => (t.fail .addIntegerCut err, added)
    | (t, .ok ()) => (t, added + 1)

/-- Hand over all queued no-good cuts. -/
def flushIntegerCuts (t : Turn α) (e : Event α) : Turn α :=
  let cuts := t.store.integerCuts
  if cuts.isEmpty then t
  else
    let emptied := t.mapStore fun s => { s with integerCuts := [] }
    let (t, added) := cuts.foldl (flushIntegerCut e) (emptied, 0)
    (t.mapSession (·.modifyStatistics fun c =>
      { c with integerCuts := c.integerCuts + added })).note [.integerCutsAdded added]

end Turn

end OuterApprox
