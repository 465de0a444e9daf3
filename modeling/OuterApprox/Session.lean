import OuterApprox.BoundLedger
import OuterApprox.Clock
import OuterApprox.IterationLedger
import OuterApprox.Settings.Validation

/-!
# Sessions

Everything that lives for one solve: the problem, the settings, both ledgers,
the counters, the clock and the journal of remarks. Nothing is global; whatever
works on a session takes it and returns it.

The clock is a field like the others. Whoever compares the time limit with it looks at
it, and the next one to look finds that time has gone on.

## Main definitions

* `Statistics`: Counters.
* `Session`, `Session.start`, `Session.reset`: A session and its beginnings.
* `Session.note`: Add remarks to the journal.
* `Session.offerPrimal`, `Session.offerDual`: Offer candidates and say why they
  fail.
* `Session.openIteration`: Open an iteration and say so.
* `Session.look`: Look at the clock.
* `Session.stopReason?`: Why the search should stop, if it should.
-/

namespace OuterApprox

/-- Counters of a session. -/
structure Statistics where
  /-- Nodes explored, as recorded with the last closed iteration. -/
  explored : Nat := 0
  /-- Nodes open, as recorded with the last closed iteration. -/
  openNodes : Nat := 0
  /-- No-good cuts added. -/
  integerCuts : Nat := 0
  /-- The iteration in which hyperplanes were last added during a search. -/
  lastLazyIteration : Nat := 0
  /-- Events that were not passive. -/
  events : Nat := 0
  /-- Candidates handed to the local search with fixed integers. -/
  fixedIntegerRuns : Nat := 0
  deriving DecidableEq, Repr

/-- Everything that lives for one solve. -/
structure Session (α : Type) where
  /-- The problem. -/
  problem : Problem α
  /-- The settings. -/
  settings : Settings α
  /-- The bound ledger. -/
  bounds : BoundLedger α
  /-- The iteration ledger. -/
  iterations : IterationLedger α
  /-- The counters. -/
  statistics : Statistics
  /-- The clock, started with the session. -/
  clock : Clock
  /-- Remarks, in order. -/
  journal : Array (Diagnostic α)

namespace Session

variable {α : Type} [Scalar α]

/-- A new session; the settings must be admissible. -/
def start (problem : Problem α) (settings : Settings α) (clock : Clock) :
    Except ModelError (Session α) :=
  match settings.validate with
  | .error e => .error e
  | .ok () =>
    .ok {
      problem
      settings
      bounds := .fresh problem.sense settings.termination
      iterations := .empty
      statistics := {}
      clock
      journal := #[] }

/-- Forget results and counters, and start the clock anew. The problem, the settings and the
    journal stay. -/
def reset (s : Session α) : Session α :=
  { s with
    bounds := .fresh s.problem.sense s.settings.termination
    iterations := .empty
    statistics := {}
    clock := s.clock.restart }

/-- Add remarks to the journal. -/
def note (s : Session α) (remarks : List (Diagnostic α)) : Session α :=
  { s with journal := s.journal ++ remarks }

/-- Offer a primal candidate. -/
def offerPrimal (s : Session α) (c : Candidate α) (source : PrimalSource) : Session α :=
  { s with bounds := s.bounds.offerPrimal ⟨c, source⟩ }.note (s.bounds.primalRemarks ⟨c, source⟩)

/-- Offer a dual candidate. -/
def offerDual (s : Session α) (d : DualBound α) : Session α :=
  { s with bounds := s.bounds.offerDual d }.note (s.bounds.dualRemarks d.value)

/-- Open an iteration. -/
def openIteration (s : Session α) (milp : Bool) : Session α :=
  { s with iterations := s.iterations.opened milp }.note
    [.iterationCreated (s.iterations.size + 1)]

/-- Change the live iteration. -/
def modifyIteration (s : Session α) (f : Iteration α → Iteration α) : Session α :=
  { s with iterations := s.iterations.modifyLast f }

/-- Change the counters. -/
def modifyStatistics (s : Session α) (f : Statistics → Statistics) : Session α :=
  { s with statistics := f s.statistics }

/-- Look at the clock; time goes on. -/
def look (s : Session α) : Session α := { s with clock := s.clock.tick }

/-- Whether the next look at the clock finds that time is up. -/
def timeLimitReached (s : Session α) : Bool :=
  s.clock.reached s.settings.termination.timeLimit

/-- Whether as many iterations are closed as allowed. -/
def iterationLimitReached (s : Session α) : Bool :=
  decide (s.settings.termination.iterationLimit ≤ s.iterations.solved)

/-- Why the search should stop, if it should. -/
def stopReason? (s : Session α) : Option StopReason :=
  if s.bounds.absoluteGapMet then some .absoluteGap
  else if s.bounds.relativeGapMet then some .relativeGap
  else if s.iterationLimitReached then some .iterationLimit
  else if s.timeLimitReached then some .timeLimit
  else none

/-- Whether the search should stop. -/
def terminationReached (s : Session α) : Bool :=
  s.bounds.gapMet || s.iterationLimitReached || s.timeLimitReached

end Session

end OuterApprox
