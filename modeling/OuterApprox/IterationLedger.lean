import OuterApprox.Candidate
import OuterApprox.Status

/-!
# The iteration ledger

One entry per iteration of the loop. An iteration opens when there is work to
record and the one before is closed; only the last one can change, and a closed
one is closed for good. Hyperplane totals are carried forward from one
iteration to the next.

## Main definitions

* `Iteration`, `Iteration.opened`, `Iteration.addHyperplanes`: One entry.
* `IterationLedger`: All entries.
* `IterationLedger.opened`, `IterationLedger.modifyLast`,
  `IterationLedger.closeLast`: The only changes.
-/

namespace OuterApprox

/-- One iteration of the loop. -/
structure Iteration (α : Type) where
  /-- Its number, from one. -/
  number : Nat
  /-- Whether it is closed. -/
  closed : Bool
  /-- Whether it belongs to a search with integers. -/
  milp : Bool
  /-- The status recorded for it. -/
  status : Status
  /-- The objective the engine reported for its candidate. -/
  objective : α
  /-- Nodes explored since the iteration before. -/
  explored : Nat
  /-- Nodes open when it was recorded. -/
  openNodes : Nat
  /-- Hyperplanes added in it. -/
  added : Nat
  /-- Hyperplanes added up to and in it. -/
  total : Nat
  /-- Hyperplanes added in it at relaxation nodes. -/
  relaxed : Nat
  /-- The dual bound when it was recorded. -/
  dualBound : α
  /-- The primal bound when it was recorded. -/
  primalBound : α
  /-- Its candidates. -/
  candidates : List (Candidate α)
  /-- The worst deviation of its candidate. -/
  deviation : Option (Deviation α)
  /-- Whether the model was changed to recover from a failed search. -/
  repaired : Bool

namespace Iteration

variable {α : Type}

/-- A new iteration that starts with `total` hyperplanes from before. -/
def opened [Scalar α] (number : Nat) (milp : Bool) (total : Nat) : Iteration α where
  number
  closed := false
  milp
  status := .notSolved
  objective := Scalar.undefined
  explored := 0
  openNodes := 0
  added := 0
  total
  relaxed := 0
  dualBound := Scalar.undefined
  primalBound := Scalar.undefined
  candidates := []
  deviation := none
  repaired := false

/-- Count hyperplanes. -/
def addHyperplanes (it : Iteration α) (count : Nat) : Iteration α :=
  { it with added := it.added + count, total := it.total + count }

end Iteration

/-- All iterations, and how many are closed. -/
structure IterationLedger (α : Type) where
  /-- The iterations in order. -/
  iterations : List (Iteration α)
  /-- The number of closed ones. -/
  solved : Nat

namespace IterationLedger

variable {α : Type}

/-- No iterations. -/
def empty : IterationLedger α := ⟨[], 0⟩

/-- The live iteration: the last one. -/
def last? (l : IterationLedger α) : Option (Iteration α) := l.iterations.getLast?

/-- The iteration before the live one. -/
def previous? (l : IterationLedger α) : Option (Iteration α) := l.iterations.dropLast.getLast?

/-- The number of iterations. -/
def size (l : IterationLedger α) : Nat := l.iterations.length

/-- The number of the live iteration, zero without one. -/
def lastNumber (l : IterationLedger α) : Nat := l.last?.elim 0 (·.number)

/-- Hyperplanes added over all iterations. -/
def total (l : IterationLedger α) : Nat := l.last?.elim 0 (·.total)

/-- Whether a new iteration has to be opened before work can be recorded. -/
def needsNew (l : IterationLedger α) : Bool := l.last?.all (·.closed)

/-- Open a new iteration. -/
def opened [Scalar α] (l : IterationLedger α) (milp : Bool) : IterationLedger α :=
  { l with iterations := l.iterations ++ [Iteration.opened (l.size + 1) milp l.total] }

/-- Change the live iteration. -/
def modifyLast (l : IterationLedger α) (f : Iteration α → Iteration α) : IterationLedger α :=
  match l.last? with
  | none => l
  | some it => { l with iterations := l.iterations.dropLast ++ [f it] }

/-- Whether there is a live iteration that is not closed. -/
def lastIsOpen (l : IterationLedger α) : Bool := l.last?.any (!·.closed)

/-- Close the live iteration, if there is one and it is not closed. -/
def closeLast (l : IterationLedger α) : IterationLedger α :=
  if l.lastIsOpen then
    { l.modifyLast (fun it => { it with closed := true }) with solved := l.solved + 1 }
  else l

end IterationLedger

end OuterApprox
