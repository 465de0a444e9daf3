import OuterApprox.Cut.Ledger
import OuterApprox.Heuristic.FixedInteger
import OuterApprox.Interior

/-!
# The cut store

What the generation of cuts remembers from one event to the next, and from one
search to the next.

## Main definitions

* `CutStore`: The ledger, what is waiting, and the points and solvers that cuts
  come from.
-/

namespace OuterApprox

/-- What the generation of cuts remembers. -/
structure CutStore (α : Type) where
  /-- Every accepted hyperplane. -/
  ledger : CutLedger α
  /-- Hyperplanes requested but not built yet. -/
  waiting : List (Hyperplane α)
  /-- No-good cuts not added yet, each a list of binaries. -/
  integerCuts : List (List Nat)
  /-- The interior point. -/
  interior : InteriorTracker α
  /-- The local search with fixed integers. -/
  fixedInteger : FixedIntegerQueue α

namespace CutStore

variable {α : Type}

/-- Nothing. -/
def empty : CutStore α := ⟨.empty, [], [], .empty, .empty⟩

/-- Request hyperplanes. -/
def request (s : CutStore α) (hs : List (Hyperplane α)) : CutStore α :=
  { s with waiting := s.waiting ++ hs }

/-- Queue a no-good cut. -/
def queueIntegerCut (s : CutStore α) (indices : List Nat) : CutStore α :=
  { s with integerCuts := s.integerCuts ++ [indices] }

end CutStore

end OuterApprox
