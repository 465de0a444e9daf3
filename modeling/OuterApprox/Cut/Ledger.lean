import OuterApprox.Cut.Hyperplane

/-!
# The cut ledger

Every hyperplane the engine accepted, in the order of acceptance. Entries are
numbered from zero and never removed; the only thing that ever changes about an
entry is a mark that it no longer counts.

## Main definitions

* `GeneratedCut`: An accepted hyperplane.
* `CutLedger`: All of them.
* `CutLedger.record`: Add one.
* `CutLedger.markRemoved`, `CutLedger.get?`: By identifier.
-/

namespace OuterApprox

/-- A hyperplane that the engine accepted. -/
structure GeneratedCut (α : Type) where
  /-- Its identifier. -/
  id : Nat
  /-- The request it came from. -/
  hyperplane : Hyperplane α
  /-- The iteration in which it was added. -/
  iteration : Nat
  /-- Whether it was added during a search. -/
  lazy : Bool
  /-- Whether it no longer counts. -/
  removed : Bool
  /-- Whether it holds wherever the problem does. -/
  convex : Bool
  /-- The model row it became, if it was not added during a search. -/
  row : Option Nat

/-- All accepted hyperplanes. -/
structure CutLedger (α : Type) where
  /-- The entries in order. -/
  entries : List (GeneratedCut α)

namespace CutLedger

variable {α : Type}

/-- No hyperplanes. -/
def empty : CutLedger α := ⟨[]⟩

/-- The number of hyperplanes, which is also the next identifier. -/
def size (l : CutLedger α) : Nat := l.entries.length

/-- Add a hyperplane. -/
def record (l : CutLedger α) (h : Hyperplane α) (iteration : Nat) (lazy convex : Bool)
    (row : Option Nat) : CutLedger α :=
  ⟨l.entries ++
    [{ id := l.size, hyperplane := h, iteration, lazy, removed := false, convex, row }]⟩

/-- The entry with an identifier. -/
def get? (l : CutLedger α) (id : Nat) : Option (GeneratedCut α) :=
  l.entries.find? (·.id == id)

/-- Mark the entry with an identifier. -/
def markRemoved (l : CutLedger α) (id : Nat) : CutLedger α :=
  ⟨l.entries.map fun e => if e.id = id then { e with removed := true } else e⟩

end CutLedger

end OuterApprox
