import OuterApprox.Engine.Event
import OuterApprox.Status

/-!
# Engines

What the loop needs of a MILP engine. An engine is a record of operations on a
state of any type: columns with bounds, rows with right-hand sides, an elastic
solve, a final bound, and searches.

A search is a tree. It is either over, or it has reported an event and goes on
in a way that depends on what the handler did. Every engine gives such a tree,
however it works inside, and handling a whole search is recursion over the
tree. Quantifying over trees is quantifying over everything an engine can do.

## Main definitions

* `Search`: The course of a search.
* `ElasticSolution`: The outcome of an elastic solve.
* `Engine`: The operations.
-/

namespace OuterApprox

/-- The course of a search of an engine with states `σ`. -/
inductive Search (α σ : Type) where
  /-- The search is over. -/
  | finish (state : σ) (result : Answer Status)
  /-- An event, and how the search goes on after it was handled. -/
  | report (event : Event α) (resume : List (Call α) → Search α σ)

/-- The outcome of a solve with slack on some rows. -/
structure ElasticSolution (α : Type) where
  /-- How it ended. -/
  status : Status
  /-- The slack of each requested row, in the order of the request. -/
  slacks : List α

/-- The operations of a MILP engine on states `σ`. -/
structure Engine (α σ : Type) where
  /-- The number of columns. -/
  columns : σ → Nat
  /-- The number of rows. -/
  rows : σ → Nat
  /-- Add a named row; the answer is its position. -/
  addRow : σ → Row α → String → σ × Answer Nat
  /-- The lower and upper bound of a column. -/
  columnBounds : σ → Nat → Answer (α × α)
  /-- Change the bounds of a column. -/
  setColumnBounds : σ → Nat → α → α → σ × Answer Unit
  /-- The right-hand side of a row. -/
  rowUpper : σ → Nat → Answer α
  /-- Change the right-hand side of a row. -/
  setRowUpper : σ → Nat → α → σ × Answer Unit
  /-- Search for a solution. -/
  search : σ → Search α σ
  /-- Solve with a nonnegative slack on each listed row, penalized by the
      matching price. -/
  elastic : σ → List Nat → List α → σ × Answer (ElasticSolution α)
  /-- The final bound of the last search. -/
  finalBound : σ → Answer α

end OuterApprox
