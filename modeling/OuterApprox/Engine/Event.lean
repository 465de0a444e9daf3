import OuterApprox.Cut.Hyperplane
import OuterApprox.Error

/-!
# Events of a search

While a MILP engine searches, it reports events: progress, a solved node
relaxation, a new integer solution, and others that carry nothing of interest.
During an event the handler may read seven quantities, each of which may be
unavailable, and may hand things back: rows, a solution, a cutoff, a request to
stop.

An event is a value. It holds the answers to all reads, and how the engine
answers what is handed back; rows are answered by their position among the rows
of the event, so an engine may take some and refuse others.

## Main definitions

* `Reason`, `Reason.isPassive`: Why there is an event.
* `Event`: The event and all its answers.
* `RowKind`, `Call`: What the handler did, in order.
-/

namespace OuterApprox

/-- Why there is an event. -/
inductive Reason where
  /-- Regular polling. -/
  | polling
  /-- Progress of presolve. -/
  | presolve
  /-- Progress of the simplex method. -/
  | simplex
  /-- A message. -/
  | message
  /-- Progress of the barrier method. -/
  | barrier
  /-- Progress of the search. -/
  | progress
  /-- The relaxation of a node is solved. -/
  | relaxationNode
  /-- A new integer solution. -/
  | integerSolution
  deriving DecidableEq, Repr

namespace Reason

/-- All reasons. -/
def all : List Reason :=
  [polling, presolve, simplex, message, barrier, progress, relaxationNode, integerSolution]

/-- The name in reports. -/
def label : Reason → String
  | polling => "Polling"
  | presolve => "Presolve"
  | simplex => "Simplex"
  | message => "Message"
  | barrier => "Barrier"
  | progress => "Progress"
  | relaxationNode => "RelaxationNode"
  | integerSolution => "IntegerSolution"

/-- Whether there is nothing to do. -/
def isPassive : Reason → Bool
  | polling | presolve | simplex | message | barrier => true
  | progress | relaxationNode | integerSolution => false

end Reason

/-- What an engine answers. -/
abbrev Answer (β : Type) := Except EngineError β

/-- An event and all its answers. -/
structure Event (α : Type) where
  /-- Why there is an event. -/
  reason : Reason
  /-- The best bound of the search. -/
  bound : Answer α
  /-- The objective of the integer solution. -/
  objective : Answer α
  /-- The values of the integer solution. -/
  values : Answer (Point α)
  /-- The values of the node relaxation. -/
  relaxation : Answer (Point α)
  /-- Whether the node relaxation is solved to optimality. -/
  optimal : Answer Bool
  /-- Nodes explored so far. -/
  explored : Answer Nat
  /-- Nodes still open. -/
  openNodes : Answer Nat
  /-- The answer to the row at a position among the rows of the event. -/
  onRow : Nat → Row α → Answer Unit
  /-- The answer to a solution. -/
  onSolution : Point α → Answer Unit
  /-- The answer to a cutoff. -/
  onCutoff : α → Answer Unit

/-- What a row handed over during a search stands for. -/
inductive RowKind where
  /-- A linearization. -/
  | hyperplane
  /-- A forbidden assignment of binaries. -/
  | noGood
  deriving DecidableEq, Repr

/-- What the handler of an event did. -/
inductive Call (α : Type) where
  /-- It handed over a row, and the engine took it or not. -/
  | row (kind : RowKind) (row : Row α) (taken : Bool)
  /-- It handed over a solution, and the engine took it or not. -/
  | solution (values : Point α) (taken : Bool)
  /-- It set a cutoff, and the engine took it or not. -/
  | cutoff (value : α) (taken : Bool)
  /-- It asked the engine to stop. -/
  | abort

namespace Call

variable {α : Type}

/-- Whether a row was handed over. -/
def isRow : Call α → Bool
  | row .. => true
  | _ => false

/-- Whether the engine was asked to stop. -/
def isAbort : Call α → Bool
  | abort => true
  | _ => false

/-- The row that the engine took, if any. -/
def takenRow? : Call α → Option (Row α)
  | row _ r true => some r
  | _ => none

/-- The solution that the engine took, if any. -/
def takenSolution? : Call α → Option (Point α)
  | solution x true => some x
  | _ => none

/-- The cutoff that the engine took, if any. -/
def takenCutoff? : Call α → Option α
  | cutoff c true => some c
  | _ => none

end Call

/-- Whether an answer is a success. -/
def Answer.taken {β : Type} : Answer β → Bool
  | .ok _ => true
  | .error _ => false

namespace Event

variable {α : Type}

/-- An event that answers no read and takes everything. The reads are named in
    their errors. -/
def blank (reason : Reason) : Event α where
  reason
  bound := .error (.notAvailable "bound")
  objective := .error (.notAvailable "objective")
  values := .error (.notAvailable "values")
  relaxation := .error (.notAvailable "relaxation")
  optimal := .error (.notAvailable "optimal")
  explored := .error (.notAvailable "explored")
  openNodes := .error (.notAvailable "open")
  onRow _ _ := .ok ()
  onSolution _ := .ok ()
  onCutoff _ := .ok ()

/-- Answers by position: the entry at the position, or the last one past the
    end. No entry is a success. -/
def answersFrom (failures : List (Option EngineError)) (position : Nat) : Answer Unit :=
  match failures[position]?.or failures.getLast? with
  | some (some e) => .error e
  | _ => .ok ()

end Event

end OuterApprox
