/-!
# Statuses

How a search, or a whole solve, ended.

## Main definitions

* `Status`: The possible endings.
* `Status.mayHaveSolution`: Whether the engine may hold a solution afterwards.
-/

namespace OuterApprox

/-- How a search ended. -/
inductive Status where
  /-- Optimal within tolerance. -/
  | optimal
  /-- Some feasible solution was found. -/
  | feasible
  /-- There is no feasible solution. -/
  | infeasible
  /-- The objective has no bound. -/
  | unbounded
  /-- Enough solutions were found. -/
  | solutionLimit
  /-- Time ran out. -/
  | timeLimit
  /-- Nodes ran out. -/
  | nodeLimit
  /-- Iterations ran out. -/
  | iterationLimit
  /-- The search was told to stop. -/
  | abort
  /-- The search failed. -/
  | error
  /-- Nothing was solved. -/
  | notSolved
  deriving DecidableEq, Repr

namespace Status

/-- The status before any search. -/
def standard : Status := notSolved

/-- All statuses. -/
def all : List Status :=
  [optimal, feasible, infeasible, unbounded, solutionLimit, timeLimit, nodeLimit,
   iterationLimit, abort, error, notSolved]

/-- The name in reports. -/
def label : Status → String
  | optimal => "Optimal"
  | feasible => "Feasible"
  | infeasible => "Infeasible"
  | unbounded => "Unbounded"
  | solutionLimit => "SolutionLimit"
  | timeLimit => "TimeLimit"
  | nodeLimit => "NodeLimit"
  | iterationLimit => "IterationLimit"
  | abort => "Abort"
  | error => "Error"
  | notSolved => "NotSolved"

/-- Whether the search ran to its end or to a limit, so that its engine may hold
    a solution and a final bound. -/
def mayHaveSolution : Status → Bool
  | optimal | feasible | solutionLimit | timeLimit | nodeLimit | iterationLimit | abort => true
  | infeasible | unbounded | error | notSolved => false

end Status

end OuterApprox
