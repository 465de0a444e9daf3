import OuterApprox.LineSearch
import OuterApprox.Problem.Integrality
import OuterApprox.Session

/-!
# Primal line search

Looking for a feasible point on the way from the interior point to an infeasible
integer candidate. The discrete coordinates of the interior point are first
replaced by the candidate's, so that every point of the segment has the
candidate's integer assignment; the feasible end of the final bracket is then a
primal candidate.

Only the width of the bracket stops the search: it is the inner end that has to
come close to the boundary, so a small value at the outer end is no reason to
stop.

## Main definitions

* `Problem.anchorAt`: The inner point with the candidate's integers.
* `Session.primalLine?`: The line search, where it makes sense.
* `Session.primalSearch`: The candidate it yields.
* `Session.primalSearchRemarks`: What there is to say about it.
-/

namespace OuterApprox

/-- The inner point with the candidate's values on the discrete variables. -/
def Problem.anchorAt {α : Type} (p : Problem α) (interior candidate : Point α) : Point α :=
  interior.mapIdx fun i a =>
    if (p.vars[i]?).any (·.domain.isDiscrete) then (candidate[i]?).getD a else a

namespace Session

variable {α : Type} [Scalar α]

/-- Distance from an integer that counts as integral. -/
def integerTolerance : α := 1e-6

/-- The line search towards a candidate. There is none if the candidate violates
    nothing, or if every variable is discrete and nothing could move. -/
def primalLine? (s : Session α) (interior candidate : Candidate α) :
    Option (Except ModelError (LineSearch.Result α)) :=
  if !(decide (0.0 < candidate.deviationValue)) || s.problem.isPureDiscrete then none
  else
    let stop : LineSearch.Stopping α :=
      { maxIterations := s.settings.boundary.maxIterations
        width := s.settings.boundary.widthTolerance
        deviation := 0.0 }
    some (LineSearch.find s.problem (s.problem.anchorAt interior.point candidate.point)
      candidate.point stop s.problem.constraintIndices false)

/-- The feasible point found on the way to a candidate, if any. -/
def primalSearch (s : Session α) (interior candidate : Candidate α) : Option (Candidate α) :=
  match s.primalLine? interior candidate with
  | some (.ok r) =>
    let found := s.problem.candidate r.interior candidate.iteration
    let tolerance := s.settings.termination.constraintTolerance
    if !s.problem.isIntegerFeasible r.interior integerTolerance then none
    else if found.deviation.any (fun d => decide (tolerance < d.value)) then none
    else some found
  | _ => none

/-- What there is to say about the search. -/
def primalSearchRemarks (s : Session α) (interior candidate : Candidate α) :
    List (Diagnostic α) :=
  match s.primalLine? interior candidate with
  | some (.ok r) => r.remarks
  | some (.error e) => [.primalSearchFailed e]
  | none => []

end Session

end OuterApprox
