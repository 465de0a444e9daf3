import OuterApprox.Cut.Hyperplane
import OuterApprox.LineSearch
import OuterApprox.Session

/-!
# Choosing hyperplanes

Which constraints to linearize at which points. Cutting planes are taken at the
candidates themselves. Supporting hyperplanes are taken where the segment from
the interior point to a violated candidate leaves the feasible region; without
an interior point, for a candidate that violates nothing, or when the line
search fails, the candidate itself serves.

An objective that the engine cannot take has an epigraph constraint of its own.
A candidate below the epigraph is lifted onto it along the auxiliary variable
and linearized there.

Requests are only listed here. A selection never requests more hyperplanes than
the settings allow, and stops looking at candidates once it has that many.

## Main definitions

* `Requests`: Hyperplanes and remarks.
* `Session.requestsAt`: The most deviating constraints at one point.
* `Session.visitAll`: Candidates one after the other, while there is room.
* `Session.cuttingPlanes`, `Session.supportingHyperplanes`: The two strategies.
* `Session.select`: The strategy at work.
* `Session.epigraphRequests`: The objective.
-/

namespace OuterApprox

/-- Hyperplanes asked for, and what there is to say about the choice. -/
structure Requests (α : Type) where
  /-- The hyperplanes in order. -/
  hyperplanes : List (Hyperplane α)
  /-- The remarks in order. -/
  remarks : List (Diagnostic α)

namespace Requests

variable {α : Type}

/-- Nothing. -/
def empty : Requests α := ⟨[], []⟩

/-- One after the other. -/
def append (a b : Requests α) : Requests α :=
  ⟨a.hyperplanes ++ b.hyperplanes, a.remarks ++ b.remarks⟩

/-- Remarks made before anything is asked for. -/
def saying (remarks : List (Diagnostic α)) (r : Requests α) : Requests α :=
  { r with remarks := remarks ++ r.remarks }

end Requests

namespace Session

variable {α : Type} [Scalar α]

/-- Requests for deviations in order while there is room. A deviation strictly
    inside its constraint asks for nothing. -/
def requestsFor (x : Point α) (source : CutSource) : Nat → List (Deviation α) → Requests α
  | _, [] => .empty
  | 0, _ => .empty
  | room + 1, d :: rest =>
    if d.value < 0.0 then
      (requestsFor x source (room + 1) rest).saying [.pointInside d.constraint d.value]
    else
      Requests.append ⟨[⟨.constraint d.constraint, x, source⟩], []⟩
        (requestsFor x source room rest)

/-- Requests at one point for its most deviating constraints. -/
def requestsAt (s : Session α) (x : Point α) (source : CutSource) (room : Nat) : Requests α :=
  requestsFor x source room (s.problem.mostDeviating x s.settings.cuttingPlane.selectionFactor)

/-- Visit candidates in order, each with its position and the room left, and
    stop when there is none. -/
def visitAll (visit : Nat → Candidate α → Nat → Requests α) :
    Nat → Nat → List (Candidate α) → Requests α
  | _, _, [] => .empty
  | position, room, c :: rest =>
    let here := visit position c room
    let left := room - here.hyperplanes.length
    if left = 0 then here else here.append (visitAll visit (position + 1) left rest)

/-- Cutting planes at the candidates themselves. -/
def cuttingPlanes (s : Session α) (candidates : List (Candidate α)) (milp : Bool) :
    Requests α :=
  visitAll (fun position c room => s.requestsAt c.point (.ofPosition position milp false) room)
    0 s.settings.dual.maxHyperplanes candidates

/-- Supporting hyperplanes for one candidate. -/
def supportingAt (s : Session α) (method : LineSearch.Method α) (interior : Candidate α)
    (milp : Bool) (position : Nat) (c : Candidate α) (room : Nat) : Requests α :=
  let direct := s.requestsAt c.point (.ofPosition position milp false) room
  if 0.0 < c.deviationValue then
    let stop : LineSearch.Stopping α :=
      { maxIterations := s.settings.boundary.maxIterations
        width := s.settings.boundary.widthTolerance
        deviation := s.settings.boundary.deviationTolerance }
    match method s.problem interior.point c.point stop s.problem.constraintIndices false with
    | .ok r =>
      (s.requestsAt r.exterior (.ofPosition position milp true) room).saying r.remarks
    | .error e => direct.saying [.projectionFailed e]
  else direct

/-- Supporting hyperplanes, projected from the interior point. -/
def supportingHyperplanes (s : Session α) (method : LineSearch.Method α)
    (interior : Option (Candidate α)) (candidates : List (Candidate α)) (milp : Bool) :
    Requests α :=
  match interior with
  | none => (s.cuttingPlanes candidates milp).saying [.noInterior]
  | some inner =>
    visitAll (s.supportingAt method inner milp) 0 s.settings.dual.maxHyperplanes candidates

/-- The hyperplanes a strategy asks for. -/
def select (s : Session α) (strategy : CutStrategy) (interior : Option (Candidate α))
    (candidates : List (Candidate α)) (milp : Bool) : Requests α :=
  match strategy with
  | .cuttingPlane => s.cuttingPlanes candidates milp
  | .supportingHyperplane => s.supportingHyperplanes LineSearch.find interior candidates milp

/-- Whether the objective needs cuts of its own. -/
def objectiveNeedsCuts (s : Session α) : Bool := s.problem.objective.classification.isAboveQuadratic

/-- A candidate lifted onto the epigraph, if it lies below it by more than the
    tolerance. -/
def epigraphRequest? (s : Session α) (aux : Nat) (c : Candidate α) : Option (Hyperplane α) :=
  match s.problem.epigraphValue c.point with
  | none => none
  | some residual =>
    if s.settings.termination.constraintTolerance < residual then
      some ⟨.objective, c.point.setCoord aux (s.problem.objectiveValue c.point), .epigraph⟩
    else none

/-- Hyperplanes for the objective. -/
def epigraphRequests (s : Session α) (candidates : List (Candidate α)) : Requests α :=
  if !s.objectiveNeedsCuts then .empty
  else
    match s.problem.auxiliary with
    | none => ⟨[], [.noAuxiliary]⟩
    | some aux =>
      ⟨(candidates.filterMap (s.epigraphRequest? aux)).take s.settings.dual.maxHyperplanes, []⟩

end Session

end OuterApprox
