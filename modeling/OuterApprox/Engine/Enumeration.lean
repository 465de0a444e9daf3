import OuterApprox.Engine.Tabular
import OuterApprox.Problem.Basic

/-!
# Enumerating engines

An engine for small problems: its solutions come from a list of points given
beforehand. It takes the best remaining point that satisfies the bounds and all
rows, reports it, and goes on with the rows and the cutoff it was handed, until
no point is left that beats the incumbent.

Every round uses up a point for good: after it was reported, either a row cuts
it off, or it is the incumbent and no longer beats it. So a search takes at
most as many rounds as there are points, and one more to notice the end.

## Main definitions

* `Enumeration`: The points and what to optimize.
* `SearchState`: What a search has been told so far.
* `Enumeration.best?`: The best remaining point.
* `Enumeration.rounds`: The rounds of a search.
* `Enumeration.elastic`: The point that needs the cheapest slack.
* `Enumeration.engine`: The engine.
-/

namespace OuterApprox

/-- What an enumerating engine searches. -/
structure Enumeration (α : Type) where
  /-- The coefficients of the objective. -/
  objective : List α
  /-- The direction of optimization. -/
  sense : Sense
  /-- The points, in order of preference among equals. -/
  points : List (Point α)
  /-- Relaxations reported before the search. -/
  relaxations : List (Point α)
  /-- Whether rows handed over during the search are refused. -/
  refuseRows : Bool
  /-- A column without bounds here makes the problem unbounded. -/
  unboundedColumn : Option Nat
  /-- A column without bounds here makes the problem infeasible. -/
  infeasibleColumn : Option Nat

/-- What a search has been told so far. -/
structure SearchState (α : Type) where
  /-- Rows handed over. -/
  rows : List (Row α)
  /-- The cutoff, if one was set. -/
  cutoff : Option α
  /-- The objective of the best solution, if there is one. -/
  incumbent : Option α
  /-- Points reported. -/
  explored : Nat

variable {α : Type} [Scalar α]

/-- The left-hand side of a row at a point. -/
def Row.activity (r : Row α) (x : Point α) : α :=
  r.terms.foldl (fun s t => s + t.2 * x.coord t.1) 0.0

/-- Whether a row holds at a point, with a little slack. -/
def Row.holdsAt (r : Row α) (x : Point α) : Bool := decide (r.activity x ≤ r.upper + 1e-9)

namespace Tabular

/-- Whether a point is within the bounds, with a little slack. -/
def inBounds (m : Tabular α) (x : Point α) : Bool :=
  (x.zip m.bounds).all fun (v, lower, upper) =>
    decide (lower - 1e-9 ≤ v) && decide (v ≤ upper + 1e-9)

/-- Whether a point satisfies the bounds and all rows. -/
def admits (m : Tabular α) (x : Point α) : Bool :=
  m.inBounds x && m.rows.all fun r => r.2.holdsAt x

/-- Whether a column exists and lacks a bound on some side. -/
def lacksBound (m : Tabular α) (column : Option Nat) : Bool :=
  (column.bind fun i => m.bounds[i]?).any fun (lower, upper) =>
    decide (lower ≤ -1e30) || decide (1e30 ≤ upper)

end Tabular

namespace Enumeration

/-- All points with integral coordinates between two numbers, the first
    coordinate varying slowest. -/
def grid (low high : Int) : Nat → List (Point α)
  | 0 => [[]]
  | n + 1 =>
    let values := (List.range (high - low + 1).toNat).map fun (k : Nat) => Scalar.ofInt (low + (k : Int))
    values.flatMap fun v => (grid low high n).map fun rest => v :: rest

/-- The objective at a point. -/
def value (en : Enumeration α) (x : Point α) : α :=
  (en.objective.zip x).foldl (fun s t => s + t.1 * t.2) 0.0

/-- Whether a point is still worth reporting. -/
def isOpen (en : Enumeration α) (m : Tabular α) (st : SearchState α) (x : Point α) : Bool :=
  !(st.cutoff.any fun c => en.sense.better c (en.value x)) &&
    m.admits x && st.rows.all (·.holdsAt x) &&
    st.incumbent.all fun best => en.sense.better (en.value x) best

/-- The best point still worth reporting, the first one among equals. -/
def best? (en : Enumeration α) (m : Tabular α) (st : SearchState α) : Option (Point α) :=
  (en.points.filter (en.isOpen m st)).foldl
    (fun best x =>
      match best with
      | none => some x
      | some b => if en.sense.better (en.value x) (en.value b) then some x else some b)
    none

/-- An event of the search. -/
def event (en : Enumeration α) (reason : Reason) (bound : α) (explored : Nat) : Event α :=
  { Event.blank reason with
    bound := .ok bound
    optimal := .ok (reason == .relaxationNode)
    explored := .ok explored
    openNodes := .ok 1
    onRow := fun _ _ =>
      if en.refuseRows && reason != .progress then
        .error (.cutRejected "lazy constraints disabled")
      else .ok () }

/-- What a search is told by the handler of an integer solution. The solution
    reported becomes the incumbent unless a row cuts it off; a solution handed
    back becomes the incumbent if it is better and satisfies everything. -/
def learn (en : Enumeration α) (m : Tabular α) (st : SearchState α) (x : Point α)
    (calls : List (Call α)) : SearchState α :=
  -- The rows of this event count against the solutions of this event.
  let rows := st.rows ++ calls.filterMap Call.takenRow?
  let cutoff := (calls.filterMap Call.takenCutoff?).getLast?.or st.cutoff
  let incumbent := if rows.all (·.holdsAt x) then some (en.value x) else st.incumbent
  let incumbent :=
    match (calls.filterMap Call.takenSolution?).getLast? with
    | none => incumbent
    | some y =>
      let w := en.value y
      if incumbent.all (fun best => en.sense.better w best) && m.admits y &&
          rows.all (·.holdsAt y) then some w
      else incumbent
  { st with rows, cutoff, incumbent }

/-- The rounds of a search, at most `fuel` of them. -/
def rounds (en : Enumeration α) : Nat → Tabular α → SearchState α → Search α (Tabular α)
  | 0, m, _ => .finish m (.error (.solveFailed "no rounds left"))
  | fuel + 1, m, st =>
    match en.best? m st with
    | none =>
      match st.incumbent with
      | some best => .finish { m with finalBound := .ok best } (.ok .optimal)
      | none => .finish m (.ok .infeasible)
    | some x =>
      let v := en.value x
      let st := { st with explored := st.explored + 1 }
      let m := { m with finalBound := .ok v }
      m.reporting (en.event .progress v st.explored) fun m calls =>
        if calls.any Call.isAbort then .finish m (.ok .abort)
        else
          let solution :=
            { en.event .integerSolution v st.explored with objective := .ok v, values := .ok x }
          m.reporting solution fun m calls =>
            if calls.any Call.isAbort then .finish m (.ok .abort)
            else rounds en fuel m (en.learn m st x calls)

/-- Report relaxations, collect the rows they are answered with, and start the
    rounds. Requests to stop are not heeded here. -/
def relaxing (en : Enumeration α) :
    List (Point α) → Tabular α → SearchState α → Search α (Tabular α)
  | [], m, st => en.rounds (en.points.length + 1) m st
  | x :: rest, m, st =>
    let e := { en.event .relaxationNode en.sense.best st.explored with relaxation := .ok x }
    m.reporting e fun m calls =>
      relaxing en rest m { st with rows := st.rows ++ calls.filterMap Call.takenRow? }

/-- A search. -/
def search (en : Enumeration α) (m : Tabular α) : Search α (Tabular α) :=
  let m := { m with finalBound := Tabular.noFinalBound }
  if m.lacksBound en.unboundedColumn then .finish m (.ok .unbounded)
  else if m.lacksBound en.infeasibleColumn then .finish m (.ok .infeasible)
  else en.relaxing en.relaxations m ⟨[], none, none, 0⟩

/-- The slack a row needs at a point. -/
def slackAt (r : Row α) (x : Point α) : α :=
  let d := r.activity x - r.upper
  if 0.0 < d then d else 0.0

/-- The point that satisfies the bounds and all other rows and needs the cheapest
    slack on the listed rows. -/
def elastic (en : Enumeration α) (m : Tabular α) (requested : List Nat) (prices : List α) :
    Answer (ElasticSolution α) :=
  match requested.find? fun i => decide (m.rows.length ≤ i) with
  | some i => .error (.invalidIndex i m.rows.length)
  | none =>
    let rows := requested.filterMap fun i => (m.rows[i]?).map (·.2)
    let others := (m.rows.zipIdx.filter fun r => !requested.contains r.2).map (·.1.2)
    let allowed := en.points.filter fun x => m.inBounds x && others.all (·.holdsAt x)
    let priced := allowed.map fun x =>
      let slacks := rows.map (slackAt · x)
      ((slacks.zip prices).foldl (fun s t => s + t.1 * t.2) 0.0, slacks)
    let cheapest := priced.foldl
      (fun best (p : α × List α) =>
        match best with
        | none => some p
        | some b => if p.1 < b.1 then some p else some b)
      none
    match cheapest with
    | some (_, slacks) => .ok ⟨.optimal, slacks⟩
    | none => .ok ⟨.infeasible, []⟩

/-- The engine, with a fixed answer to elastic solves if one is given. -/
def engine (en : Enumeration α) (fixedElastic : Option (Answer (ElasticSolution α))) :
    Engine α (Tabular α) :=
  Tabular.engine en.search fun m rows prices =>
    fixedElastic.getD (en.elastic m rows prices)

end Enumeration

end OuterApprox
