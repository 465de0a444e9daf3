import OuterApprox.Diagnostic

/-!
# Line search

Finding where a segment leaves the feasible region. Along the segment from an
inner to an outer point, the largest normalized value of a set of constraints
is a function `h` of one parameter, and the search keeps a bracket whose inner
end has `h ≤ 0`, whose outer end has not, and that shrinks with every
evaluation.

The next parameter is taken by false position with weights, halved at an end
that stays put, and by bisection when one end has stayed put too long or the
end values cannot be used. A parameter outside the bracket is replaced by the
midpoint; when even the midpoint is not strictly inside, the bracket cannot
shrink any further and the search is over. So the bracket strictly shrinks at
every evaluation whatever the shape of `h`.

If the outer point is feasible there is nothing to find. If the inner point is
infeasible, the inner end stays where it is until some evaluation is feasible.

## Main definitions

* `LineSearch.Stopping`: When to stop.
* `LineSearch.Result`: The final bracket.
* `LineSearch.level`: The function `h`.
* `LineSearch.Bracket`, `Bracket.probe?`, `Bracket.move`: One step.
* `LineSearch.narrow`: Steps up to a budget.
* `LineSearch.find`: The whole search.
-/

namespace OuterApprox

namespace LineSearch

variable {α : Type}

/-- When a search stops. -/
structure Stopping (α : Type) where
  /-- Most evaluations inside the bracket. -/
  maxIterations : Nat
  /-- Bracket width, in the parameter of the segment, that is narrow enough. -/
  width : α
  /-- Value at the outer end that is small enough. -/
  deviation : α

/-- The final bracket of a search. -/
structure Result (α : Type) where
  /-- The point at the inner end. -/
  interior : Point α
  /-- The point at the outer end, just past the boundary. -/
  exterior : Point α
  /-- The number of evaluations inside the bracket. -/
  iterations : Nat
  /-- The parameter of the inner end. -/
  lower : α
  /-- The parameter of the outer end. -/
  upper : α
  /-- The worst constraint at the outer end, if asked for. -/
  mostDeviating : Option (ConstraintValue α)
  /-- What the search has to say. -/
  remarks : List (Diagnostic α)

/-- A method of searching between an inner and an outer point over the
    constraints at the listed positions. The flag asks for the worst constraint
    at the outer end. -/
abbrev Method (α : Type) :=
  Problem α → Point α → Point α → Stopping α → List Nat → Bool →
    Except ModelError (Result α)

/-- An end of the bracket. -/
inductive Side where
  /-- The inner end. -/
  | inner
  /-- The outer end. -/
  | outer
  deriving DecidableEq, Repr

/-- A bracket in the parameter of the segment. -/
structure Bracket (α : Type) where
  /-- The inner end. -/
  lower : α
  /-- The outer end. -/
  upper : α
  /-- The value at the inner end. -/
  lowerValue : α
  /-- The value at the outer end. -/
  upperValue : α
  /-- The weight of the inner end: its value, halved while the end stays put. -/
  lowerWeight : α
  /-- The weight of the outer end. -/
  upperWeight : α
  /-- The end that moved last. -/
  moved : Option Side
  /-- How often in a row it moved. -/
  streak : Nat
  /-- Evaluations so far. -/
  iterations : Nat

variable [Scalar α]

/-- The width of the final bracket. -/
def Result.width (r : Result α) : α := r.upper - r.lower

/-- The largest normalized value of a nonempty list of constraints at parameter
    `t` of a segment. -/
def level (first : Nat × Constraint α) (rest : List (Nat × Constraint α))
    (interior exterior : Point α) (t : α) : α :=
  let x := Point.between interior exterior t
  (ConstraintValue.worst (first.2.valueAt first.1 x)
    (rest.map fun q => q.2.valueAt q.1 x)).normalized

/-- How often one end may move in a row before the other is approached by
    bisection. -/
def stallLimit : Nat := 3

namespace Bracket

/-- The whole segment, with the values at its ends. -/
def whole (lowerValue upperValue : α) : Bracket α :=
  { lower := 0.0
    upper := 1.0
    lowerValue
    upperValue
    lowerWeight := lowerValue
    upperWeight := upperValue
    moved := none
    streak := 0
    iterations := 0 }

/-- Whether the bracket is narrow enough or its outer end close enough. -/
def isDone (b : Bracket α) (stop : Stopping α) : Bool :=
  decide (b.upper - b.lower ≤ stop.width) || decide (b.upperValue ≤ stop.deviation)

/-- Whether a parameter lies strictly inside. -/
def contains (b : Bracket α) (t : α) : Bool := decide (b.lower < t) && decide (t < b.upper)

/-- The middle of the bracket. -/
def middle (b : Bracket α) : α := 0.5 * (b.lower + b.upper)

/-- Where the line through the weighted end values vanishes. -/
def falsePosition (b : Bracket α) : α :=
  b.upper - b.upperWeight * (b.upper - b.lower) / (b.upperWeight - b.lowerWeight)

/-- The next parameter to evaluate, strictly inside the bracket, if there is
    one. -/
def probe? (b : Bracket α) (bisectOnly : Bool) : Option α :=
  let wanted :=
    if bisectOnly || decide (stallLimit ≤ b.streak) then b.middle else b.falsePosition
  -- False position can leave the bracket when a weight is zero or overflows.
  let t := if b.contains wanted then wanted else b.middle
  if b.contains t then some t else none

/-- Move the end on the same side of the boundary as `t`, whose value is
    `value`. The weight of an end that stays put for the second time is
    halved. -/
def move (b : Bracket α) (t value : α) : Bracket α :=
  if value ≤ 0.0 then
    { b with
      lower := t
      lowerValue := value
      lowerWeight := value
      upperWeight := if b.moved = some .inner then b.upperWeight * 0.5 else b.upperWeight
      streak := if b.moved = some .inner then b.streak + 1 else 1
      moved := some .inner
      iterations := b.iterations + 1 }
  else
    { b with
      upper := t
      upperValue := value
      upperWeight := value
      lowerWeight := if b.moved = some .outer then b.lowerWeight * 0.5 else b.lowerWeight
      streak := if b.moved = some .outer then b.streak + 1 else 1
      moved := some .outer
      iterations := b.iterations + 1 }

end Bracket

/-- Shrink a bracket until it is good enough, cannot shrink, or the budget of
    evaluations is used up. -/
def narrow (h : α → α) (stop : Stopping α) (bisectOnly : Bool) :
    Nat → Bracket α → Bracket α
  | 0, b => b
  | budget + 1, b =>
    if b.isDone stop then b
    else
      match b.probe? bisectOnly with
      | none => b
      | some t => narrow h stop bisectOnly budget (b.move t (h t))

/-- The search when the outer point is infeasible: `outerValue` is its value. -/
def crossing (h : α → α) (stop : Stopping α) (outerValue : α) : Bracket α :=
  -- The line through the end values makes sense only across a sign change.
  let innerValue := h 0.0
  let bisectOnly :=
    !(decide (innerValue ≤ 0.0)) || !Scalar.isFinite innerValue || !Scalar.isFinite outerValue
  narrow h stop bisectOnly stop.maxIterations (.whole innerValue outerValue)

/-- Search for the boundary between an inner and an outer point. -/
def find : Method α := fun p interior exterior stop indices wantWorst => do
  p.checkDimension interior
  p.checkDimension exterior
  if indices.isEmpty then
    throw .noConstraints
  match p.constraintsAt indices with
  | [] => throw .unknownConstraints
  | first :: rest =>
    let h := level first rest interior exterior
    let worstAt := fun x => if wantWorst then p.maxValue? x indices else none
    let outerValue := h 1.0
    if outerValue ≤ 0.0 then
      -- The whole segment is the bracket, and its ends are the points given.
      return {
        interior
        exterior
        iterations := 0
        lower := 0.0
        upper := 1.0
        mostDeviating := worstAt exterior
        remarks := [.exteriorFeasible outerValue] }
    else
      -- An infeasible inner point is worth a warning but no reason to give up.
      let innerValue := h 0.0
      let b := crossing h stop outerValue
      let outer := Point.between interior exterior b.upper
      let warning : List (Diagnostic α) :=
        if 0.0 < innerValue then [.interiorInfeasible innerValue] else []
      return {
        interior := Point.between interior exterior b.lower
        exterior := outer
        iterations := b.iterations
        lower := b.lower
        upper := b.upper
        mostDeviating := worstAt outer
        remarks := warning ++
          [.bracketed b.iterations b.lower b.upper b.lowerValue b.upperValue] }

end LineSearch

end OuterApprox
