import OuterApprox.Problem.Constraint

/-!
# Problems

A mixed-integer nonlinear problem as the loop sees it: variables, nonlinear
constraints and the objective. Linear constraints live in the MILP engine and
are not part of it. Variables and constraints are known by their position.

An objective that is not linear may be carried by an auxiliary variable, which
stands for its value: minimizing `f` becomes minimizing the variable over the
epigraph of `f`.

## Main definitions

* `Sense`, `ObjectiveClass`, `Objective`: What is optimized.
* `Domain`, `Variable`: What is decided.
* `Problem`, and its builders `Problem.addVariable`, `Problem.addConstraint`,
  `Problem.setAuxiliary`, `Problem.setDualUnbounded`.
* `Problem.checkDimension`: Whether a point has one coordinate per variable.
* `Problem.epigraphValue`, `Problem.epigraphGradient`: The epigraph constraint.
-/

namespace OuterApprox

/-- The direction of optimization. -/
inductive Sense where
  /-- Smaller is better. -/
  | minimize
  /-- Larger is better. -/
  | maximize
  deriving DecidableEq, Repr

namespace Sense

variable {α : Type} [Scalar α]

/-- Whether `a` is strictly better than `b`. -/
def better (sense : Sense) (a b : α) : Bool :=
  match sense with
  | minimize => decide (a < b)
  | maximize => decide (b < a)

/-- `a` made worse by `d`. -/
def worsen (sense : Sense) (a d : α) : α :=
  match sense with
  | minimize => a + d
  | maximize => a - d

/-- `a` made better by `d`. -/
def improve (sense : Sense) (a d : α) : α :=
  match sense with
  | minimize => a - d
  | maximize => a + d

/-- The value that every number is better than. -/
def worst (sense : Sense) : α :=
  match sense with
  | minimize => Scalar.infinity
  | maximize => -Scalar.infinity

/-- The value that is better than every number. -/
def best (sense : Sense) : α :=
  match sense with
  | minimize => -Scalar.infinity
  | maximize => Scalar.infinity

/-- The factor that turns the sense into minimization. -/
def sign (sense : Sense) : α :=
  match sense with
  | minimize => 1.0
  | maximize => -1.0

/-- Whether the sense is minimization. -/
def isMinimize : Sense → Bool
  | minimize => true
  | maximize => false

end Sense

/-- How hard an objective is. -/
inductive ObjectiveClass where
  /-- Affine. -/
  | linear
  /-- Quadratic, and the engine takes it as it is. -/
  | quadratic
  /-- Quadratic, moved into an epigraph constraint. -/
  | quadraticAsNonlinear
  /-- A signomial. -/
  | signomial
  /-- Anything else. -/
  | nonlinear
  deriving DecidableEq, Repr

namespace ObjectiveClass

/-- The class assumed unless another is named. -/
def standard : ObjectiveClass := linear

/-- All classes, from easy to hard. -/
def all : List ObjectiveClass :=
  [linear, quadratic, quadraticAsNonlinear, signomial, nonlinear]

/-- The name in reports. -/
def label : ObjectiveClass → String
  | linear => "Linear"
  | quadratic => "Quadratic"
  | quadraticAsNonlinear => "QuadraticConsideredAsNonlinear"
  | signomial => "Signomial"
  | nonlinear => "Nonlinear"

/-- Whether the engine cannot take the objective, so that it needs cuts. -/
def isAboveQuadratic : ObjectiveClass → Bool
  | linear => false
  | quadratic => false
  | quadraticAsNonlinear => true
  | signomial => true
  | nonlinear => true

end ObjectiveClass

/-- A function to optimize. -/
structure Objective (α : Type) where
  /-- The function. -/
  function : SmoothFunction α
  /-- How hard it is. -/
  classification : ObjectiveClass
  /-- The direction of optimization. -/
  sense : Sense

/-- An affine objective. -/
def Objective.affine {α : Type} [Scalar α] (f : Affine α) (sense : Sense) : Objective α :=
  { function := f.toFunction, classification := .linear, sense }

/-- The values a variable may take between its bounds. -/
inductive Domain where
  /-- All numbers. -/
  | real
  /-- Zero and one. -/
  | binary
  /-- All integers. -/
  | integer
  deriving DecidableEq, Repr

namespace Domain

/-- All domains. -/
def all : List Domain := [real, binary, integer]

/-- The name in reports. -/
def label : Domain → String
  | real => "Real"
  | binary => "Binary"
  | integer => "Integer"

/-- Whether the domain holds integers only. -/
def isDiscrete : Domain → Bool
  | real => false
  | binary => true
  | integer => true

end Domain

/-- A variable. -/
structure Variable (α : Type) where
  /-- The name, for reports. -/
  name : String
  /-- The lower bound, possibly infinite. -/
  lower : α
  /-- The upper bound, possibly infinite. -/
  upper : α
  /-- The values it may take. -/
  domain : Domain
  /-- Whether it was marked as able to make the dual problem unbounded. -/
  dualUnbounded : Bool

namespace Variable

variable {α : Type} [Scalar α]

/-- Whether the variable is marked, or has a bound of at least `threshold` in
    magnitude. -/
def isDualUnbounded (v : Variable α) (threshold : α) : Bool :=
  v.dualUnbounded || decide (v.lower ≤ -threshold) || decide (threshold ≤ v.upper)

end Variable

/-- A mixed-integer nonlinear problem without its linear constraints. -/
structure Problem (α : Type) where
  /-- The variables, by position. -/
  vars : List (Variable α)
  /-- The nonlinear constraints, by position. -/
  constraints : List (Constraint α)
  /-- The objective. -/
  objective : Objective α
  /-- The variable that carries the objective, if any. -/
  auxiliary : Option Nat

namespace Problem

variable {α : Type}

/-- A problem with an objective and nothing else. -/
def ofObjective (objective : Objective α) : Problem α :=
  { vars := [], constraints := [], objective, auxiliary := none }

/-- The number of variables. -/
def dimension (p : Problem α) : Nat := p.vars.length

/-- Add a constraint at the end. -/
def addConstraint (p : Problem α) (c : Constraint α) : Problem α :=
  { p with constraints := p.constraints ++ [c] }

/-- Name the variable that carries the objective. -/
def setAuxiliary (p : Problem α) (i : Nat) : Except ModelError (Problem α) :=
  if i < p.dimension then .ok { p with auxiliary := some i }
  else .error (.auxiliaryOutOfRange i p.dimension)

/-- Mark or unmark a variable as able to make the dual problem unbounded. -/
def setDualUnbounded (p : Problem α) (i : Nat) (flag : Bool) :
    Except ModelError (Problem α) :=
  if i < p.dimension then
    .ok { p with vars := p.vars.modify i fun v => { v with dualUnbounded := flag } }
  else .error (.variableOutOfRange i p.dimension)

/-- Fails unless the point has one coordinate per variable. -/
def checkDimension (p : Problem α) (x : Point α) : Except ModelError Unit :=
  if x.length = p.dimension then .ok () else .error (.dimension p.dimension x.length)

/-- The positions of the variables that pass a test. -/
def indicesWhere (p : Problem α) (test : Variable α → Bool) : List Nat :=
  (p.vars.zipIdx.filter fun q => test q.1).map (·.2)

/-- The positions of all constraints. -/
def constraintIndices (p : Problem α) : List Nat := List.range p.constraints.length

/-- The direction of optimization. -/
def sense (p : Problem α) : Sense := p.objective.sense

/-- The value of the objective. -/
def objectiveValue (p : Problem α) (x : Point α) : α := p.objective.function.value x

/-- Whether a cut from the constraint at position `i` holds globally. A position
    without a constraint gives no cut, and counts as convex. -/
def isConvexAt (p : Problem α) (i : Nat) : Bool := (p.constraints[i]?).all (·.convex)

variable [Scalar α]

/-- Add a variable at the end. Bounds of a binary are cut to zero and one. -/
def addVariable (p : Problem α) (name : String) (lower upper : α) (domain : Domain) :
    Problem α :=
  let v : Variable α :=
    match domain with
    | .binary => ⟨name, Scalar.max lower 0.0, Scalar.min upper 1.0, domain, false⟩
    | _ => ⟨name, lower, upper, domain, false⟩
  { p with vars := p.vars ++ [v] }

/-- The residual of the epigraph constraint: how far the objective is beyond
    the variable that carries it. -/
def epigraphValue (p : Problem α) (x : Point α) : Option α :=
  p.auxiliary.bind fun aux => (x[aux]?).map fun level =>
    match p.sense with
    | .minimize => p.objectiveValue x - level
    | .maximize => level - p.objectiveValue x

/-- The gradient of the epigraph residual. -/
def epigraphGradient (p : Problem α) (x : Point α) :
    Except ModelError (SparseVector α) :=
  match p.auxiliary with
  | none => .error .noAuxiliary
  | some aux =>
    match p.objective.function.gradient x with
    | .error e => .error e
    | .ok g =>
      let sign : α := p.sense.sign
      .ok ((g.mapValues (· * sign)).alter aux fun old => old.getD 0.0 - sign)

/-- The variables that may be to blame for an unbounded dual problem. -/
def dualUnboundedIndices (p : Problem α) (threshold : α) : List Nat :=
  p.indicesWhere (·.isDualUnbounded threshold)

end Problem

end OuterApprox
