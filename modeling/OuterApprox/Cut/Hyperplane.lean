import OuterApprox.Problem.Basic

/-!
# Hyperplanes

Requests to linearize something at a point, and the linear rows they become.

A request names its target, the point and how the point was obtained. The
points of an iteration come in order: the first one of a MILP iteration is its
optimum and the later ones are from the solution pool, while the points of an
LP iteration are all alike. Each can be used as it is or projected onto the
boundary first.

## Main definitions

* `CutTarget`, `PointOrigin`, `CutSource`, `Hyperplane`: A request.
* `Row`: A linear inequality.
* `Linearization`, `Linearization.row`: A first-order expansion and its row.
-/

namespace OuterApprox

/-- What a hyperplane linearizes. -/
inductive CutTarget where
  /-- The constraint at a position. -/
  | constraint (index : Nat)
  /-- The epigraph of the objective. -/
  | objective
  deriving DecidableEq, Repr

/-- Which point of an iteration a candidate is. -/
inductive PointOrigin where
  /-- The optimum of a MILP. -/
  | mipOptimum
  /-- A further solution of a MILP. -/
  | mipPool
  /-- A point of an LP relaxation. -/
  | relaxation
  deriving DecidableEq, Repr

/-- The origin of the point at a position among the points of an iteration. -/
def PointOrigin.ofPosition (position : Nat) (milp : Bool) : PointOrigin :=
  if milp then (if position = 0 then mipOptimum else mipPool) else relaxation

/-- How the point of a hyperplane was obtained. -/
inductive CutSource where
  /-- A candidate as it is. -/
  | point (origin : PointOrigin)
  /-- A candidate projected onto the boundary. -/
  | boundary (origin : PointOrigin)
  /-- A candidate projected onto the epigraph of the objective. -/
  | epigraph
  /-- A search for an interior point. -/
  | interiorSearch
  deriving DecidableEq, Repr

namespace CutSource

/-- All sources. -/
def all : List CutSource :=
  [point .mipOptimum, point .mipPool, point .relaxation,
   boundary .mipOptimum, boundary .mipPool, boundary .relaxation,
   epigraph, interiorSearch]

/-- The name in reports. -/
def label : CutSource → String
  | point .mipOptimum => "MipOptimalSolutionPoint"
  | point .mipPool => "MipSolutionPoolSolutionPoint"
  | point .relaxation => "LpRelaxedSolutionPoint"
  | boundary .mipOptimum => "MipOptimalLinesearch"
  | boundary .mipPool => "MipSolutionPoolLinesearch"
  | boundary .relaxation => "LpRelaxedLinesearch"
  | epigraph => "ObjectiveLinesearch"
  | interiorSearch => "InteriorPointSearch"

/-- The source of a candidate at a position, projected or not. -/
def ofPosition (position : Nat) (milp projected : Bool) : CutSource :=
  if projected then boundary (.ofPosition position milp) else point (.ofPosition position milp)

/-- Whether the point was projected onto something. -/
def isProjected : CutSource → Bool
  | boundary _ | epigraph => true
  | point _ | interiorSearch => false

end CutSource

/-- A request to linearize something at a point. -/
structure Hyperplane (α : Type) where
  /-- What to linearize. -/
  target : CutTarget
  /-- Where. -/
  point : Point α
  /-- How the point was obtained. -/
  source : CutSource

/-- Whether a linearization of the target holds wherever the problem does. -/
def CutTarget.isConvex {α : Type} (t : CutTarget) (p : Problem α) : Bool :=
  match t with
  | constraint i => p.isConvexAt i
  | objective => true

/-- The linear inequality `terms · x ≤ upper` in a space of some dimension. The
    rows a problem starts with may name a column twice and in any order; those
    of a linearization or a no-good cut are in increasing order of column. -/
structure Row (α : Type) where
  /-- The number of columns. -/
  dimension : Nat
  /-- Columns and coefficients; those given for one column add up. -/
  terms : List (Nat × α)
  /-- The right-hand side. -/
  upper : α

/-- The affine function `terms · x + constant`, required not to be positive. -/
structure Linearization (α : Type) where
  /-- The number of columns. -/
  dimension : Nat
  /-- The nonzero coefficients. -/
  terms : SparseVector α
  /-- The constant. -/
  constant : α

namespace Linearization

variable {α : Type} [Scalar α]

/-- The value at a point. -/
def valueAt (l : Linearization α) (x : Point α) : α := l.terms.dot x + l.constant

/-- The right-hand side once the constant is moved over. -/
def upper (l : Linearization α) : α := -l.constant

/-- The row that requires the function not to be positive. -/
def row (l : Linearization α) : Row α := ⟨l.dimension, l.terms.entries, l.upper⟩

end Linearization

end OuterApprox
