import OuterApprox.Proofs.CutRecord
import OuterApprox.Proofs.Linearization
import OuterApprox.Engine.Scripted

/-!
# Outer approximation

Cuts from convex constraints keep every feasible point. The hypothesis is the
gradient inequality alone: a function lies above each of its first-order
expansions, at the points where it has a value at all. The objective does the
same when it is minimized and the reverse when it is maximized, and then the cuts
of its epigraph keep every point whose auxiliary variable is beyond the
objective.

Together with the record of cuts this is a statement about whole runs: whatever
events an engine reports and whatever hyperplanes a caller adds, no row that the
ledger marks as convex ever cuts off such a point.

## Main definitions

* `SmoothFunction.AboveExpansions`, `SmoothFunction.BelowExpansions`: The
  gradient inequality and its reverse.
* `Problem.ConvexData`: The functions of a problem satisfy it.
* `Problem.Admits`: A point satisfies the convex constraints and the epigraph.

## Theorems

* `Problem.constraint_row_satisfied`, `Problem.epigraph_row_satisfied`: The rows
  of both kinds of targets.
* `Problem.row_satisfied`: The row of any convex request.
* `Solver.convex_rows_satisfied`: The rows of a whole run.
-/

namespace OuterApprox

namespace SmoothFunction

/-- A function lies above its first-order expansions, wherever it has a value. -/
def AboveExpansions (f : SmoothFunction Exact) (n : Nat) : Prop :=
  ∀ x y g, x.length = n → y.length = n → Point.Finite y → f.Evaluates n x g →
    f.value y = .undefined ∨ .finite (f.firstOrder g x y) ≤ f.value y

/-- A function lies below its first-order expansions, wherever it has a value. -/
def BelowExpansions (f : SmoothFunction Exact) (n : Nat) : Prop :=
  ∀ x y g, x.length = n → y.length = n → Point.Finite y → f.Evaluates n x g →
    f.value y = .undefined ∨ f.value y ≤ .finite (f.firstOrder g x y)

end SmoothFunction

namespace Problem

/-- The convex constraints satisfy the gradient inequality, and the objective
    satisfies it in the direction of its sense. -/
structure ConvexData (p : Problem Exact) : Prop where
  /-- Convex constraints are above their expansions. -/
  constraint : ∀ c ∈ p.constraints, c.convex = true → c.function.AboveExpansions p.dimension
  /-- The objective is above or below its expansions. -/
  objective : match p.sense with
    | .minimize => p.objective.function.AboveExpansions p.dimension
    | .maximize => p.objective.function.BelowExpansions p.dimension

/-- A point of the problem that satisfies all convex constraints, and whose
    auxiliary variable, if there is one, is not better than the objective. -/
structure Admits (p : Problem Exact) (y : Point Exact) : Prop where
  /-- There is one coordinate per variable. -/
  length : y.length = p.dimension
  /-- All coordinates are numbers. -/
  finite : y.Finite
  /-- Convex constraints hold. -/
  constraint : ∀ c ∈ p.constraints, c.convex = true → c.function.value y ≤ c.upper
  /-- The point lies in the epigraph. -/
  epigraph : ∀ aux ∈ p.auxiliary, match p.sense with
    | .minimize => p.objectiveValue y ≤ y.coord aux
    | .maximize => y.coord aux ≤ p.objectiveValue y

variable {p : Problem Exact} {x y : Point Exact} {subject : CutSubject} {value : Exact}
variable {g : SparseVector Exact} {l : Linearization Exact}

/-- A cut from a convex constraint keeps every point of the problem. -/
theorem constraint_row_satisfied (hp : p.ConvexData) (hy : p.Admits y) {i : Nat}
    (hexpansion : p.expansion (.constraint i) x = .ok ⟨subject, value, .ok g⟩)
    (hl : Linearized p x value g l) (hconvex : p.isConvexAt i = true) :
    l.row.Satisfied y := by
  rcases hl.constraint_iff hexpansion with ⟨c, hc, hevaluates, hupper, hiff⟩
  have hmem : c ∈ p.constraints := List.mem_of_getElem? hc
  have hflag : c.convex = true := by
    simpa only [isConvexAt, hc, Option.all_some] using hconvex
  rw [hiff y hy.length hy.finite]
  -- The expansion is below the function, which is below the right-hand side.
  have hholds := hy.constraint c hmem hflag
  rw [Exact.eq_finite hupper] at hholds
  rcases hp.constraint c hmem hflag x y g hl.length hy.length hy.finite hevaluates with
    hundefined | habove
  · rw [hundefined] at hholds
    exact absurd hholds (Exact.not_undefined_le _)
  · exact Exact.le_of_finite_le habove hholds

/-- The auxiliary variable has a number to be compared with the objective. -/
theorem Admits.coord_eq_finite (hy : p.Admits y) {aux : Nat} (haux : p.auxiliary = some aux) :
    y.coord aux = .finite (y.coord aux).toRat := by
  have hepigraph := hy.epigraph aux haux
  by_cases hlt : aux < y.length
  · exact Exact.eq_finite (hy.finite.coord hlt)
  · -- A coordinate that does not exist compares with nothing.
    have hnone : y.coord aux = .undefined := by
      rw [Point.coord, List.getElem?_eq_none (not_lt.1 hlt)]
      rfl
    rw [hnone] at hepigraph
    cases hsense : p.sense with
    | minimize =>
        rw [hsense] at hepigraph
        exact absurd hepigraph (Exact.not_le_undefined _)
    | maximize =>
        rw [hsense] at hepigraph
        exact absurd hepigraph (Exact.not_undefined_le _)

/-- A cut from the epigraph keeps every point of the problem, in either sense. -/
theorem epigraph_row_satisfied (hp : p.ConvexData) (hy : p.Admits y)
    (hexpansion : p.expansion .objective x = .ok ⟨subject, value, .ok g⟩)
    (hl : Linearized p x value g l) : l.row.Satisfied y := by
  rcases hl.epigraph_iff hexpansion with ⟨aux, f, haux, hevaluates, hiff⟩
  rw [hiff y hy.length hy.finite]
  have hobjective := hp.objective
  have hepigraph := hy.epigraph aux haux
  have hlevel := hy.coord_eq_finite haux
  cases hsense : p.sense with
  | minimize =>
      rw [hsense] at hobjective hepigraph
      rw [hlevel] at hepigraph
      -- The expansion is below the objective, which is below the variable.
      have hle : p.objective.function.firstOrder f x y ≤ (y.coord aux).toRat := by
        rcases hobjective x y f hl.length hy.length hy.finite hevaluates with
          hundefined | habove
        · have hnone : p.objectiveValue y = .undefined := hundefined
          rw [hnone] at hepigraph
          exact absurd hepigraph (Exact.not_undefined_le _)
        · exact Exact.le_of_finite_le habove hepigraph
      simp only [Sense.signum]
      linarith
  | maximize =>
      rw [hsense] at hobjective hepigraph
      rw [hlevel] at hepigraph
      -- The same with both comparisons the other way.
      have hle : (y.coord aux).toRat ≤ p.objective.function.firstOrder f x y := by
        rcases hobjective x y f hl.length hy.length hy.finite hevaluates with
          hundefined | hbelow
        · have hnone : p.objectiveValue y = .undefined := hundefined
          rw [hnone] at hepigraph
          exact absurd hepigraph (Exact.not_le_undefined _)
        · exact Exact.le_of_finite_le hepigraph hbelow
      simp only [Sense.signum]
      linarith

/-- The row of a convex request keeps every point of the problem. -/
theorem row_satisfied (hp : p.ConvexData) (hy : p.Admits y) {h : Hyperplane Exact}
    (hl : p.linearize h = .ok l) (hconvex : h.target.isConvex p = true) :
    l.row.Satisfied y := by
  rcases linearize_spec hl with ⟨subject, value, g, hexpansion, hspec⟩
  cases htarget : h.target with
  | constraint i =>
      rw [htarget] at hexpansion hconvex
      exact constraint_row_satisfied hp hy hexpansion hspec hconvex
  | objective =>
      rw [htarget] at hexpansion
      exact epigraph_row_satisfied hp hy hexpansion hspec

end Problem

/-- Over a whole life of a solver, the hyperplane rows that its engine was given
    match the entries of the ledger, and those of convex entries keep every point
    of the problem. -/
theorem Solver.convex_rows_satisfied {σ : Type} (E : Engine Exact σ) (p : Problem Exact)
    (hp : p.ConvexData) (s : Solver Exact σ) (rows : List (Row Exact))
    (h : Solver.Built E p s rows) :
    List.Forall₂
      (fun row entry => entry.convex = true → ∀ y, p.Admits y → row.Satisfied y)
      rows s.master.store.ledger.entries := by
  -- The record ties each row to the hyperplane of its entry.
  refine h.records.2.imp ?_
  rintro row entry ⟨⟨l, hl, rfl⟩, hconvex⟩ htrue y hy
  exact Problem.row_satisfied hp hy hl (hconvex ▸ htrue)

namespace Parabola

/-- The square of the first coordinate. -/
def square : SmoothFunction Exact where
  value x := x.coord 0 * x.coord 0
  gradient x := .ok (.ofList [(0, x.coord 0 + x.coord 0)])

/-- The least square in an interval, carried by a second variable. -/
def problem : Problem Exact :=
  { ((((Problem.ofObjective ⟨square, .nonlinear, .minimize⟩).addVariable "x" (-4.0) 4.0
      .real).addVariable "level" (-100.0) 100.0 .real).addConstraint
        ⟨"interval", square, 4.0, true⟩) with auxiliary := some 1 }

/-- An engine that reports one solution outside the interval and below the
    parabola. -/
def engine : Engine Exact (Tabular Exact) :=
  scriptedEngine
    [{ events := [{ Event.blank .integerSolution with
         objective := .ok 0.0, values := .ok [3.0, 0.0] }]
       status := .ok .optimal
       finalBound := .ok 0.0
       ignoreAbort := false }]
    (.error (.notAvailable "elastic"))

/-- The tables of the engine before anything is done. -/
def tables : Tabular Exact := .fresh [(-4.0, 4.0), (-100.0, 100.0)] [] {}

/-- A tangent of the parabola that the caller adds. -/
def tangent : Hyperplane Exact := ⟨.objective, [1.0, 1.0], .interiorSearch⟩

/-- A new solver. -/
def solver : Solver Exact (Tabular Exact) where
  master := .start
    { problem
      settings := Settings.withCuttingPlanes
      bounds := .fresh .minimize Settings.standard.termination
      iterations := .empty
      statistics := {}
      clock := .still ⟨0⟩
      journal := #[] } tables .cuttingPlane
  initialHyperplanes := 0
  initialIntegerCuts := 0

/-- The solver once the tangent is added. -/
def prepared : Solver Exact (Tabular Exact) := (solver.addHyperplanes engine [tangent]).1

theorem square_aboveExpansions : square.AboveExpansions 2 := by
  intro x y g _ hy hfinite h
  right
  have hgradient : SparseVector.ofList [(0, x.coord 0 + x.coord 0)] = g :=
    Except.ok.inj h.gradient
  have hx : Scalar.isFinite (x.coord 0) = true := by
    have hvalue : Scalar.isFinite (x.coord 0 * x.coord 0) = true := h.value
    cases hcoord : x.coord 0 with
    | finite q => rfl
    | infinite s => rw [hcoord] at hvalue; exact absurd hvalue Bool.false_ne_true
    | undefined => rw [hcoord] at hvalue; exact absurd hvalue Bool.false_ne_true
  have hy0 := Exact.eq_finite (hfinite.coord (i := 0) (by omega))
  rw [SmoothFunction.firstOrder, ← hgradient]
  change Exact.finite ((x.coord 0 * x.coord 0).toRat + (weigh [(0, x.coord 0 + x.coord 0)] y -
    weigh [(0, x.coord 0 + x.coord 0)] x)) ≤ y.coord 0 * y.coord 0
  rw [weigh_cons, weigh_cons, weigh_nil, weigh_nil, hy0, Exact.eq_finite hx]
  simp only [Exact.finite_add, Exact.finite_mul, Exact.toRat_finite, Exact.finite_le]
  -- The difference is the square of the distance.
  nlinarith [sq_nonneg ((y.coord 0).toRat - (x.coord 0).toRat)]

theorem convexData : problem.ConvexData where
  constraint c hc _ := by
    rw [List.mem_singleton.1 hc]
    exact square_aboveExpansions
  objective := square_aboveExpansions

theorem create_eq_solver :
    Solver.create engine problem Settings.withCuttingPlanes tables (.still ⟨0⟩) = .ok solver := by
  have hvalid : (Settings.withCuttingPlanes : Settings Exact).validate = .ok () :=
    (Settings.validate_eq_ok_iff _).2 (List.all_eq_true.1 (by decide +kernel))
  simp only [Solver.create, Session.start, hvalid]
  rfl

/-- Of the three rows that the engine was given, all are convex and keep a point
    on the parabola, and some row cuts off the solution that was reported. -/
theorem convex_rows_satisfied_parabola :
    let rows := [] ++ solver.givenRows engine [tangent] ++ (prepared.trace engine).cuts
    let entries := (prepared.solve engine).1.master.store.ledger.entries
    problem.Admits [1.0, 1.0] ∧ (∃ row ∈ rows, ¬ row.Satisfied [3.0, 0.0]) ∧
      entries.map (·.convex) = [true, true, true] ∧
      List.Forall₂ (fun row entry => entry.convex = true → row.Satisfied [1.0, 1.0])
        rows entries := by
  intro rows entries
  -- The life of this solver: it is made, given a tangent, and run.
  have hbuilt : Solver.Built engine problem (prepared.solve engine).1 rows :=
    ((Solver.Built.created _ _ _ create_eq_solver).hyperplanes [tangent]).solved
  have hadmits : problem.Admits [1.0, 1.0] := by
    refine ⟨rfl, by unfold Point.Finite; decide +kernel, ?_, ?_⟩
    · intro c hc _
      rw [List.mem_singleton.1 hc]
      decide +kernel
    · rintro aux ⟨⟩
      change problem.objectiveValue [1.0, 1.0] ≤ Point.coord [1.0, 1.0] 1
      decide +kernel
  refine ⟨hadmits, by decide +kernel, by decide +kernel, ?_⟩
  exact (Solver.convex_rows_satisfied engine problem convexData _ rows hbuilt).imp
    fun row entry h hconvex => h hconvex _ hadmits

end Parabola

end OuterApprox
