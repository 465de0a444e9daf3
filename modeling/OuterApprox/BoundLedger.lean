import OuterApprox.Diagnostic
import OuterApprox.Settings.Basic

/-!
# The bound ledger

The best primal and dual bounds known, and every candidate ever offered for
them. A bound moves only when a candidate strictly improves it, so neither ever
regresses. A primal candidate must be feasible and must not be better than the
dual bound allows; a dual candidate that is better than the primal bound is cut
to it.

The two senses differ only in what "better" means, so each rule is written once
in terms of `Sense.better`. The ledger keeps the tolerances it was created with.

## Main definitions

* `BoundLedger`: Bounds, incumbent and histories.
* `PrimalVerdict`, `BoundLedger.judgePrimal`, `BoundLedger.offerPrimal`: Primal
  candidates.
* `DualVerdict`, `BoundLedger.judgeDual`, `BoundLedger.offerDual`: Dual
  candidates.
* `BoundLedger.absoluteGap`, `BoundLedger.relativeGap`, and the two tests
  against their tolerances.
-/

namespace OuterApprox

/-- Best known bounds and all candidates for them. -/
structure BoundLedger (α : Type) where
  /-- The direction of optimization. -/
  sense : Sense
  /-- Deviation that counts as feasible. -/
  constraintTolerance : α
  /-- Absolute gap that counts as closed. -/
  absoluteTolerance : α
  /-- Relative gap that counts as closed. -/
  relativeTolerance : α
  /-- Objective of the best solution. -/
  primalBound : α
  /-- Best proven bound on the objective. -/
  dualBound : α
  /-- The best solution. -/
  incumbent : Option (PrimalSolution α)
  /-- Every primal candidate offered, in order. -/
  primalHistory : List (PrimalSolution α)
  /-- Every dual candidate offered, in order. -/
  dualHistory : List (DualBound α)

/-- What became of a primal candidate. -/
inductive PrimalVerdict where
  /-- It is the new incumbent. -/
  | accepted
  /-- It violates a constraint. -/
  | infeasible
  /-- It is no better than the incumbent, or has no objective. -/
  | notImproving
  /-- It is better than the dual bound allows. -/
  | crossesDual
  deriving DecidableEq, Repr

/-- What became of a dual candidate. -/
inductive DualVerdict where
  /-- It is the new dual bound. -/
  | accepted
  /-- The primal bound is the new dual bound. -/
  | clamped
  /-- It was cut to the primal bound, which is no improvement. -/
  | absorbed
  /-- It is no better than the dual bound, or undefined. -/
  | notImproving
  deriving DecidableEq, Repr

namespace BoundLedger

variable {α : Type} [Scalar α]

/-- A ledger without candidates: nothing is known, so the bounds are infinite. -/
def fresh (sense : Sense) (t : TerminationSettings α) : BoundLedger α where
  sense
  constraintTolerance := t.constraintTolerance
  absoluteTolerance := t.absoluteGap
  relativeTolerance := t.relativeGap
  primalBound := sense.worst
  dualBound := sense.best
  incumbent := none
  primalHistory := []
  dualHistory := []

/-- Whether a value would strictly improve the primal bound. -/
def improvesPrimal (l : BoundLedger α) (value : α) : Bool :=
  l.sense.better value l.primalBound

/-- Whether a value would strictly improve the dual bound. -/
def improvesDual (l : BoundLedger α) (value : α) : Bool :=
  l.sense.better l.dualBound value

/-- Whether a primal value is better than the dual bound by more than the
    absolute tolerance. -/
def crossesDual (l : BoundLedger α) (value : α) : Bool :=
  Scalar.isFinite l.dualBound &&
    l.sense.better value (l.sense.improve l.dualBound l.absoluteTolerance)

/-- Whether a dual value is beyond the primal bound. -/
def crossesPrimal (l : BoundLedger α) (value : α) : Bool :=
  l.sense.better l.primalBound value

/-- What becomes of a primal candidate. -/
def judgePrimal (l : BoundLedger α) (c : Candidate α) : PrimalVerdict :=
  if !c.isFeasible l.constraintTolerance then .infeasible
  else if Scalar.isUndefined c.objective || !l.improvesPrimal c.objective then .notImproving
  else if l.crossesDual c.objective then .crossesDual
  else .accepted

/-- The ledger after a primal candidate. -/
def offerPrimal (l : BoundLedger α) (s : PrimalSolution α) : BoundLedger α :=
  match l.judgePrimal s.candidate with
  | .accepted =>
    { l with
      primalBound := s.candidate.objective
      incumbent := some s
      primalHistory := l.primalHistory ++ [s] }
  | _ => { l with primalHistory := l.primalHistory ++ [s] }

/-- What becomes of a dual value. -/
def judgeDual (l : BoundLedger α) (value : α) : DualVerdict :=
  if Scalar.isUndefined value || !l.improvesDual value then .notImproving
  else if l.crossesPrimal value then
    if l.improvesDual l.primalBound then .clamped else .absorbed
  else .accepted

/-- The ledger after a dual candidate. -/
def offerDual (l : BoundLedger α) (d : DualBound α) : BoundLedger α :=
  match l.judgeDual d.value with
  | .accepted => { l with dualBound := d.value, dualHistory := l.dualHistory ++ [d] }
  -- A dual bound is never better than the primal bound it is compared with.
  | .clamped => { l with dualBound := l.primalBound, dualHistory := l.dualHistory ++ [d] }
  | _ => { l with dualHistory := l.dualHistory ++ [d] }

/-- What there is to say about a primal candidate. -/
def primalRemarks (l : BoundLedger α) (s : PrimalSolution α) : List (Diagnostic α) :=
  match l.judgePrimal s.candidate with
  | .infeasible =>
    [.primalInfeasible s.candidate.objective s.source s.candidate.deviationValue]
  | .crossesDual => [.primalCrossesDual s.candidate.objective s.source l.dualBound]
  | _ => []

/-- What there is to say about a dual value. -/
def dualRemarks (l : BoundLedger α) (value : α) : List (Diagnostic α) :=
  match l.judgeDual value with
  | .clamped | .absorbed => [.dualClamped value l.primalBound]
  | _ => []

/-- Whether both bounds are finite. -/
def boundsFinite (l : BoundLedger α) : Bool :=
  Scalar.isFinite l.primalBound && Scalar.isFinite l.dualBound

/-- The distance between the bounds, infinite while one of them is. -/
def absoluteGap (l : BoundLedger α) : α :=
  if l.boundsFinite then Scalar.abs (l.primalBound - l.dualBound) else Scalar.infinity

/-- The distance between the bounds over the size of the primal one, infinite
    while one of them is. A tiny primal bound is replaced by a small number. -/
def relativeGap (l : BoundLedger α) : α :=
  if l.boundsFinite then
    Scalar.abs (l.primalBound - l.dualBound) / Scalar.max (Scalar.abs l.primalBound) 1e-10
  else Scalar.infinity

/-- Whether the absolute gap is closed. -/
def absoluteGapMet (l : BoundLedger α) : Bool :=
  l.boundsFinite && decide (l.absoluteGap ≤ l.absoluteTolerance)

/-- Whether the relative gap is closed. -/
def relativeGapMet (l : BoundLedger α) : Bool :=
  l.boundsFinite && decide (l.relativeGap ≤ l.relativeTolerance)

/-- Whether either gap is closed. -/
def gapMet (l : BoundLedger α) : Bool := l.absoluteGapMet || l.relativeGapMet

end BoundLedger

end OuterApprox
