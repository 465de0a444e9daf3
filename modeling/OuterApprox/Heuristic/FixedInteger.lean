import OuterApprox.Diagnostic
import OuterApprox.Problem.Integrality
import OuterApprox.Settings.Basic
import OuterApprox.Word

/-!
# Local search with fixed integers

A candidate's integers can be fixed and the remaining problem handed to a local
solver outside this library. A rule says which candidates are worth the effort.
If the solver finds nothing and all discrete variables are binary, the
candidate's assignment is a dead end and a no-good cut may exclude it.

Iterations are words. The rule for every so many iterations adds to the iteration of the last
candidate that went in, and with a large enough number the sum is no word any more. There is no
answer then whether the next candidate goes in, and nothing goes on from there: the queue is
marked, and no solve that has marked its queue reports anything.

## Main definitions

* `FixedIntegerSolver`: The solver outside.
* `FixedIntegerQueue`: The solver and what was tried.
* `FixedIntegerVerdict`, `FixedIntegerQueue.verdict`: Which candidates go in.
* `FixedIntegerQueue.enrol`: The queue after that was decided.
* `FixedIntegerOutcome`, `FixedIntegerQueue.outcome`: What came out.

## Theorems

* `FixedIntegerQueue.enrol_of_wants`, `FixedIntegerQueue.enrol_of_not_wants`: What a decision
  leaves behind.
-/

namespace OuterApprox

/-- A local solver for a problem with its integers fixed at a candidate's. It is
    told how often it has been asked before, and may answer differently each
    time. -/
abbrev FixedIntegerSolver (α : Type) := Nat → Problem α → Candidate α → Option (Point α)

/-- The solver and what was tried. -/
structure FixedIntegerQueue (α : Type) where
  /-- The solver, if one is installed. -/
  solver : Option (FixedIntegerSolver α)
  /-- How often it has been asked. -/
  asked : Nat
  /-- Integer assignments tried, once each. -/
  tried : List (List Int)
  /-- The iteration of the last candidate that went in. -/
  lastIteration : Option Nat
  /-- Whether it was asked about a candidate without there being an answer. -/
  overflowed : Bool

/-- What a rule says of a candidate. -/
inductive FixedIntegerVerdict where
  /-- It does not go in. -/
  | staysOut
  /-- It goes in. -/
  | goesIn
  /-- Nothing: the iteration that has to come is no word. -/
  | overflow
  deriving DecidableEq, Repr

/-- What came of a candidate. -/
inductive FixedIntegerOutcome (α : Type) where
  /-- Nothing. -/
  | nothing
  /-- A point of the wrong length. -/
  | wrongDimension
  /-- A point. -/
  | solution (candidate : Candidate α)
  /-- The binaries at one must not be one all at once again. -/
  | noGood (indices : List Nat)

namespace FixedIntegerOutcome

variable {α : Type}

/-- What there is to say about an outcome. -/
def remarks : FixedIntegerOutcome α → List (Diagnostic α)
  | wrongDimension => [.fixedIntegerDimension]
  | _ => []

/-- The point, if there is one. -/
def solution? : FixedIntegerOutcome α → Option (Candidate α)
  | solution c => some c
  | _ => none

/-- The binaries to cut off, if any. -/
def noGood? : FixedIntegerOutcome α → Option (List Nat)
  | noGood indices => some indices
  | _ => none

end FixedIntegerOutcome

namespace FixedIntegerQueue

variable {α : Type}

/-- No solver. -/
def empty : FixedIntegerQueue α := ⟨none, 0, [], none, false⟩

/-- Install a solver, which starts afresh. -/
def install (q : FixedIntegerQueue α) (solver : FixedIntegerSolver α) : FixedIntegerQueue α :=
  { q with solver := some solver, asked := 0 }

variable [Scalar α]

/-- What a rule says of a candidate. Without a solver, none goes in. -/
def verdict (q : FixedIntegerQueue α) (rule : FixedIntegerRule) (p : Problem α)
    (c : Candidate α) : FixedIntegerVerdict :=
  if q.solver.isNone then .staysOut
  else
    match rule with
    | .never => .staysOut
    | .always => .goesIn
    | .newAssignment => if q.tried.contains (p.assignment c.point) then .staysOut else .goesIn
    | .every n =>
      match q.lastIteration with
      | none => .goesIn
      | some last =>
        if Word.size ≤ last + n then .overflow
        else if last + n ≤ c.iteration then .goesIn
        else .staysOut

/-- Whether a candidate goes in under a rule. -/
def wants (q : FixedIntegerQueue α) (rule : FixedIntegerRule) (p : Problem α)
    (c : Candidate α) : Bool :=
  decide (q.verdict rule p c = .goesIn)

/-- The queue after deciding on a candidate: one that goes in is remembered, and so is that there
    was no answer. -/
def enrol (q : FixedIntegerQueue α) (rule : FixedIntegerRule) (p : Problem α)
    (c : Candidate α) : FixedIntegerQueue α :=
  match q.verdict rule p c with
  | .staysOut => q
  | .goesIn =>
    { q with
      tried := if rule = .newAssignment then q.tried ++ [p.assignment c.point] else q.tried
      lastIteration := some c.iteration }
  | .overflow => { q with overflowed := true }

theorem wants_iff (q : FixedIntegerQueue α) (rule : FixedIntegerRule) (p : Problem α)
    (c : Candidate α) : q.wants rule p c = true ↔ q.verdict rule p c = .goesIn :=
  decide_eq_true_iff

theorem verdict_of_solver (q : FixedIntegerQueue α) (h : q.solver = none)
    (rule : FixedIntegerRule) (p : Problem α) (c : Candidate α) :
    q.verdict rule p c = .staysOut := by
  simp only [verdict, h, Option.isNone_none, if_true]

/-- Without a solver no candidate goes in. -/
theorem wants_eq_false_of_solver (q : FixedIntegerQueue α) (h : q.solver = none)
    (rule : FixedIntegerRule) (p : Problem α) (c : Candidate α) : q.wants rule p c = false := by
  simp only [wants, q.verdict_of_solver h, reduceCtorEq, decide_false]

/-- Nor does it leave anything behind. -/
theorem enrol_of_solver (q : FixedIntegerQueue α) (h : q.solver = none)
    (rule : FixedIntegerRule) (p : Problem α) (c : Candidate α) : q.enrol rule p c = q := by
  simp only [enrol, q.verdict_of_solver h]

theorem enrol_of_wants {q : FixedIntegerQueue α} {rule : FixedIntegerRule} {p : Problem α}
    {c : Candidate α} (h : q.wants rule p c = true) :
    q.enrol rule p c =
      { q with
        tried := if rule = .newAssignment then q.tried ++ [p.assignment c.point] else q.tried
        lastIteration := some c.iteration } := by
  simp only [enrol, (wants_iff q rule p c).1 h]

/-- A candidate that does not go in may leave the mark of an overflow, and nothing else. -/
theorem enrol_of_not_wants {q : FixedIntegerQueue α} {rule : FixedIntegerRule} {p : Problem α}
    {c : Candidate α} (h : q.wants rule p c = false) :
    q.enrol rule p c =
      { q with overflowed := q.overflowed || decide (q.verdict rule p c = .overflow) } := by
  have hout : q.verdict rule p c ≠ .goesIn := fun hin =>
    Bool.noConfusion (h.symm.trans ((wants_iff q rule p c).2 hin))
  unfold enrol
  cases hverdict : q.verdict rule p c with
  | staysOut => simp only [reduceCtorEq, decide_false, Bool.or_false]
  | goesIn => exact absurd hverdict hout
  | overflow => simp only [decide_true, Bool.or_true]

theorem asked_enrol (q : FixedIntegerQueue α) (rule : FixedIntegerRule) (p : Problem α)
    (c : Candidate α) : (q.enrol rule p c).asked = q.asked := by
  unfold enrol
  split <;> rfl

theorem solver_enrol (q : FixedIntegerQueue α) (rule : FixedIntegerRule) (p : Problem α)
    (c : Candidate α) : (q.enrol rule p c).solver = q.solver := by
  unfold enrol
  split <;> rfl

/-- Only the rule for every so many iterations calculates with iterations, and only if there is a
    solver. -/
theorem eq_every_of_verdict {q : FixedIntegerQueue α} {rule : FixedIntegerRule} {p : Problem α}
    {c : Candidate α} (h : q.verdict rule p c = .overflow) :
    q.solver ≠ none ∧ ∃ n, rule = .every n := by
  refine ⟨fun hnone => ?_, ?_⟩
  · rw [q.verdict_of_solver hnone] at h
    exact nomatch h
  · unfold verdict at h
    split at h
    · exact nomatch h
    · cases rule with
      | never | always => exact nomatch h
      | newAssignment => dsimp only at h; split at h <;> exact nomatch h
      | every n => exact ⟨n, rfl⟩

theorem overflowed_enrol (q : FixedIntegerQueue α) (rule : FixedIntegerRule) (p : Problem α)
    (c : Candidate α) :
    (q.enrol rule p c).overflowed =
      (q.overflowed || decide (q.verdict rule p c = .overflow)) := by
  unfold enrol
  cases q.verdict rule p c with
  | staysOut | goesIn => exact (Bool.or_false _).symm
  | overflow => exact (Bool.or_true _).symm

/-- The binaries at one in a candidate. -/
def onesAt (p : Problem α) (x : Point α) : List Nat :=
  p.discreteIndices.filter fun i => (x[i]?).any fun v => decide (0.5 < v)

/-- What comes of a candidate that the solver finds nothing for. A no-good cut
    needs every discrete variable to be binary and some binary to be one. -/
def deadEnd (p : Problem α) (x : Point α) : FixedIntegerOutcome α :=
  let ones := onesAt p x
  if p.isPureBinary && !ones.isEmpty then .noGood ones else .nothing

/-- Ask the solver about a candidate. -/
def outcome (q : FixedIntegerQueue α) (p : Problem α) (c : Candidate α) :
    FixedIntegerOutcome α :=
  match q.solver with
  | none => .nothing
  | some solver =>
    match solver q.asked p c with
    | none => deadEnd p c.point
    | some x =>
      if x.length = p.dimension then .solution (p.candidate x c.iteration) else .wrongDimension

/-- The queue after the solver was asked. -/
def afterAsking (q : FixedIntegerQueue α) : FixedIntegerQueue α :=
  if q.solver.isSome then { q with asked := q.asked + 1 } else q

omit [Scalar α] in
theorem solver_afterAsking (q : FixedIntegerQueue α) : q.afterAsking.solver = q.solver := by
  unfold afterAsking
  split <;> rfl

/-- The queue in words. -/
def summary (q : FixedIntegerQueue α) : String :=
  "FixedNlpQueue \x7b has_solver: " ++ toString q.solver.isSome ++
    ", tried: " ++ toString q.tried.length ++
    ", last_iteration: " ++ q.lastIteration.elim "None" (fun n => s!"Some({n})") ++ " \x7d"

end FixedIntegerQueue

end OuterApprox
