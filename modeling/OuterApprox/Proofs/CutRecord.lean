import OuterApprox.Proofs.Course
import OuterApprox.Proofs.TurnSteps
import Mathlib.Data.List.Forall2

/-!
# The record of cuts

The cut ledger is a faithful record of the hyperplane rows the engine was given.
Rows reach the engine in two ways, during a search and before one, and a row is
given only if the engine takes it: one that it refuses is neither recorded nor
offered again. In either way the entry is made in the same breath as the row is
taken, so over a whole life of a solver the rows and the entries match one to
one and in order, and each row is the linearization of the hyperplane of its
entry.

The rows of a search can be read off its trace, because what the handler of an
event did is a function of the callback and the event. Those given before a
search are named by a function that follows the fold over the waiting list.

## Main definitions

* `RowOf`, `Recorded`: A row belongs to an entry, and all rows to all entries.
* `Trace.cuts`: The hyperplane rows taken in a trace.
* `Master.givenRows`, `Solver.givenRows`: The hyperplane rows taken before a
  search.
* `Solver.Built`: A solver with everything that was ever done to it, and the
  hyperplane rows its engine was given.

## Theorems

* `Turn.Records.step`: The record stays faithful in every step of a turn.
* `Recorded.handle`, `Recorded.run`: So it does in an event and in a search.
* `recorded_invariant`: So it does in everything else a solve does.
* `Master.recorded_addRows`: So it does when rows are added before a search.
* `Solver.Built.records`: The ledger of a solver is a faithful record.
-/

namespace OuterApprox

variable {α σ : Type} [Scalar α]

/-- A row belongs to an entry of the ledger: it is the linearization of the
    entry's hyperplane, and the entry tells whether that is convex. -/
def RowOf (p : Problem α) (row : Row α) (entry : GeneratedCut α) : Prop :=
  (∃ l, p.linearize entry.hyperplane = .ok l ∧ row = l.row) ∧
    entry.convex = entry.hyperplane.target.isConvex p

/-- Rows and entries match, one to one and in order. -/
def Recorded (p : Problem α) (rows : List (Row α)) (ledger : CutLedger α) : Prop :=
  List.Forall₂ (RowOf p) rows ledger.entries

/-- The hyperplane rows that the engine took in the course of a trace. -/
def Trace.cuts (τ : Trace α) : List (Row α) := τ.flatMap fun step => (step.1.handle step.2).cuts

variable {p : Problem α} {rows : List (Row α)}

/-- A row that is taken and recorded keeps the record faithful. -/
theorem Recorded.record {ledger : CutLedger α} (h : Recorded p rows ledger)
    (hp : Hyperplane α) {l : Linearization α} (hl : p.linearize hp = .ok l) (number : Nat)
    (lazy : Bool) (position : Option Nat) :
    Recorded p (rows ++ [l.row])
      (ledger.record hp number lazy (hp.target.isConvex p) position) :=
  List.rel_append h (.cons ⟨⟨l, hl, rfl⟩, rfl⟩ .nil)

/-- A session for the problem whose rows so far, and those of the turn, are
    recorded. -/
def Turn.Records (p : Problem α) (rows : List (Row α)) (t : Turn α) : Prop :=
  t.problem = p ∧ Recorded p (rows ++ t.cuts) t.store.ledger

/-- Every step of a turn keeps the record faithful. -/
theorem Turn.Records.step {e : Event α} {t t' : Turn α} (hstep : Turn.Step e t t')
    (h : t.Records p rows) : t'.Records p rows := by
  rcases h with ⟨hp, hrecord⟩
  cases hstep with
  | quiet hq =>
      refine ⟨hq.problem.trans hp, ?_⟩
      rw [hq.cuts, hq.ledger]
      exact hrecord
  | primal x n source hlength hfrom => exact ⟨hp, hrecord⟩
  | dual d => exact ⟨hp, hrecord⟩
  | interior rule => exact ⟨hp, hrecord⟩
  | cut hyperplane l number hl =>
      refine ⟨hp, ?_⟩
      -- The row that is taken and the entry that is made are both the last ones.
      have hcuts := t.cuts_call_row l.row
      rw [hp] at hl
      have hnew := hrecord.record hyperplane hl number true none
      rw [List.append_assoc, ← hcuts] at hnew
      rw [← hp] at hnew ⊢
      exact hnew

theorem Turn.Records.steps {e : Event α} {t t' : Turn α} (hsteps : Turn.Steps e t t')
    (h : t.Records p rows) : t'.Records p rows := by
  induction hsteps with
  | refl => exact h
  | tail _ hstep ih => exact ih.step hstep

/-- Handling an event records what the engine takes in it. -/
theorem Recorded.handle (c : Callback α) (e : Event α) (hp : c.session.problem = p)
    (h : Recorded p rows c.store.ledger) :
    (c.handle e).callback.session.problem = p ∧
      Recorded p (rows ++ (c.handle e).cuts) (c.handle e).callback.store.ledger := by
  have hstart : (⟨c, []⟩ : Turn α).Records p rows := by
    refine ⟨hp, ?_⟩
    rw [Turn.cuts, List.filterMap_nil, List.append_nil]
    exact h
  exact hstart.steps (c.steps_handle e)

/-- A search records what the engine takes in it. -/
theorem Recorded.run (search : Search α σ) (c : Callback α) (hp : c.session.problem = p)
    (h : Recorded p rows c.store.ledger) :
    (search.run c).1.session.problem = p ∧
      Recorded p (rows ++ (search.trace c).cuts) (search.run c).1.store.ledger := by
  induction search generalizing c rows with
  | finish state result =>
      refine ⟨hp, ?_⟩
      rw [Search.trace, Trace.cuts, List.flatMap_nil, List.append_nil]
      exact h
  | report e resume ih =>
      rcases Recorded.handle c e hp h with ⟨hproblem, hrecord⟩
      -- What the engine reports next depends on the calls, and the record covers them all.
      have hrest := ih (c.handle e).calls (c.handle e).callback hproblem hrecord
      rw [List.append_assoc] at hrest
      exact hrest

/-- In a solve, the ledger goes on recording what the engine takes. -/
theorem recorded_invariant (E : Engine α σ) (p : Problem α) (rows : List (Row α)) :
    Master.Invariant E (fun _ => True) fun τ s st _ =>
      s.problem = p ∧ Recorded p (rows ++ τ.cuts) st.ledger where
  search τ m _ h := by
    have hrun := Recorded.run (E.search m.engine) m.callback h.1 h.2
    refine ⟨hrun.1, ?_⟩
    rw [Trace.cuts, List.flatMap_append, ← List.append_assoc]
    exact hrun.2
  bounds _ _ _ _ _ _ _ h := h
  rowUpper _ _ _ _ _ _ h := h
  elastic _ _ _ _ _ _ h := h
  note _ _ _ _ _ h := h
  dual _ _ _ _ _ h := h
  repaired _ _ _ _ h := h

namespace Master

/-- The row that a hyperplane becomes before a search, if the engine takes it. -/
def givenRow? (E : Engine α σ) (m : Master α σ) (h : Hyperplane α) : Option (Row α) :=
  match m.session.problem.linearize h with
  | .error _ => none
  | .ok l =>
    if (E.addRow m.engine l.row s!"h_{m.store.ledger.size}").2.taken then some l.row else none

/-- The rows that hyperplanes become before a search, one after the other. -/
def givenRows (E : Engine α σ) (number : Nat) :
    Master α σ × Nat → List (Hyperplane α) → List (Row α)
  | _, [] => []
  | acc, h :: rest =>
    (acc.1.givenRow? E h).toList ++ givenRows E number (addRow E number acc h) rest

/-- One hyperplane: it is discarded or refused, or taken and recorded. -/
theorem recorded_addRow (E : Engine α σ) (number : Nat) (acc : Master α σ × Nat)
    (h : Hyperplane α) (hp : acc.1.session.problem = p)
    (hrecord : Recorded p rows acc.1.store.ledger) :
    (addRow E number acc h).1.session.problem = p ∧
      Recorded p (rows ++ (acc.1.givenRow? E h).toList)
        (addRow E number acc h).1.store.ledger := by
  rcases acc with ⟨m, added⟩
  cases hl : m.session.problem.linearize h with
  | error e =>
      have hgiven : m.givenRow? E h = none := by simp only [givenRow?, hl]
      rw [hgiven, Option.toList_none, List.append_nil]
      simp only [addRow, hl]
      exact ⟨hp, hrecord⟩
  | ok l =>
      cases hanswer : (E.addRow m.engine l.row s!"h_{m.store.ledger.size}").2 with
      | error e =>
          have hgiven : m.givenRow? E h = none := by
            simp only [givenRow?, hl, hanswer, Answer.taken, Bool.false_eq_true, if_false]
          rw [hgiven, Option.toList_none, List.append_nil]
          simp only [addRow, hl]
          simp only [note, hanswer]
          exact ⟨hp, hrecord⟩
      | ok position =>
          -- A row that is taken is recorded under the hyperplane it came from.
          have hgiven : m.givenRow? E h = some l.row := by
            simp only [givenRow?, hl, hanswer, Answer.taken, if_true]
          rw [hgiven, Option.toList_some]
          simp only [addRow, hl]
          simp only [note, hanswer]
          have hp : m.session.problem = p := hp
          refine ⟨hp, ?_⟩
          rw [hp] at hl ⊢
          exact hrecord.record h hl number false (some position)

theorem recorded_addRows (E : Engine α σ) (number : Nat) (hs : List (Hyperplane α))
    (acc : Master α σ × Nat) (hp : acc.1.session.problem = p)
    (hrecord : Recorded p rows acc.1.store.ledger) :
    (hs.foldl (addRow E number) acc).1.session.problem = p ∧
      Recorded p (rows ++ givenRows E number acc hs)
        (hs.foldl (addRow E number) acc).1.store.ledger := by
  induction hs generalizing acc rows with
  | nil =>
      rw [givenRows, List.append_nil]
      exact ⟨hp, hrecord⟩
  | cons h rest ih =>
      rcases recorded_addRow E number acc h hp hrecord with ⟨hproblem, hnext⟩
      rw [List.foldl_cons, givenRows, ← List.append_assoc]
      exact ih _ hproblem hnext

end Master

namespace Solver

/-- The hyperplane rows that the engine takes when hyperplanes are added before a
    search. -/
def givenRows (E : Engine α σ) (s : Solver α σ) (hs : List (Hyperplane α)) : List (Row α) :=
  let m := (s.mapStore (·.request hs)).master
  Master.givenRows E m.session.iterations.lastNumber
    ({ m with store := { m.store with waiting := [] } }, 0) m.store.waiting

/-- A solver for a problem after any number of things were done to it, and the
    hyperplane rows that its engine was given, in order. -/
inductive Built (E : Engine α σ) (p : Problem α) : Solver α σ → List (Row α) → Prop
  /-- A new solver. -/
  | created {s : Solver α σ} (settings : Settings α) (engine : σ) (clock : Clock)
      (h : create E p settings engine clock = .ok s) : Built E p s []
  /-- An interior point was installed. -/
  | interior {s s' : Solver α σ} {rows : List (Row α)} (x : Point α) (h : Built E p s rows)
      (hx : s.setInterior x = .ok s') : Built E p s' rows
  /-- A local solver was installed. -/
  | fixedInteger {s : Solver α σ} {rows : List (Row α)} (solver : FixedIntegerSolver α)
      (h : Built E p s rows) : Built E p (s.setFixedInteger solver) rows
  /-- A no-good cut was queued. -/
  | queued {s : Solver α σ} {rows : List (Row α)} (indices : List Nat)
      (h : Built E p s rows) : Built E p (s.queueIntegerCut indices) rows
  /-- A no-good cut was added as a row, or refused. It is no hyperplane. -/
  | integerCut {s : Solver α σ} {rows : List (Row α)} (indices : List Nat)
      (h : Built E p s rows) : Built E p (s.addIntegerCutRow E indices).1 rows
  /-- Hyperplanes were added as rows. -/
  | hyperplanes {s : Solver α σ} {rows : List (Row α)} (hs : List (Hyperplane α))
      (h : Built E p s rows) : Built E p (s.addHyperplanes E hs).1 (rows ++ s.givenRows E hs)
  /-- A solve, with all its events. -/
  | solved {s : Solver α σ} {rows : List (Row α)} (h : Built E p s rows) :
      Built E p (s.solve E).1 (rows ++ (s.trace E).cuts)

/-- A solver for the problem whose ledger is a faithful record. -/
def Records (p : Problem α) (rows : List (Row α)) (s : Solver α σ) : Prop :=
  s.master.session.problem = p ∧ Recorded p rows s.master.store.ledger

theorem records_create {E : Engine α σ} {settings : Settings α} {engine : σ}
    {clock : Clock} {s : Solver α σ} (h : create E p settings engine clock = .ok s) :
    s.Records p [] := by
  simp only [create, Session.start] at h
  split at h
  · simp only [reduceCtorEq] at h
  · split at h
    · simp only [reduceCtorEq] at h
    next session hsession =>
      split at hsession
      · simp only [reduceCtorEq] at hsession
      · cases hsession
        cases h
        exact ⟨rfl, .nil⟩

theorem Records.setInterior {s s' : Solver α σ} {x : Point α} (h : s.Records p rows)
    (hx : s.setInterior x = .ok s') : s'.Records p rows := by
  simp only [Solver.setInterior] at hx
  split at hx
  · simp only [reduceCtorEq] at hx
  · split at hx
    · cases hx
      exact h
    · split at hx
      · cases hx
        exact h
      · simp only [reduceCtorEq] at hx

theorem Records.addIntegerCutRow {s : Solver α σ} (h : s.Records p rows) (E : Engine α σ)
    (indices : List Nat) : (s.addIntegerCutRow E indices).1.Records p rows := by
  have hmaster : (s.master.addIntegerCutRow E indices).1.session.problem = p ∧
      Recorded p rows (s.master.addIntegerCutRow E indices).1.store.ledger := by
    simp only [Master.addIntegerCutRow]
    split
    · exact h
    · split <;> exact h
  simp only [Solver.addIntegerCutRow]
  split
  next m e heq =>
    rw [heq] at hmaster
    exact hmaster
  next m position heq =>
    rw [heq] at hmaster
    exact hmaster

theorem Records.addHyperplanes {s : Solver α σ} (h : s.Records p rows) (E : Engine α σ)
    (hs : List (Hyperplane α)) :
    (s.addHyperplanes E hs).1.Records p (rows ++ s.givenRows E hs) := by
  have hrows := Master.recorded_addRows E s.master.session.iterations.lastNumber
    (s.master.store.waiting ++ hs)
    ({ s.master with store := { s.master.store with waiting := [] } }, 0) h.1 h.2
  simp only [Solver.addHyperplanes, Master.addWaitingRows]
  split <;> exact hrows

theorem Records.solve {s : Solver α σ} (h : s.Records p rows) (E : Engine α σ) :
    (s.solve E).1.Records p (rows ++ (s.trace E).cuts) := by
  cases hvalid : s.master.session.settings.validate with
  | error e =>
      -- Without admissible settings nothing is searched.
      have htrace : s.trace E = [] := by
        simp only [trace, rounds, hvalid, List.flatMap_nil]
      rw [htrace, Trace.cuts, List.flatMap_nil, List.append_nil]
      simp only [Solver.solve, hvalid]
      exact h
  | ok u =>
      have hstart : s.startMaster.Holds fun t st _ =>
          t.problem = p ∧ Recorded p (rows ++ Trace.cuts []) st.ledger := by
        rw [Trace.cuts, List.flatMap_nil, List.append_nil]
        exact h
      exact (invariant_solve (τ := []) (recorded_invariant E p rows) s hvalid
        (fun _ _ => trivial) hstart).2

/-- The ledger of a solver is a faithful record of the hyperplane rows that its
    engine was given. -/
theorem Built.records {E : Engine α σ} {s : Solver α σ} {rows : List (Row α)}
    (h : Built E p s rows) : s.Records p rows := by
  induction h with
  | created settings engine clock h => exact records_create h
  | interior x _ hx ih => exact ih.setInterior hx
  | fixedInteger solver _ ih => exact ih
  | queued indices _ ih => exact ih
  | integerCut indices _ ih => exact ih.addIntegerCutRow E indices
  | hyperplanes hs _ ih => exact ih.addHyperplanes E hs
  | solved _ ih => exact ih.solve E

end Solver

end OuterApprox
