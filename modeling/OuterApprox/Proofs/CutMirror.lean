import OuterApprox.Proofs.Bookkeeping
import OuterApprox.Proofs.OuterApproximation
import Mathlib.Data.List.Chain

/-!
# The cut ledger and the engine

The cut ledger says of every hyperplane how the engine took it: lazily, or as a row of
the model at some position. Infeasibility repair changes rows by the positions written
there, so an entry for a row that the engine refused, or a position one off, would make
it change the wrong row. Here the ledger is compared with what the engine was given, and
in this it goes beyond the record that the entries are linearized from: for each entry
there is one row that the engine took, in the same order, with the same way in and the
same position, and identifiers count from zero without a gap.

What the engine takes is told from its answers alone. During a search they are part of
the calls that an event gave rise to. Before a search, hyperplanes are offered one after
the other, each to the engine that the one before left behind, under a name with the
number of hyperplanes taken so far. The account of that does not look at the ledger.

The life of a solver is a list of deeds, preparations and solves in any order. Its
history has a moment for every state that a caller or an engine could look at: before
and after every deed, and after every event of a solve. The ledger mirrors the engine
and nothing waits at each of them, and from one to the next the ledger only grows.

## Main definitions

* `Admission`, `Engine.takes`: How a row was taken, and what an engine takes of
  hyperplanes that are offered as rows.
* `CutLedger.Mirrors`: Entries and rows match in everything.
* `Moment`, `Moment.Faithful`, `Moment.Grows`: What the engine took and what is stored.
* `History`: Faithful moments, each of which grows out of the one before.
* `Preparation`, `Deed`, `Solver.history`: The life of a solver, and its moments.

## Theorems

* `CutLedger.Mirrors.steps`: The steps of a turn keep the ledger a mirror.
* `Moment.Faithful.handle`: So do events, and nothing waits after them.
* `Master.takes_addRows`: So does adding rows.
* `Master.store_addWaitingRows`: Adding rows changes the ledger and what waits, no more.
* `Solver.fixedInteger_prepare`, `Solver.markedBy_prepare`: Preparations change the queue of the
  local search by installing a local solver only.
* `Solver.history_solve`, `Solver.faithful_prepare`: So do solves and preparations.
* `Solver.ledger_mirrors_engine`: So it is over the life of a solver.
-/

namespace OuterApprox

variable {α σ : Type}

/-- A hyperplane row that an engine took. -/
inductive Admission (α : Type) where
  /-- Lazily, during a search. -/
  | lazily (row : Row α)
  /-- As a row of the model, at a position. -/
  | asRow (row : Row α) (position : Nat)

namespace Admission

def row : Admission α → Row α
  | lazily r | asRow r _ => r

def isLazy : Admission α → Bool
  | lazily _ => true
  | asRow .. => false

def position? : Admission α → Option Nat
  | lazily _ => none
  | asRow _ position => some position

end Admission

/-- What the engine has taken so far, and what is stored. -/
structure Moment (α : Type) where
  /-- The rows for hyperplanes that the engine has taken, in order. -/
  taken : List (Admission α)
  /-- The cut store at that time. -/
  store : CutStore α

/-- Rows are only taken and entries only made: those from before stay as they are. -/
structure Moment.Grows (m m' : Moment α) : Prop where
  /-- What the engine took is kept, and more may follow. -/
  taken : m.taken <+: m'.taken
  /-- The same holds for the entries of the ledger. -/
  entries : m.store.ledger.entries <+: m'.store.ledger.entries

theorem Moment.Grows.refl (m : Moment α) : m.Grows m := ⟨List.prefix_rfl, List.prefix_rfl⟩

theorem Moment.Grows.trans {a b c : Moment α} (h1 : a.Grows b) (h2 : b.Grows c) : a.Grows c :=
  ⟨h1.taken.trans h2.taken, h1.entries.trans h2.entries⟩

instance : Trans (Moment.Grows (α := α)) Moment.Grows Moment.Grows := ⟨Moment.Grows.trans⟩

/-- The hyperplane rows that the engine took in the course of a trace. -/
def Trace.admitted [Scalar α] (τ : Trace α) : List (Admission α) := τ.cuts.map .lazily

theorem Trace.admitted_append [Scalar α] (τ τ' : Trace α) :
    (τ ++ τ').admitted = τ.admitted ++ τ'.admitted := by
  simp only [admitted, cuts, List.flatMap_append, List.map_append]

/-- What an engine takes of hyperplanes that are offered as rows, and the state it is in
    then. The names of the rows count those taken, from `next` on. -/
def Engine.takes [Scalar α] (E : Engine α σ) (p : Problem α) :
    Nat → σ → List (Hyperplane α) → σ × List (Admission α)
  | _, engine, [] => (engine, [])
  | next, engine, h :: rest =>
    match p.linearize h with
    | .error _ => E.takes p next engine rest
    | .ok l =>
      match E.addRow engine l.row s!"h_{next}" with
      | (engine, .error _) => E.takes p next engine rest
      | (engine, .ok position) =>
        let (engine, taken) := E.takes p (next + 1) engine rest
        (engine, .asRow l.row position :: taken)

variable [Scalar α]

/-- An entry of the ledger says how a row was taken, whether lazily and at which position,
    and the row is the linearization of its hyperplane. -/
structure Admission.Entered (p : Problem α) (a : Admission α) (entry : GeneratedCut α) :
    Prop where
  /-- The row is the linearization of the hyperplane that is entered. -/
  row : ∃ l, p.linearize entry.hyperplane = .ok l ∧ a.row = l.row
  /-- The entry says whether the row was taken lazily. -/
  lazy : entry.lazy = a.isLazy
  /-- A row of the model is entered with its position, a lazy one with none. -/
  position : entry.row = a.position?

/-- The entries of a ledger match the rows that an engine took, one to one and in order,
    and are numbered from zero. -/
structure CutLedger.Mirrors (p : Problem α) (taken : List (Admission α)) (l : CutLedger α) :
    Prop where
  /-- Entries and rows correspond one to one. -/
  entries : List.Forall₂ (Admission.Entered p) taken l.entries
  /-- The identifiers count up from zero. -/
  ids : l.entries.map (·.id) = List.range l.size

variable {p : Problem α} {taken : List (Admission α)}

theorem CutLedger.mirrors_empty : (CutLedger.empty : CutLedger α).Mirrors p [] := ⟨.nil, rfl⟩

theorem CutLedger.Mirrors.record {l : CutLedger α} (h : l.Mirrors p taken) (a : Admission α)
    (hp : Hyperplane α) {linear : Linearization α} (hl : p.linearize hp = .ok linear)
    (hrow : a.row = linear.row) (number : Nat) (convex : Bool) :
    (l.record hp number a.isLazy convex a.position?).Mirrors p (taken ++ [a]) where
  entries := List.rel_append h.entries (.cons ⟨⟨linear, hl, hrow⟩, rfl, rfl⟩ .nil)
  ids := by
    have hsize : (l.record hp number a.isLazy convex a.position?).size = l.size + 1 :=
      List.length_append
    rw [hsize, List.range_succ, ← h.ids]
    exact List.map_append

/-- The rows that a turn took are mirrored on top of those from before. -/
structure Turn.Mirrors (p : Problem α) (taken : List (Admission α)) (start : CutLedger α)
    (t : Turn α) : Prop where
  /-- The turn is about the same problem. -/
  problem : t.problem = p
  /-- The rows from before and those of the turn are mirrored. -/
  mirrors : t.store.ledger.Mirrors p (taken ++ t.cuts.map .lazily)
  /-- The entries from the start of the turn are still there. -/
  grows : start.entries <+: t.store.ledger.entries

/-- Steps of a turn keep the ledger a mirror, and only add to it. -/
theorem Turn.Mirrors.steps {start : CutLedger α} {e : Event α} {t t' : Turn α}
    (hsteps : Turn.Steps e t t') (h : t.Mirrors p taken start) : t'.Mirrors p taken start := by
  induction hsteps with
  | refl => exact h
  | tail _ hstep ih =>
      cases hstep with
      | quiet hq =>
          refine ⟨hq.problem.trans ih.problem, ?_, ?_⟩
          · rw [hq.cuts, hq.ledger]
            exact ih.mirrors
          · rw [hq.ledger]
            exact ih.grows
      | primal | dual | interior => exact ⟨ih.problem, ih.mirrors, ih.grows⟩
      | cut hyperplane l number hl =>
          refine ⟨ih.problem, ?_, ih.grows.trans (List.prefix_append _ _)⟩
          -- The row that is taken and the entry that is made are both the last ones.
          rw [ih.problem] at hl
          have hnew := ih.mirrors.record (.lazily l.row) hyperplane hl rfl number
            (hyperplane.target.isConvex p)
          rw [List.append_assoc, ← List.map_singleton, ← List.map_append,
            ← Turn.cuts_call_row] at hnew
          rw [← ih.problem] at hnew ⊢
          exact hnew

/-- Nothing waits after an event if nothing waited before. -/
theorem Turn.Books.waiting_eq_nil {e : Event α} {t t' : Turn α} (h : Turn.Books e t t')
    (hwaiting : t.store.waiting = []) : t'.store.waiting = [] := by
  cases h with
  | kept hkept => exact hkept.waiting.trans hwaiting
  | relaxed _ _ _ _ hempty => exact hempty
  | opened _ _ _ hkept _ => exact hkept.trans hwaiting
  | closed _ _ _ _ _ _ _ hempty => exact hempty

/-- The ledger mirrors the engine, and nothing waits. -/
structure Moment.Faithful (p : Problem α) (m : Moment α) : Prop where
  /-- The ledger mirrors what the engine has taken. -/
  mirrors : m.store.ledger.Mirrors p m.taken
  /-- No hyperplane waits to be added. -/
  waiting : m.store.waiting = []

/-- The moment after an event. -/
def Moment.after (taken : List (Admission α)) (step : Callback α × Event α) : Moment α :=
  ⟨taken ++ (step.1.handle step.2).cuts.map .lazily, (step.1.handle step.2).store⟩

/-- Handling an event keeps the ledger a mirror, and nothing waits after it. -/
theorem Moment.Faithful.handle {c : Callback α} (e : Event α) (hp : c.session.problem = p)
    (h : (⟨taken, c.store⟩ : Moment α).Faithful p) :
    (Moment.after taken (c, e)).Faithful p ∧
      (⟨taken, c.store⟩ : Moment α).Grows (Moment.after taken (c, e)) := by
  have hstart : (⟨c, []⟩ : Turn α).Mirrors p taken c.store.ledger := by
    refine ⟨hp, ?_, List.prefix_rfl⟩
    rw [Turn.cuts, List.filterMap_nil, List.map_nil, List.append_nil]
    exact h.mirrors
  have hend := hstart.steps (c.steps_handle e)
  exact ⟨⟨hend.mirrors, (c.books_handle e).waiting_eq_nil h.waiting⟩,
    List.prefix_append _ _, hend.grows⟩

/-- Moments one after the other, each faithful and grown out of the one before. -/
structure History (p : Problem α) (moments : List (Moment α)) : Prop where
  /-- The ledger mirrors the engine at every moment. -/
  faithful : ∀ m ∈ moments, m.Faithful p
  /-- From one moment to the next nothing is taken back. -/
  grows : moments.IsChain Moment.Grows

theorem History.singleton {m : Moment α} (h : m.Faithful p) : History p [m] :=
  ⟨List.forall_mem_singleton.2 h, .singleton m⟩

theorem History.append {first second : List (Moment α)} {a b : Moment α}
    (h1 : History p first) (h2 : History p second) (ha : first.getLast? = some a)
    (hb : second.head? = some b) (hgrows : a.Grows b) : History p (first ++ second) where
  faithful := List.forall_mem_append.2 ⟨h1.faithful, h2.faithful⟩
  grows := by
    refine List.isChain_append.2 ⟨h1.grows, h2.grows, ?_⟩
    rw [ha, hb]
    rintro _ ⟨⟩ _ ⟨⟩
    exact hgrows

/-- The moments of a trace: one after every event. -/
def Trace.moments (taken : List (Admission α)) : Trace α → List (Moment α)
  | [] => []
  | step :: rest =>
    Moment.after taken step :: Trace.moments (Moment.after taken step).taken rest

theorem Trace.moments_append (taken : List (Admission α)) (τ τ' : Trace α) :
    Trace.moments taken (τ ++ τ') =
      Trace.moments taken τ ++ Trace.moments (taken ++ τ.admitted) τ' := by
  induction τ generalizing taken with
  | nil =>
      rw [List.nil_append, admitted, cuts, List.flatMap_nil, List.map_nil, List.append_nil]
      rfl
  | cons step rest ih =>
      have hadmitted : (Moment.after taken step).taken ++ Trace.admitted rest =
          taken ++ Trace.admitted (step :: rest) := by
        rw [← List.singleton_append, admitted_append, ← List.append_assoc]
        simp only [Moment.after, admitted, cuts, List.flatMap_singleton]
      rw [List.cons_append, moments, ih, hadmitted]
      rfl

/-- In a solve, the moments up to now make a history that ends with what is stored now. -/
theorem Trace.history_invariant (p : Problem α) (start : Moment α) :
    Trace.Invariant fun τ s st => s.problem = p ∧
      History p (start :: τ.moments start.taken) ∧
      (start :: τ.moments start.taken).getLast? = some ⟨start.taken ++ τ.admitted, st⟩ where
  event τ c e := by
    rintro ⟨hp, hhistory, hlast⟩
    -- The event is handled at the last moment up to now, and makes the next one.
    obtain ⟨hfaithful, hgrows⟩ := (hhistory.faithful _ (List.mem_of_getLast? hlast)).handle e hp
    rw [moments_append, ← List.cons_append, admitted_append, ← List.append_assoc]
    refine ⟨(c.steps_handle e).problem.trans hp, ?_, ?_⟩
    -- The moments grow by one, out of the last one.
    · exact hhistory.append (.singleton hfaithful) hlast rfl hgrows
    · rw [List.getLast?_append]
      simp only [moments, List.getLast?_singleton, Option.some_or, Moment.after, admitted, cuts,
        List.flatMap_singleton]
  statistics _ _ _ _ h := h
  note _ _ _ _ h := h
  dual _ _ _ _ h := h
  repaired _ _ _ h := h

namespace Master

variable (E : Engine α σ)

/-- What happens to one hyperplane that is offered as a row: it cannot be linearized, or
    the engine refuses it, or the engine takes it and it is recorded. -/
theorem addRow_cases (number : Nat) (acc : Master α σ × Nat) (h : Hyperplane α) :
    let m := acc.1
    let r := addRow E number acc h
    (∃ err, m.session.problem.linearize h = .error err ∧ r.1.engine = m.engine ∧
      r.1.store = m.store ∧ r.2 = acc.2) ∨
    (∃ l engine err, m.session.problem.linearize h = .ok l ∧
      E.addRow m.engine l.row s!"h_{m.store.ledger.size}" = (engine, .error err) ∧
      r.1.engine = engine ∧ r.1.store = m.store ∧ r.2 = acc.2) ∨
    (∃ l engine position, m.session.problem.linearize h = .ok l ∧
      E.addRow m.engine l.row s!"h_{m.store.ledger.size}" = (engine, .ok position) ∧
      r.1.engine = engine ∧
      r.1.store = { m.store with
        ledger := m.store.ledger.record h number false (h.target.isConvex m.session.problem)
          (some position) } ∧
      r.2 = acc.2 + 1) := by
  obtain ⟨m, added⟩ := acc
  intro _ r
  cases hl : m.session.problem.linearize h with
  | error err =>
      refine .inl ⟨err, rfl, ?_⟩
      simp only [r, addRow, hl]
      exact ⟨rfl, rfl, trivial⟩
  | ok l =>
      right
      cases hanswer : (E.addRow m.engine l.row s!"h_{m.store.ledger.size}").2 with
      | error err =>
          refine .inl ⟨l, _, err, rfl, Prod.ext rfl hanswer, ?_⟩
          simp only [r, addRow, hl]
          simp only [note, hanswer]
          exact ⟨rfl, rfl, trivial⟩
      | ok position =>
          refine .inr ⟨l, _, position, rfl, Prod.ext rfl hanswer, ?_⟩
          simp only [r, addRow, hl]
          simp only [note, hanswer]
          exact ⟨rfl, rfl, trivial⟩

/-- Hyperplanes that are offered as rows change the cut ledger, and the cut store in no other
    way. -/
theorem store_addRows (number : Nat) (hs : List (Hyperplane α)) (acc : Master α σ × Nat) :
    ∃ ledger, (hs.foldl (addRow E number) acc).1.store = { acc.1.store with ledger } := by
  induction hs generalizing acc with
  | nil => exact ⟨_, rfl⟩
  | cons h rest ih =>
      obtain ⟨ledger, hrest⟩ := ih (addRow E number acc h)
      rw [List.foldl_cons, hrest]
      obtain ⟨_, _, _, hstore, _⟩ | ⟨_, _, _, _, _, _, hstore, _⟩ | ⟨_, _, _, _, _, _, hstore, _⟩ :=
        addRow_cases E number acc h <;>
      · rw [hstore]
        exact ⟨ledger, rfl⟩

/-- Nothing waits any more once this was handed over. -/
theorem store_addWaitingRows (m : Master α σ) :
    ∃ ledger, (m.addWaitingRows E).1.store = { m.store with waiting := [], ledger } := by
  have hrows := store_addRows E m.session.iterations.lastNumber m.store.waiting
    ({ m with store := { m.store with waiting := [] } }, 0)
  simp only [addWaitingRows]
  split <;> exact hrows

/-- Offering a hyperplane adds to the journal of the session. -/
theorem session_addRow (number : Nat) (acc : Master α σ × Nat) (h : Hyperplane α) :
    (addRow E number acc h).1.session.problem = acc.1.session.problem ∧
      (addRow E number acc h).1.session.settings = acc.1.session.settings ∧
      (addRow E number acc h).1.session.iterations = acc.1.session.iterations := by
  simp only [addRow]
  split
  · exact ⟨rfl, rfl, rfl⟩
  · split <;> exact ⟨rfl, rfl, rfl⟩

theorem session_addRows (number : Nat) (hs : List (Hyperplane α)) (acc : Master α σ × Nat) :
    let m := (hs.foldl (addRow E number) acc).1
    m.session.problem = acc.1.session.problem ∧ m.session.settings = acc.1.session.settings ∧
      m.session.iterations = acc.1.session.iterations := by
  induction hs generalizing acc with
  | nil => exact ⟨rfl, rfl, rfl⟩
  | cons h rest ih =>
      have hfirst := session_addRow E number acc h
      have hrest := ih (addRow E number acc h)
      exact ⟨hrest.1.trans hfirst.1, hrest.2.1.trans hfirst.2.1, hrest.2.2.trans hfirst.2.2⟩

/-- Hyperplanes that are offered as rows, one after the other: the engine ends where its
    own answers lead it, and the ledger mirrors what it took on the way. -/
theorem takes_addRows (number : Nat) (hs : List (Hyperplane α)) (acc : Master α σ × Nat)
    (hp : acc.1.session.problem = p) (h : acc.1.store.ledger.Mirrors p taken) :
    let r := E.takes p acc.1.store.ledger.size acc.1.engine hs
    let m := (hs.foldl (addRow E number) acc).1
    m.engine = r.1 ∧ m.session.problem = p ∧ m.store.ledger.Mirrors p (taken ++ r.2) ∧
      m.store.waiting = acc.1.store.waiting ∧
      acc.1.store.ledger.entries <+: m.store.ledger.entries := by
  induction hs generalizing acc taken with
  | nil =>
      refine ⟨rfl, hp, ?_, rfl, List.prefix_rfl⟩
      rw [Engine.takes, List.append_nil]
      exact h
  | cons hyperplane rest ih =>
      have hproblem := (session_addRow E number acc hyperplane).1.trans hp
      rw [List.foldl_cons]
      obtain ⟨err, hl, hengine, hstore, -⟩ | ⟨l, engine, err, hl, hanswer, hengine, hstore, -⟩ |
        ⟨l, engine, position, hl, hanswer, hengine, hstore, -⟩ :=
          addRow_cases E number acc hyperplane
      · have hrest := ih _ hproblem (hstore ▸ h)
        rw [hp] at hl
        rw [hengine, hstore] at hrest
        simp only [Engine.takes, hl]
        exact hrest
      · have hrest := ih _ hproblem (hstore ▸ h)
        rw [hp] at hl
        rw [hengine, hstore] at hrest
        simp only [Engine.takes, hl, hanswer]
        exact hrest
      · -- The row that is taken and the entry that is made both come next.
        rw [hp] at hl
        have hnew : (addRow E number acc hyperplane).1.store.ledger.Mirrors p
            (taken ++ [.asRow l.row position]) := by
          rw [hstore]
          exact h.record (.asRow l.row position) hyperplane hl rfl number _
        have hrest := ih _ hproblem hnew
        have hsize : (acc.1.store.ledger.record hyperplane number false
            (hyperplane.target.isConvex acc.1.session.problem) (some position)).size =
              acc.1.store.ledger.size + 1 := List.length_append
        rw [hengine, hstore, hsize] at hrest
        obtain ⟨hend, hsession, hmirrors, hwaiting, hgrows⟩ := hrest
        rw [List.append_assoc] at hmirrors
        simp only [Engine.takes, hl, hanswer]
        exact ⟨hend, hsession, hmirrors, hwaiting, (List.prefix_append _ _).trans hgrows⟩

/-- The same for all hyperplanes that wait, after which none do. -/
theorem takes_addWaitingRows (m : Master α σ) (hp : m.session.problem = p)
    (h : m.store.ledger.Mirrors p taken) :
    let r := E.takes p m.store.ledger.size m.engine m.store.waiting
    let m' := (m.addWaitingRows E).1
    m'.engine = r.1 ∧ m'.session.problem = p ∧ m'.store.ledger.Mirrors p (taken ++ r.2) ∧
      m'.store.waiting = [] ∧ m.store.ledger.entries <+: m'.store.ledger.entries := by
  have hrows := takes_addRows E m.session.iterations.lastNumber m.store.waiting
    ({ m with store := { m.store with waiting := [] } }, 0) hp h
  simp only [addWaitingRows]
  split <;> exact hrows

end Master

/-- Something that is done to a solver before a search: an interior point or a local solver is
    installed, a no-good cut is queued or added as a row, hyperplanes are added as rows. -/
inductive Preparation (α : Type) where
  /-- An interior point is offered. -/
  | interior (x : Point α)
  /-- A local solver for the continuous variables is installed. -/
  | fixedInteger (solver : FixedIntegerSolver α)
  /-- A no-good cut is queued for the next solve. -/
  | queueIntegerCut (indices : List Nat)
  /-- A no-good cut is added as a row at once. -/
  | integerCutRow (indices : List Nat)
  /-- Hyperplanes are added as rows, outside of any solve. -/
  | hyperplanes (hs : List (Hyperplane α))

/-- Something that is done with a solver. -/
inductive Deed (α : Type) where
  /-- Something is prepared. -/
  | prepare (preparation : Preparation α)
  /-- The problem is solved. -/
  | solve

namespace Solver

variable (E : Engine α σ)

/-- The solver after a preparation. What is refused changes nothing. -/
def prepare (s : Solver α σ) : Preparation α → Solver α σ
  | .interior x => (s.setInterior x).toOption.getD s
  | .fixedInteger solver => s.setFixedInteger solver
  | .queueIntegerCut indices => s.queueIntegerCut indices
  | .integerCutRow indices => (s.addIntegerCutRow E indices).1
  | .hyperplanes hs => (s.addHyperplanes E hs).1

def perform (s : Solver α σ) : Deed α → Solver α σ
  | .prepare preparation => s.prepare E preparation
  | .solve => (s.solve E).1

def performAll (s : Solver α σ) (deeds : List (Deed α)) : Solver α σ :=
  deeds.foldl (perform E) s

/-- The hyperplane rows that the engine takes in a preparation. -/
def admittedBy (s : Solver α σ) : Preparation α → List (Admission α)
  | .interior _ | .fixedInteger _ | .queueIntegerCut _ | .integerCutRow _ => []
  | .hyperplanes hs =>
    (E.takes s.master.session.problem s.master.store.ledger.size s.master.engine hs).2

/-- The hyperplane rows that the engine takes in a deed. -/
def admitted (s : Solver α σ) : Deed α → List (Admission α)
  | .prepare preparation => s.admittedBy E preparation
  | .solve => (s.trace E).admitted

/-- The moments in the middle of a deed: after every event of a solve. -/
def during (s : Solver α σ) (taken : List (Admission α)) : Deed α → List (Moment α)
  | .prepare _ => []
  | .solve => (s.trace E).moments taken

/-- The moments of a solver that does several things, from one at which the engine has
    taken some rows. -/
def history (s : Solver α σ) (taken : List (Admission α)) : List (Deed α) → List (Moment α)
  | [] => [⟨taken, s.master.store⟩]
  | deed :: rest =>
    ⟨taken, s.master.store⟩ :: (s.during E taken deed ++
      history (s.perform E deed) (taken ++ s.admitted E deed) rest)

variable {E} {s : Solver α σ}

/-- A solver for the problem whose ledger mirrors the engine, and nothing waits. -/
def Faithful (p : Problem α) (taken : List (Admission α)) (s : Solver α σ) : Prop :=
  s.master.session.problem = p ∧ (⟨taken, s.master.store⟩ : Moment α).Faithful p

/-- A new solver has admissible settings, an empty ledger and no cuts. -/
theorem create_eq_ok {given : Settings α} {engine : σ} {clock : Clock}
    (h : create E p given engine clock = .ok s) :
    given.validate = .ok () ∧
      s = { master := .start
              { problem := p
                settings := given
                bounds := .fresh p.sense given.termination
                iterations := .empty
                statistics := {}
                clock
                journal := #[] } engine given.dual.strategy
            initialHyperplanes := 0
            initialIntegerCuts := 0 } := by
  simp only [create, Session.start] at h
  split at h
  · simp only [reduceCtorEq] at h
  · split at h
    · simp only [reduceCtorEq] at h
    next session hsession =>
      split at hsession
      · simp only [reduceCtorEq] at hsession
      next hvalid =>
        cases hsession
        cases h
        exact ⟨hvalid, rfl⟩

/-- A solver in which nothing has changed that has to do with hyperplanes. -/
structure Undisturbed (s s' : Solver α σ) : Prop where
  /-- The problem is the same. -/
  problem : s'.master.session.problem = s.master.session.problem
  /-- The settings are the same. -/
  settings : s'.master.session.settings = s.master.session.settings
  /-- The iterations are the same. -/
  iterations : s'.master.session.iterations = s.master.session.iterations
  /-- The cut ledger is the same. -/
  ledger : s'.master.store.ledger = s.master.store.ledger
  /-- The hyperplanes that wait are the same. -/
  waiting : s'.master.store.waiting = s.master.store.waiting
  /-- The rows added outside of solves are counted as before. -/
  counted : s'.initialHyperplanes = s.initialHyperplanes

omit [Scalar α] in
theorem Undisturbed.refl (s : Solver α σ) : s.Undisturbed s := ⟨rfl, rfl, rfl, rfl, rfl, rfl⟩

/-- A preparation adds hyperplanes, or it has nothing to do with them. -/
theorem prepare_cases (s : Solver α σ) (preparation : Preparation α) :
    (∃ hs, preparation = .hyperplanes hs) ∨
      s.Undisturbed (s.prepare E preparation) ∧ s.admittedBy E preparation = [] := by
  cases preparation with
  | interior x =>
      refine .inr ⟨?_, rfl⟩
      simp only [prepare, setInterior]
      split
      · exact .refl s
      · split
        · exact ⟨rfl, rfl, rfl, rfl, rfl, rfl⟩
        · split <;> exact ⟨rfl, rfl, rfl, rfl, rfl, rfl⟩
  | fixedInteger solver => exact .inr ⟨⟨rfl, rfl, rfl, rfl, rfl, rfl⟩, rfl⟩
  | queueIntegerCut indices => exact .inr ⟨⟨rfl, rfl, rfl, rfl, rfl, rfl⟩, rfl⟩
  | integerCutRow indices =>
      refine .inr ⟨?_, rfl⟩
      simp only [prepare, addIntegerCutRow, Master.addIntegerCutRow]
      cases (noGoodRow s.master.session.problem.dimension indices : Option (Row α)) with
      | none => exact .refl s
      | some row =>
          cases hanswer : (E.addRow s.master.engine row
            s!"ic_{s.master.session.statistics.integerCuts}").2 <;>
          · simp only [hanswer]
            exact ⟨rfl, rfl, rfl, rfl, rfl, rfl⟩
  | hyperplanes hs => exact .inl ⟨hs, rfl⟩

/-- A preparation concerns the local solver only if it is the one that installs it. -/
theorem fixedInteger_prepare (s : Solver α σ) (preparation : Preparation α) :
    (s.prepare E preparation).master.store.fixedInteger = s.master.store.fixedInteger ∨
      ∃ solver, preparation = .fixedInteger solver ∧
        (s.prepare E preparation).master.store.fixedInteger =
          s.master.store.fixedInteger.install solver := by
  cases preparation with
  | interior x =>
      left
      simp only [prepare, setInterior]
      split
      · rfl
      · split
        · rfl
        · split <;> rfl
  | fixedInteger solver => exact .inr ⟨solver, rfl, rfl⟩
  | queueIntegerCut indices => exact .inl rfl
  | integerCutRow indices =>
      left
      simp only [prepare, addIntegerCutRow, Master.addIntegerCutRow]
      cases (noGoodRow s.master.session.problem.dimension indices : Option (Row α)) with
      | none => rfl
      | some row =>
          cases hanswer : (E.addRow s.master.engine row
            s!"ic_{s.master.session.statistics.integerCuts}").2 <;>
          · simp only [hanswer]
  | hyperplanes hs =>
      left
      obtain ⟨_, hstore⟩ := (s.mapStore (·.request hs)).master.store_addWaitingRows E
      have hkept := congrArg CutStore.fixedInteger hstore
      exact hkept

/-- No preparation marks the queue of the local search. -/
theorem markedBy_prepare (s : Solver α σ) {rule : FixedIntegerRule}
    (h : s.master.store.fixedInteger.MarkedBy rule) (preparation : Preparation α) :
    (s.prepare E preparation).master.store.fixedInteger.MarkedBy rule := by
  obtain hsame | ⟨solver, -, hinstalled⟩ := s.fixedInteger_prepare (E := E) preparation
  · rw [hsame]
    exact h
  · rw [hinstalled]
    exact fun hmark => ⟨nofun, (h hmark).2⟩

theorem faithful_create {given : Settings α} {engine : σ} {clock : Clock}
    (h : create E p given engine clock = .ok s) : s.Faithful p [] := by
  obtain ⟨-, rfl⟩ := create_eq_ok h
  exact ⟨rfl, CutLedger.mirrors_empty, rfl⟩

/-- Hyperplanes that are added leave the ledger a mirror of the engine, which is in the
    state its answers led it to. -/
theorem faithful_addHyperplanes (h : s.Faithful p taken) (hs : List (Hyperplane α)) :
    let s' := (s.addHyperplanes E hs).1
    s'.Faithful p (taken ++ s.admittedBy E (.hyperplanes hs)) ∧
      s.master.store.ledger.entries <+: s'.master.store.ledger.entries ∧
      s'.master.engine =
        (E.takes p s.master.store.ledger.size s.master.engine hs).1 := by
  -- Nothing waited, so no more is handed over than what is asked for here.
  have hwaiting : s.master.store.waiting ++ hs = hs := by
    rw [show s.master.store.waiting = [] from h.2.waiting, List.nil_append]
  have hrows := Master.takes_addWaitingRows E (s.mapStore (·.request hs)).master h.1 h.2.mirrors
  have hrequested : (s.mapStore (·.request hs)).master.store.waiting = hs := hwaiting
  rw [hrequested] at hrows
  obtain ⟨hengine, hproblem, hmirrors, hempty, hgrows⟩ := hrows
  rw [admittedBy, h.1]
  exact ⟨⟨hproblem, hmirrors, hempty⟩, hgrows, hengine⟩

/-- A preparation leaves the ledger a mirror of the engine. -/
theorem faithful_prepare (h : s.Faithful p taken) (preparation : Preparation α) :
    (s.prepare E preparation).Faithful p (taken ++ s.admittedBy E preparation) ∧
      s.master.store.ledger.entries <+: (s.prepare E preparation).master.store.ledger.entries := by
  obtain ⟨hs, rfl⟩ | ⟨hkept, hnone⟩ := s.prepare_cases (E := E) preparation
  · have hadded := faithful_addHyperplanes (E := E) h hs
    exact ⟨hadded.1, hadded.2.1⟩
  · rw [hnone, List.append_nil]
    refine ⟨⟨hkept.problem.trans h.1, ?_, hkept.waiting.trans h.2.waiting⟩, ?_⟩
    · rw [hkept.ledger]
      exact h.2.mirrors
    · exact hkept.ledger ▸ List.prefix_rfl

/-- A solve makes history, at whose end its cut store is. -/
theorem history_solve (h : s.Faithful p taken) :
    let start : Moment α := ⟨taken, s.master.store⟩
    (s.solve E).1.master.session.problem = p ∧
      History p (start :: (s.trace E).moments taken) ∧
      (start :: (s.trace E).moments taken).getLast? =
        some ⟨taken ++ (s.trace E).admitted, (s.solve E).1.master.store⟩ := by
  intro start
  cases hvalid : s.master.session.settings.validate with
  | error e =>
      -- Without admissible settings nothing is searched.
      have htrace : s.trace E = [] := by
        simp only [trace, rounds, hvalid, List.flatMap_nil]
      have hsolve : (s.solve E).1 = s := by simp only [solve, hvalid]
      rw [htrace, hsolve]
      refine ⟨h.1, .singleton h.2, ?_⟩
      simp only [Trace.moments, Trace.admitted, Trace.cuts, List.flatMap_nil, List.map_nil,
        List.append_nil, List.getLast?_singleton, start]
  | ok u =>
      refine (invariant_solve (τ := []) ((Trace.history_invariant p start).master E) s hvalid
        (fun _ _ => trivial) ⟨h.1, .singleton h.2, ?_⟩).2
      simp only [Trace.moments, Trace.admitted, Trace.cuts, List.flatMap_nil, List.map_nil,
        List.append_nil, List.getLast?_singleton]
      rfl

/-- A deed makes history that leads to where the solver is after it. -/
theorem history_perform (h : s.Faithful p taken) (deed : Deed α) :
    (s.perform E deed).Faithful p (taken ++ s.admitted E deed) ∧
      History p (⟨taken, s.master.store⟩ :: s.during E taken deed) ∧
      ∃ m, (⟨taken, s.master.store⟩ :: s.during E taken deed).getLast? = some m ∧
        m.Grows ⟨taken ++ s.admitted E deed, (s.perform E deed).master.store⟩ := by
  cases deed with
  | prepare preparation =>
      obtain ⟨hfaithful, hgrows⟩ := faithful_prepare (E := E) h preparation
      exact ⟨hfaithful, .singleton h.2, _, rfl, List.prefix_append _ _, hgrows⟩
  | solve =>
      obtain ⟨hproblem, hhistory, hlast⟩ := history_solve (E := E) h
      refine ⟨⟨hproblem, ?_⟩, hhistory, _, hlast, .refl _⟩
      exact hhistory.faithful _ (List.mem_of_getLast? hlast)

theorem head?_history (s : Solver α σ) (taken : List (Admission α)) (deeds : List (Deed α)) :
    (s.history E taken deeds).head? = some ⟨taken, s.master.store⟩ := by
  cases deeds <;> rfl

theorem history_history (h : s.Faithful p taken) (deeds : List (Deed α)) :
    History p (s.history E taken deeds) := by
  induction deeds generalizing s taken with
  | nil => exact .singleton h.2
  | cons deed rest ih =>
      obtain ⟨hfaithful, hhistory, m, hlast, hgrows⟩ := history_perform (E := E) h deed
      exact hhistory.append (ih hfaithful) hlast (head?_history _ _ _) hgrows

theorem faithful_performAll (h : s.Faithful p taken) (deeds : List (Deed α)) :
    ∃ taken', (s.performAll E deeds).Faithful p taken' := by
  induction deeds generalizing s taken with
  | nil => exact ⟨taken, h⟩
  | cons deed rest ih => exact ih (history_perform (E := E) h deed).1

/-- Over the life of a solver, whatever is done with it and whatever the engine takes, the
    cut ledger mirrors the engine and nothing waits, at every moment; and what is in the
    ledger at one moment stays in it, in its place and unchanged, at all later ones. What
    the engine takes before a search is told from its answers, which lead it to the state
    that it is in after them. -/
theorem ledger_mirrors_engine {given : Settings α} {engine : σ} {clock : Clock}
    (h : create E p given engine clock = .ok s) (deeds : List (Deed α)) :
    (∀ m ∈ s.history E [] deeds, m.store.ledger.Mirrors p m.taken ∧ m.store.waiting = []) ∧
      (s.history E [] deeds).Pairwise Moment.Grows ∧
      ∀ hs, let s' := s.performAll E deeds
        (s'.addHyperplanes E hs).1.master.engine =
          (E.takes p s'.master.store.ledger.size s'.master.engine hs).1 := by
  have hcreated := faithful_create h
  have hhistory := history_history (E := E) hcreated deeds
  refine ⟨fun m hm => ?_, List.isChain_iff_pairwise.1 hhistory.grows, fun hs => ?_⟩
  · exact ⟨(hhistory.faithful m hm).mirrors, (hhistory.faithful m hm).waiting⟩
  · obtain ⟨_, hfaithful⟩ := faithful_performAll (E := E) hcreated deeds
    exact (faithful_addHyperplanes hfaithful hs).2.2

end Solver

namespace Parabola

/-- A hyperplane of the parabola that is flat. -/
def flat : Hyperplane Exact := ⟨.objective, [0.0, 0.0], .interiorSearch⟩

/-- An engine that refuses rows with a small right-hand side before a search, and the first
    row in a search. -/
def choosyEngine : Engine Exact (Tabular Exact) :=
  { scriptedEngine (α := Exact)
      [{ events := [{ Event.blank .integerSolution with
           objective := .ok 0.0, values := .ok [3.0, 0.0]
           onRow := fun position _ =>
             if position = 0 then .error Tabular.scriptedFailure else .ok () }]
         status := .ok .optimal
         finalBound := .ok 0.0
         ignoreAbort := false }]
      (.error (.notAvailable "elastic")) with
    addRow := fun tables row name =>
      if row.upper < 1.0 then (tables, .error Tabular.scriptedFailure)
      else tables.addRow row name }

/-- Of the four hyperplanes that this solver has, the engine refuses one before the search
    and one in it. -/
theorem ledger_mirrors_engine_choosy :
    let moments := solver.history choosyEngine [] [.prepare (.hyperplanes [flat, tangent]), .solve]
    moments.map (fun m => m.store.ledger.entries.map fun entry =>
        (entry.id, entry.lazy, entry.row)) =
      [[], [(0, false, some 0)], [(0, false, some 0), (1, true, none)],
        [(0, false, some 0), (1, true, none)]] ∧
    (∀ m ∈ moments, m.store.ledger.Mirrors problem m.taken ∧ m.store.waiting = []) ∧
    moments.Pairwise Moment.Grows := by
  have hcreate : Solver.create choosyEngine problem Settings.withCuttingPlanes tables
      (.still ⟨0⟩) = .ok solver := Eq.trans rfl create_eq_solver
  obtain ⟨hmirrors, hgrows, -⟩ := Solver.ledger_mirrors_engine hcreate
    [.prepare (.hyperplanes [flat, tangent]), .solve]
  exact ⟨by decide +kernel, hmirrors, hgrows⟩

end Parabola

end OuterApprox
