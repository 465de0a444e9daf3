import OuterApprox.Proofs.CutAccount

/-!
# Hyperplanes from before a search

A caller may add hyperplanes as rows between two solves as well as before the first
one. They are meant to belong to no iteration: to be entered in the cut ledger under
the number zero, and to be counted in the first iteration of every later solve.

The second part holds however calls and solves follow one another. The count is kept
in the solver, apart from the session, and every solve starts with it. The first part
does not. The number is read off the session, and a session outlives the solve it was
made for, until the next one replaces it: after a solve, what is added gets the number
of the last iteration of that solve. So the number is zero exactly as long as nothing
was solved.

## Main definitions

* `Solver.recordedBy`: The entries made of hyperplanes that are added.
* `Solver.initialRows`: The rows that the engine takes outside of solves.
* `Solver.Rested`: A solver between two things that are done with it.

## Theorems

* `Callback.numbered_invariant`: There is an iteration all through a solve.
* `Solver.Faithful.recordedBy`: An entry for each row that is taken.
* `Solver.Rested.performAll`: What a sequence of deeds leads to.
* `Solver.initial_hyperplanes_counted`: Numbers and counts in any sequence.
* `SecondCall.initial_hyperplanes_not_early`: A number that is not zero.
-/

namespace OuterApprox

variable {α σ : Type}

namespace IterationLedger

/-- Counting keeps the number of the last iteration. -/
theorem lastNumber_modifyLast (l : IterationLedger α) {f : Iteration α → Iteration α}
    {count relaxed : Nat} (hf : ∀ it : Iteration α, it.Counted count relaxed (f it)) :
    (l.modifyLast f).lastNumber = l.lastNumber := by
  obtain ⟨n, rfl⟩ | ⟨init, it, n, rfl⟩ := l.empty_or_append
  · rfl
  · rw [modifyLast_append, lastNumber_append, lastNumber_append, (hf it).number]

theorem lastNumber_closeLast (l : IterationLedger α) : l.closeLast.lastNumber = l.lastNumber := by
  obtain ⟨n, rfl⟩ | ⟨init, it, n, rfl⟩ := l.empty_or_append
  · rfl
  · rw [closeLast_append, lastNumber_append, lastNumber_append]

/-- Iterations are numbered from one. -/
theorem lastNumber_ensured_pos [Scalar α] {l : IterationLedger α} (h : 0 < l.lastNumber) :
    0 < l.ensured.lastNumber := by
  obtain ⟨_, heq⟩ | ⟨_, _, _, _, _, heq⟩ := l.ensured_cases
  · rw [heq, lastNumber_append]
    exact Nat.succ_pos _
  · rw [heq]
    exact h

end IterationLedger

/-- Rows that are offered outside of a search are not taken lazily. -/
theorem Engine.isLazy_takes [Scalar α] (E : Engine α σ) (p : Problem α) (next : Nat) (engine : σ)
    (hs : List (Hyperplane α)) : ∀ a ∈ (E.takes p next engine hs).2, a.isLazy = false := by
  induction hs generalizing next engine with
  | nil => exact List.forall_mem_nil _
  | cons h rest ih =>
      unfold takes
      split
      · exact ih next engine
      · split
        · exact ih next _
        · exact List.forall_mem_cons.2 ⟨rfl, ih (next + 1) _⟩

variable [Scalar α]

/-- Once there is an iteration, events and remedies leave one. -/
theorem Callback.numbered_invariant : Callback.Invariant (fun _ : Event α => True)
    fun s _ => 0 < s.iterations.lastNumber where
  event c e _ h := by
    -- Iterations are opened, counted in and closed, but never taken away.
    cases c.books_handle e with
    | kept hkept =>
        rw [hkept.iterations]
        exact h
    | relaxed n _ hiterations =>
        have hnumber := c.session.iterations.lastNumber_modifyLast (Iteration.counted_relaxedBy n)
        rw [hiterations]
        exact hnumber ▸ h
    | opened _ hiterations =>
        rw [hiterations]
        exact IterationLedger.lastNumber_ensured_pos h
    | closed n change hcounted _ _ hiterations =>
        rw [hiterations, IterationLedger.lastNumber_closeLast,
          IterationLedger.lastNumber_modifyLast _ hcounted]
        exact IterationLedger.lastNumber_ensured_pos h
  statistics _ _ _ h := h
  note _ _ _ h := h
  dual _ _ _ h := h
  repaired s _ h := by
    have hmark : ∀ it : Iteration α, it.Counted 0 0 { it with repaired := true } :=
      fun _ => ⟨rfl, rfl, rfl, rfl, rfl⟩
    exact s.iterations.lastNumber_modifyLast hmark ▸ h

namespace Solver

variable (E : Engine α σ)

/-- The entries that adding hyperplanes makes in the cut ledger. -/
def recordedBy (s : Solver α σ) (hs : List (Hyperplane α)) : List (GeneratedCut α) :=
  (s.addHyperplanes E hs).1.master.store.ledger.entries.drop s.master.store.ledger.size

/-- The hyperplane rows that the engine takes in a sequence of deeds, those in solves left
    out. -/
def initialRows (s : Solver α σ) : List (Deed α) → List (Admission α)
  | [] => []
  | .prepare preparation :: rest =>
    s.admittedBy E preparation ++ initialRows (s.prepare E preparation) rest
  | .solve :: rest => initialRows (s.solve E).1 rest

variable {E} {s : Solver α σ} {p : Problem α} {given : Settings α}

/-- Adding hyperplanes makes an entry for each row that the engine takes. None of them is
    lazy, and all have the number of the last iteration there is. -/
theorem Faithful.recordedBy {taken : List (Admission α)} (h : s.Faithful p taken)
    (hs : List (Hyperplane α)) :
    (s.addHyperplanes E hs).1.master.store.ledger.entries =
        s.master.store.ledger.entries ++ s.recordedBy E hs ∧
      (s.addHyperplanes E hs).2 = (s.recordedBy E hs).length ∧
      (s.recordedBy E hs).length = (s.admittedBy E (.hyperplanes hs)).length ∧
      ∀ entry ∈ s.recordedBy E hs, entry.lazy = false ∧
        entry.iteration = s.master.session.iterations.lastNumber := by
  obtain ⟨⟨new, hentries, hcount, hnumber⟩, -⟩ :=
    Master.entered_addWaitingRows E (s.mapStore (·.request hs)).master
  have hrecorded : s.recordedBy E hs = new := by
    unfold Solver.recordedBy
    rw [show (s.addHyperplanes E hs).1.master.store.ledger.entries = _ from hentries]
    exact List.drop_left
  rw [hrecorded]
  -- The ledger mirrored what was taken before and mirrors what is taken in all.
  have hbefore := h.2.mirrors.entries
  have hafter := (faithful_addHyperplanes (E := E) h hs).1.2.mirrors.entries
  rw [show (s.addHyperplanes E hs).1.master.store.ledger.entries = _ from hentries] at hafter
  have hnew : List.Forall₂ (Admission.Entered p) (s.admittedBy E (.hyperplanes hs)) new := by
    have hdrop := List.forall₂_drop taken.length hafter
    have hrest : (s.master.store.ledger.entries ++ new).drop s.master.store.ledger.entries.length =
        new := List.drop_left
    rw [List.drop_left, hbefore.length_eq] at hdrop
    exact hrest ▸ hdrop
  refine ⟨hentries, hcount, hnew.length_eq.symm, fun entry hmem => ⟨?_, hnumber entry hmem⟩⟩
  -- Each new entry belongs to a row that was added to the model.
  obtain ⟨k, hk, rfl⟩ := List.mem_iff_getElem.1 hmem
  have hentered := hnew.get (hnew.length_eq ▸ hk) hk
  exact hentered.lazy.trans (E.isLazy_takes _ _ _ hs _ (List.get_mem _ _))

/-- A solver between two things that are done with it, after rows were accepted outside of
    solves and it was solved or not. -/
structure Rested (p : Problem α) (given : Settings α) (accepted : Nat) (solved : Prop)
    (s : Solver α σ) : Prop where
  /-- The ledger mirrors the engine. -/
  faithful : ∃ taken, s.Faithful p taken
  /-- The settings are the ones given. -/
  settings : s.master.session.settings = given
  /-- The rows accepted outside of solves are counted. -/
  counted : s.initialHyperplanes = accepted
  /-- There is a last iteration if and only if there was a solve. -/
  number : s.master.session.iterations.lastNumber = 0 ↔ ¬ solved

theorem rested_create {engine : σ} {clock : Clock}
    (h : create E p given engine clock = .ok s) : s.Rested p given 0 False := by
  have hfaithful := faithful_create h
  obtain ⟨-, rfl⟩ := create_eq_ok h
  exact ⟨⟨_, hfaithful⟩, rfl, rfl, iff_of_true rfl not_false⟩

variable {accepted : Nat} {solved : Prop}

/-- A preparation counts the rows that are taken in it. If it adds hyperplanes, those are
    counted in the last iteration too, whose number stays. -/
theorem Rested.prepare (h : s.Rested p given accepted solved) (preparation : Preparation α) :
    (s.prepare E preparation).Rested p given
      (accepted + (s.admittedBy E preparation).length) solved := by
  obtain ⟨taken, hfaithful⟩ := h.faithful
  have hafter := (faithful_prepare (E := E) hfaithful preparation).1
  -- Only adding hyperplanes has to do with the count.
  obtain ⟨hs, rfl⟩ | ⟨hkept, hnone⟩ := s.prepare_cases (E := E) preparation
  · obtain ⟨-, hsettings, hiterations⟩ :=
      Master.entered_addWaitingRows E (s.mapStore (·.request hs)).master
    obtain ⟨-, hcount, hlength, -⟩ := hfaithful.recordedBy (E := E) hs
    refine ⟨⟨_, hafter⟩, hsettings.trans h.settings, ?_, ?_⟩
    · rw [← hlength, ← hcount, ← h.counted]
      rfl
    · rw [show (s.prepare E (.hyperplanes hs)).master.session.iterations = _ from hiterations,
        IterationLedger.lastNumber_modifyLast _ (Iteration.counted_addHyperplanes _)]
      exact h.number
  · rw [hnone, List.length_nil, Nat.add_zero]
    refine ⟨⟨_, hafter⟩, hkept.settings.trans h.settings, hkept.counted.trans h.counted, ?_⟩
    rw [hkept.iterations]
    exact h.number

/-- A solve counts nothing here, and leaves an iteration behind. -/
theorem Rested.solve (hvalid : given.validate = .ok ()) (h : s.Rested p given accepted solved) :
    (s.solve E).1.Rested p given accepted True := by
  obtain ⟨taken, hfaithful⟩ := h.faithful
  have hvalid' : s.master.session.settings.validate = .ok () := by rw [h.settings, hvalid]
  have haccounted := (invariant_solve (τ := []) ((Session.accounted_invariant given).master E) s
    hvalid' (fun _ _ => trivial) (h.settings ▸ s.accounted_freshSession)).2
  have hnumbered := (invariant_solve (τ := []) (Callback.numbered_invariant.master E) s hvalid'
    (fun _ _ => trivial) Nat.one_pos).2
  refine ⟨⟨_, (history_perform hfaithful .solve).1⟩, haccounted.settings, ?_, ?_⟩
  · rw [← h.counted]
    simp only [Solver.solve]
    split <;> rfl
  · exact iff_of_false (Nat.ne_of_gt hnumbered) fun hnot => hnot trivial

/-- What a sequence of deeds leads to. -/
theorem Rested.performAll (hvalid : given.validate = .ok ())
    (h : s.Rested p given accepted solved) (deeds : List (Deed α)) :
    (s.performAll E deeds).Rested p given (accepted + (s.initialRows E deeds).length)
      (solved ∨ .solve ∈ deeds) := by
  -- One deed after the other, with the count and whether there was a solve.
  induction deeds generalizing s accepted solved with
  | nil =>
      have hmem : solved ∨ Deed.solve ∈ ([] : List (Deed α)) ↔ solved := by
        simp only [List.not_mem_nil, or_false]
      rw [hmem]
      exact h
  | cons deed rest ih =>
      cases deed with
      | prepare preparation =>
          have hrest := ih (h.prepare (E := E) preparation)
          have hmem : Deed.solve ∈ Deed.prepare preparation :: rest ↔ Deed.solve ∈ rest := by
            simp only [List.mem_cons, reduceCtorEq, false_or]
          rw [initialRows, List.length_append, ← Nat.add_assoc, hmem]
          exact hrest
      | solve =>
          have hrest := ih (h.solve (E := E) hvalid)
          have hmem : (solved ∨ Deed.solve ∈ Deed.solve :: rest) ↔ True ∨ Deed.solve ∈ rest :=
            iff_of_true (.inr List.mem_cons_self) (.inl trivial)
          rw [initialRows, hmem]
          exact hrest

/-- After any sequence of preparations and solves, whatever the engine does: hyperplanes that
    are added make an entry in the cut ledger for each row that the engine takes, none of
    which is lazy. Their number is that of the last iteration of the last solve, which is zero
    exactly if there was no solve. And if the solver is solved then, it begins its first search
    with one iteration, in which all the rows are counted that the engine took outside of
    solves. -/
theorem initial_hyperplanes_counted {engine : σ} {clock : Clock}
    (h : create E p given engine clock = .ok s) (deeds : List (Deed α)) :
    let s' := s.performAll E deeds
    (∀ hs, (s'.addHyperplanes E hs).1.master.store.ledger.entries =
          s'.master.store.ledger.entries ++ s'.recordedBy E hs ∧
        (s'.recordedBy E hs).length = (s'.admittedBy E (.hyperplanes hs)).length ∧
        ∀ entry ∈ s'.recordedBy E hs, entry.lazy = false ∧
          entry.iteration = s'.master.session.iterations.lastNumber ∧
          (entry.iteration = 0 ↔ .solve ∉ deeds)) ∧
    ∃ first, (s'.searches E).head? = some s'.startMaster ∧
      s'.startMaster.session.iterations.iterations = [first] ∧ first.number = 1 ∧
      first.added = (s.initialRows E deeds).length ∧
      first.total = (s.initialRows E deeds).length := by
  intro s'
  have hvalid := (create_eq_ok h).1
  have hrested := (rested_create h).performAll (E := E) hvalid deeds
  rw [Nat.zero_add, false_or] at hrested
  constructor
  · intro hs
    obtain ⟨_, hfaithful⟩ := hrested.faithful
    obtain ⟨hentries, -, hlength, hnew⟩ := hfaithful.recordedBy (E := E) hs
    refine ⟨hentries, hlength, fun entry hmem => ?_⟩
    obtain ⟨hlazy, hnumber⟩ := hnew entry hmem
    exact ⟨hlazy, hnumber, hnumber ▸ hrested.number⟩
  · have hvalid' : s'.master.session.settings.validate = .ok () := by
      rw [hrested.settings, hvalid]
    refine ⟨_, ?_, rfl, rfl, ?_, ?_⟩
    · simp only [searches, rounds, hvalid', List.flatMap_cons]
      rfl
    · exact (Nat.zero_add _).trans hrested.counted
    · exact (Nat.zero_add _).trans hrested.counted

end Solver

namespace SecondCall

/-- A variable between zero and three that is to be as small as possible, and not above one and
    a half. -/
def problem : Problem Float :=
  ((Problem.ofObjective (.affine ⟨[(0, 1.0)], 0.0⟩ .minimize)).addVariable
    "x" 0.0 3.0 .real).addConstraint ⟨"cap", Affine.toFunction ⟨[(0, 1.0)], 0.0⟩, 1.5, true⟩

/-- An engine that ends a search at once. -/
def engine : Engine Float (Tabular Float) :=
  scriptedEngine
    [{ events := []
       status := .ok .optimal
       finalBound := .ok 0.0
       ignoreAbort := false }]
    (.error (.notAvailable "elastic"))

def tables : Tabular Float := .fresh [(0.0, 3.0)] [] {}

/-- The cap, linearized at a point. -/
def capAt (x : Float) : Hyperplane Float := ⟨.constraint 0, [x], .interiorSearch⟩

def solver : Solver Float (Tabular Float) where
  master := .start
    { problem
      settings := Settings.withCuttingPlanes
      bounds := .fresh .minimize Settings.standard.termination
      iterations := .empty
      statistics := {}
      clock := .still ⟨0⟩
      journal := #[] } tables .cuttingPlane
  initialHyperplanes := 0
  initialIntegerCuts := 0

theorem create_eq_solver :
    Solver.create engine problem Settings.withCuttingPlanes tables (.still ⟨0⟩) = .ok solver := by
  have hvalid : (Settings.withCuttingPlanes : Settings Float).validate = .ok () :=
    (Settings.validate_eq_ok_iff _).2 (List.all_eq_true.1 (by decide +kernel))
  simp only [Solver.create, Session.start, hvalid]
  rfl

/-- A hyperplane is added and the solver solved. -/
def solvedOnce : List (Deed Float) := [.prepare (.hyperplanes [capAt 2.0]), .solve]

/-- And then another one is added. -/
def addedTwice : List (Deed Float) := solvedOnce ++ [.prepare (.hyperplanes [capAt 3.0])]

/-- The number of the second hyperplane is not zero, and the next solve begins with both in its
    first iteration. -/
theorem initial_hyperplanes_counted_twice :
    (∀ entry ∈ (solver.performAll engine solvedOnce).recordedBy engine [capAt 3.0],
      entry.lazy = false ∧ entry.iteration ≠ 0) ∧
    ∃ first, (solver.performAll engine addedTwice).startMaster.session.iterations.iterations =
      [first] ∧ first.number = 1 ∧ first.added = 2 ∧ first.total = 2 := by
  obtain ⟨hentries, -⟩ := Solver.initial_hyperplanes_counted create_eq_solver solvedOnce
  obtain ⟨-, first, -, hfirst, hnumber, hadded, htotal⟩ :=
    Solver.initial_hyperplanes_counted create_eq_solver addedTwice
  have hrows : (solver.initialRows engine addedTwice).length = 2 := by decide +kernel
  refine ⟨fun entry hmem => ?_, first, hfirst, hnumber, hadded.trans hrows, htotal.trans hrows⟩
  obtain ⟨-, -, hnew⟩ := hentries [capAt 3.0]
  obtain ⟨hlazy, -, hearly⟩ := hnew entry hmem
  exact ⟨hlazy, fun hzero => hearly.1 hzero (List.mem_cons_of_mem _ List.mem_cons_self)⟩

/-- Entries of hyperplanes that are added after a solve do not have the number zero. -/
theorem initial_hyperplanes_not_early :
    Solver.create engine problem Settings.withCuttingPlanes tables (.still ⟨0⟩) = .ok solver ∧
    ((solver.performAll engine solvedOnce).recordedBy engine [capAt 3.0]).map
      (fun entry => (entry.iteration, entry.lazy)) = [(1, false)] :=
  ⟨create_eq_solver, by decide +kernel⟩

end SecondCall

end OuterApprox
