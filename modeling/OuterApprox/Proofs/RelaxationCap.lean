import OuterApprox.Proofs.CutAccount
import OuterApprox.Proofs.Enqueueing

/-!
# The cap on relaxation cuts

An iteration takes hyperplanes from relaxation nodes as long as it has fewer of them than
the settings allow. The count is compared before hyperplanes are chosen, and all that are
chosen are handed over, so the last node that finds room may carry the count beyond the
cap, by as many hyperplanes as one selection may ask for, less one.

Three things must hold for that to be a bound. What is handed over is what waits, so nothing
may wait from before: events and preparations leave nothing behind. A selection keeps its own
cap. And the iteration whose count is compared is the one that is counted in, which is so
because a node opens no iteration. An iteration for which hyperplanes were counted at a node
was the last one then; later ones begin with none, and closing an iteration changes no count.

## Main definitions

* `Turn.rows`: The rows handed over in a turn.
* `Turn.Rowless`: Steps that hand over none and leave the books alone.
* `Iteration.Capped`: The bound.

## Theorems

* `Turn.rows_flushHyperplanes`: No more rows are handed over than hyperplanes wait.
* `Callback.rows_handle`, `Callback.room_handle`: A relaxation node hands over what one
  selection asks for, and nothing is counted without room.
* `Callback.capped_handle`: Events keep the bound, whatever they are.
* `Solver.relaxation_cuts_capped`: It holds over the life of a solver.
-/

namespace OuterApprox

variable {α σ : Type}

namespace Turn

/-- The number of rows that were handed over in a turn. -/
def rows (t : Turn α) : Nat := t.calls.countP Call.isRow

/-- Each hyperplane row that the engine took was handed over. -/
theorem length_cuts_le_rows (t : Turn α) : t.cuts.length ≤ t.rows := by
  rw [cuts, List.length_filterMap_eq_countP]
  refine List.countP_mono_left fun call _ htaken => ?_
  cases call with
  | row => rfl
  | solution | cutoff | abort => exact absurd htaken Bool.false_ne_true

theorem rows_call_le (t : Turn α) (c : Call α) : (t.call c).rows ≤ t.rows + 1 := by
  rw [rows, call, List.countP_append, List.countP_singleton]
  exact Nat.add_le_add_left (by split <;> decide) _

theorem rows_call (t : Turn α) {c : Call α} (h : c.isRow = false) : (t.call c).rows = t.rows := by
  rw [rows, call, List.countP_append, List.countP_singleton, h]
  rfl

/-- A step that hands over no row and leaves the books alone. -/
structure Rowless (t t' : Turn α) : Prop where
  /-- The books are left alone. -/
  books : Unbooked t t'
  /-- No row is handed over. -/
  rows : t'.rows = t.rows

theorem Rowless.refl (t : Turn α) : Rowless t t := ⟨.refl t, rfl⟩

theorem Rowless.trans {a b c : Turn α} (h1 : Rowless a b) (h2 : Rowless b c) : Rowless a c :=
  ⟨h1.books.trans h2.books, h2.rows.trans h1.rows⟩

variable [Scalar α]

theorem rowless_checkTermination (t : Turn α) : Rowless t t.checkTermination := by
  refine ⟨unbooked_checkTermination t, ?_⟩
  simp only [checkTermination]
  split
  · rfl
  · exact rows_call _ rfl

theorem rowless_updateDualBound (t : Turn α) (e : Event α) :
    Rowless t (t.updateDualBound e) := by
  refine ⟨unbooked_updateDualBound t e, ?_⟩
  simp only [updateDualBound]
  split
  · rfl
  · split <;> rfl

/-- A hyperplane is handed over as one row or not at all. -/
theorem rows_flushHyperplane (e : Event α) (number : Nat) (acc : Turn α × Nat)
    (h : Hyperplane α) : (flushHyperplane e number acc h).1.rows ≤ acc.1.rows + 1 := by
  simp only [flushHyperplane, submit]
  split
  · exact Nat.le_succ _
  next l _ =>
    have hcall := fun taken =>
      rows_call_le (acc.1.note (acc.1.problem.linearizeRemarks h)) (.row .hyperplane l.row taken)
    split <;> rename_i heq <;> rw [Prod.mk.injEq] at heq <;> rw [← heq.1] <;> exact hcall _

theorem rows_foldFlush (e : Event α) (number : Nat) (hs : List (Hyperplane α))
    (acc : Turn α × Nat) :
    (hs.foldl (flushHyperplane e number) acc).1.rows ≤ acc.1.rows + hs.length := by
  induction hs generalizing acc with
  | nil => exact Nat.le_refl _
  | cons h rest ih =>
      have hfirst := rows_flushHyperplane e number acc h
      have hrest := ih (flushHyperplane e number acc h)
      rw [List.foldl_cons, List.length_cons]
      omega

/-- No more rows are handed over than hyperplanes wait. -/
theorem rows_flushHyperplanes (t : Turn α) (e : Event α) :
    (t.flushHyperplanes e).1.rows ≤ t.rows + t.store.waiting.length := by
  have hfold := rows_foldFlush e t.iteration t.store.waiting
    (t.mapStore fun s => { s with waiting := [] }, 0)
  simp only [flushHyperplanes]
  split <;> exact hfold

/-- If nothing waits, cutting off the relaxation of a node hands over what one selection asks
    for. -/
theorem rows_cutRelaxation {t : Turn α} (hwaiting : t.store.waiting = []) (e : Event α)
    (values : Point α) :
    (t.cutRelaxation e values).rows ≤ t.rows + t.session.settings.dual.maxHyperplanes := by
  simp only [cutRelaxation]
  generalize hu : (t.enter .generatingCuts).requestCuts _ false = u
  have hlength : u.store.waiting.length ≤ t.session.settings.dual.maxHyperplanes := by
    rw [← hu]
    simp only [requestCuts, mapStore, store, CutStore.request, note, mapSession, enter]
    rw [show t.callback.store.waiting = [] from hwaiting, List.nil_append]
    exact (Session.fillSelected_eq _ false _ _ _ []).2
  have hrows : u.rows = t.rows := hu ▸ rfl
  calc
    _ = (u.flushHyperplanes e).1.rows := rfl
    _ ≤ u.rows + u.store.waiting.length := rows_flushHyperplanes u e
    _ ≤ t.rows + t.session.settings.dual.maxHyperplanes :=
      Nat.add_le_add (Nat.le_of_eq hrows) hlength

/-- A relaxation node hands over what one selection asks for, and leaves the iterations alone
    without room in the last one. -/
theorem relaxationNode_capped {t : Turn α} (hwaiting : t.store.waiting = []) (e : Event α) :
    (t.relaxationNode e).rows ≤ t.rows + t.session.settings.dual.maxHyperplanes ∧
      (t.hasRelaxationRoom = true ∨
        (t.relaxationNode e).session.iterations = t.session.iterations) := by
  have hkept : t.rows ≤ t.rows + t.session.settings.dual.maxHyperplanes := Nat.le_add_right _ _
  simp only [relaxationNode]
  split
  · exact ⟨hkept, .inr rfl⟩
  · exact ⟨hkept, .inr rfl⟩
  · split
    · exact ⟨hkept, .inr rfl⟩
    -- There was room, so at most one selection is added.
    next hroom =>
      have hroom : t.hasRelaxationRoom = true := by simpa using hroom
      refine ⟨?_, .inl hroom⟩
      split
      · exact hkept
      · split
        · exact rows_cutRelaxation hwaiting e _
        · exact hkept

omit [Scalar α] in
theorem Rowless.room {t t' : Turn α} (h : Rowless t t') :
    t'.hasRelaxationRoom = t.hasRelaxationRoom := by
  rw [hasRelaxationRoom, h.books.iterations, h.books.settings, hasRelaxationRoom]

/-- So does handling the event as a whole. -/
theorem active_capped {t : Turn α} (hwaiting : t.store.waiting = []) {e : Event α}
    (hreason : e.reason = .relaxationNode) :
    (t.active e).rows ≤ t.rows + t.session.settings.dual.maxHyperplanes ∧
      (t.hasRelaxationRoom = true ∨ (t.active e).session.iterations = t.session.iterations) := by
  have henter : ∀ (u : Turn α) (phase : Phase), Rowless u (u.enter phase) :=
    fun u phase => ⟨⟨rfl, rfl, rfl, rfl, rfl⟩, rfl⟩
  -- What comes before the node is handled, and what comes after it, hands over no row.
  have hopen := (henter t .evaluatingNode).trans (rowless_checkTermination _)
  have hlast : ∀ u : Turn α, Rowless u
      ((if u.callback.aborted then u else u.checkTermination).enter .idle) := by
    intro u
    split
    · exact henter _ _
    · exact (rowless_checkTermination u).trans (henter _ _)
  simp only [active]
  split
  · have hend := hopen.trans (henter _ .idle)
    exact ⟨hend.rows ▸ Nat.le_add_right _ _, .inr hend.books.iterations⟩
  · have hread := hopen.trans (rowless_updateDualBound _ e)
    generalize (t.enter .evaluatingNode).checkTermination.updateDualBound e = u at hread ⊢
    have hdispatch : u.dispatch e = u.relaxationNode e := by simp only [dispatch, hreason]
    obtain ⟨hrows, hroom⟩ := relaxationNode_capped (hread.books.waiting.trans hwaiting) e
    have hend := hlast (u.dispatch e)
    rw [hend.rows, hend.books.iterations, hdispatch]
    rw [hread.rows, hread.books.settings] at hrows
    rw [hread.room, hread.books.iterations] at hroom
    exact ⟨hrows, hroom⟩

end Turn

namespace Callback

variable [Scalar α]

/-- An event for a relaxation node hands over what one selection asks for, if nothing waits, and
    leaves the iterations alone without room in the last one. -/
theorem handle_capped {c : Callback α} (hwaiting : c.store.waiting = []) {e : Event α}
    (hreason : e.reason = .relaxationNode) :
    (c.handle e).rows ≤ c.session.settings.dual.maxHyperplanes ∧
      ((⟨c, []⟩ : Turn α).hasRelaxationRoom = true ∨
        (c.handle e).session.iterations = c.session.iterations) := by
  have hpassive : e.reason.isPassive = false := by rw [hreason]; rfl
  cases haborted : c.aborted with
  | true =>
      rw [handle_of_aborted haborted, hpassive]
      exact ⟨Nat.zero_le _, .inr rfl⟩
  | false =>
      have hactive := Turn.active_capped (t := ⟨c.counted, []⟩) hwaiting hreason
      rw [handle, hpassive, haborted]
      rw [show (⟨c.counted, []⟩ : Turn α).rows = 0 from rfl, Nat.zero_add] at hactive
      exact hactive

end Callback

/-! ## The bound -/

/-- No more hyperplanes were counted at relaxation nodes than the cap and one selection
    allow. -/
structure Iteration.Capped (d : DualSettings α) (it : Iteration α) : Prop where
  /-- With a cap of zero none is counted. -/
  closed : d.maxRelaxationCuts = 0 → it.relaxed = 0
  /-- Otherwise the last selection may go over the cap, by less than one selection. -/
  opened : 0 < d.maxRelaxationCuts → it.relaxed ≤ d.maxRelaxationCuts - 1 + d.maxHyperplanes

namespace Iteration

theorem Capped.of_eq {d : DualSettings α} {it it' : Iteration α} (h : it.Capped d)
    (hrelaxed : it'.relaxed = it.relaxed) : it'.Capped d :=
  ⟨fun hzero => hrelaxed.trans (h.closed hzero), fun hpos => hrelaxed ▸ h.opened hpos⟩

theorem capped_of_relaxed_eq_zero {d : DualSettings α} {it : Iteration α}
    (hrelaxed : it.relaxed = 0) : it.Capped d :=
  ⟨fun _ => hrelaxed, fun _ => hrelaxed ▸ Nat.zero_le _⟩

/-- An iteration with room stays within the bound when one selection is counted. -/
theorem capped_relaxedBy {d : DualSettings α} {it : Iteration α} {n : Nat}
    (hroom : it.relaxed < d.maxRelaxationCuts) (hn : n ≤ d.maxHyperplanes) :
    (it.relaxedBy n).Capped d := by
  have hrelaxed : (it.relaxedBy n).relaxed = it.relaxed + n := rfl
  exact ⟨fun hzero => by omega, fun hpos => by omega⟩

end Iteration

namespace IterationLedger

/-- What holds of all iterations still does after a change of the last one that keeps it. -/
theorem forall_modifyLast {P : Iteration α → Prop} {l : IterationLedger α}
    {f : Iteration α → Iteration α} (h : ∀ it ∈ l.iterations, P it)
    (hf : ∀ it, l.last? = some it → P it → P (f it)) :
    ∀ it ∈ (l.modifyLast f).iterations, P it := by
  obtain ⟨n, rfl⟩ | ⟨init, last, n, rfl⟩ := l.empty_or_append
  · exact h
  · rw [modifyLast_append]
    obtain ⟨hinit, hlast⟩ := List.forall_mem_append.1 h
    refine List.forall_mem_append.2 ⟨hinit, List.forall_mem_singleton.2 ?_⟩
    exact hf last (last?_append init last n) (List.forall_mem_singleton.1 hlast)

theorem forall_closeLast {P : Iteration α → Prop} {l : IterationLedger α}
    (h : ∀ it ∈ l.iterations, P it) (hP : ∀ it, P it → P { it with closed := true }) :
    ∀ it ∈ l.closeLast.iterations, P it := by
  unfold closeLast
  split
  · exact forall_modifyLast h fun it _ => hP it
  · exact h

theorem forall_ensured [Scalar α] {P : Iteration α → Prop} {l : IterationLedger α}
    (h : ∀ it ∈ l.iterations, P it) (hnew : ∀ number milp total, P (.opened number milp total)) :
    ∀ it ∈ l.ensured.iterations, P it := by
  obtain ⟨-, hopened⟩ | ⟨_, _, _, -, -, hkept⟩ := l.ensured_cases
  · rw [hopened]
    exact List.forall_mem_append.2 ⟨h, List.forall_mem_singleton.2 (hnew _ _ _)⟩
  · rw [hkept]
    exact h

end IterationLedger

/-- The settings are as given, nothing waits, and all iterations are within the bound. -/
structure Session.Capped (given : Settings α) (s : Session α) (st : CutStore α) : Prop where
  /-- The settings are the ones given. -/
  settings : s.settings = given
  /-- No hyperplane waits. -/
  waiting : st.waiting = []
  /-- Every iteration is within the bound. -/
  iterations : ∀ it ∈ s.iterations.iterations, it.Capped given.dual

variable [Scalar α] {given : Settings α}

namespace Callback

/-- Every event keeps the bound. -/
theorem capped_handle (c : Callback α) (e : Event α) (h : c.session.Capped given c.store) :
    (c.handle e).session.Capped given (c.handle e).store := by
  have hbooks := c.books_handle e
  -- An iteration that is opened for an integer solution begins without any.
  have hensured := IterationLedger.forall_ensured h.iterations fun _ _ _ =>
    Iteration.capped_of_relaxed_eq_zero rfl
  refine ⟨(c.steps_handle e).settings.trans h.settings, hbooks.waiting_eq_nil h.waiting, ?_⟩
  cases hbooks with
  | kept hkept =>
      rw [hkept.iterations]
      exact h.iterations
  | relaxed n hreason hiterations hentered hwaiting =>
      obtain ⟨hrows, hroom | hsame⟩ := handle_capped h.waiting hreason
      · rw [hiterations]
        refine IterationLedger.forall_modifyLast h.iterations fun it hlast _ => ?_
        have hlast : c.session.iterations.last? = some it := hlast
        -- The iteration that is counted in is the one whose count was compared.
        simp only [Turn.hasRelaxationRoom, Turn.session, hlast, Option.elim_some, h.settings,
          decide_eq_true_eq] at hroom
        have hcount : (c.handle e).cuts.length = n := by
          rw [hentered.cuts, Turn.cuts, List.filterMap_nil, List.length_nil, Nat.zero_add]
        refine Iteration.capped_relaxedBy hroom ?_
        rw [← hcount, ← h.settings]
        exact (Turn.length_cuts_le_rows _).trans hrows
      · rw [hsame]
        exact h.iterations
  | opened hreason hiterations =>
      rw [hiterations]
      exact hensured
  | closed n change hcounted hreason hroom hiterations =>
      rw [hiterations]
      refine IterationLedger.forall_closeLast ?_ fun _ hit => hit.of_eq rfl
      exact IterationLedger.forall_modifyLast hensured fun it _ hit =>
        hit.of_eq (hcounted it).relaxed

theorem capped_invariant (given : Settings α) :
    Callback.Invariant (fun _ => True) fun s st => Session.Capped given s st where
  event c e _ h := c.capped_handle e h
  statistics _ _ _ h := ⟨h.settings, h.waiting, h.iterations⟩
  note _ _ _ h := ⟨h.settings, h.waiting, h.iterations⟩
  dual _ _ _ h := ⟨h.settings, h.waiting, h.iterations⟩
  repaired _ _ h := ⟨h.settings, h.waiting,
    IterationLedger.forall_modifyLast h.iterations fun _ _ hit => hit.of_eq rfl⟩

end Callback

theorem Master.waiting_addWaitingRows (E : Engine α σ) (m : Master α σ) :
    (m.addWaitingRows E).1.store.waiting = [] := by
  obtain ⟨_, hstore⟩ := m.store_addWaitingRows E
  rw [hstore]

namespace Solver

variable {E : Engine α σ} {s : Solver α σ}

/-- Preparations keep the bound. Hyperplanes that are added as rows are counted, but not as
    added at a relaxation node. -/
theorem capped_prepare (h : s.master.session.Capped given s.master.store)
    (preparation : Preparation α) :
    (s.prepare E preparation).master.session.Capped given
      (s.prepare E preparation).master.store := by
  obtain ⟨hs, rfl⟩ | ⟨hkept, -⟩ := s.prepare_cases (E := E) preparation
  · obtain ⟨-, hsettings, hiterations⟩ :=
      Master.entered_addWaitingRows E (s.mapStore (·.request hs)).master
    refine ⟨hsettings.trans h.settings, Master.waiting_addWaitingRows E _, ?_⟩
    rw [show (s.prepare E (.hyperplanes hs)).master.session.iterations = _ from hiterations]
    exact IterationLedger.forall_modifyLast h.iterations fun _ _ hit => hit.of_eq rfl
  · refine ⟨hkept.settings.trans h.settings, hkept.waiting.trans h.waiting, ?_⟩
    rw [hkept.iterations]
    exact h.iterations

/-- A solve begins within the bound. -/
theorem capped_freshSession (h : s.master.session.Capped given s.master.store) :
    s.freshSession.Capped given s.master.store := by
  refine ⟨h.settings, h.waiting, ?_⟩
  exact List.forall_mem_singleton.2 (Iteration.capped_of_relaxed_eq_zero rfl)

theorem capped_perform (h : s.master.session.Capped given s.master.store) (deed : Deed α) :
    (s.perform E deed).master.session.Capped given (s.perform E deed).master.store := by
  cases deed with
  | prepare preparation => exact capped_prepare h preparation
  | solve =>
      cases hvalid : s.master.session.settings.validate with
      | error e =>
          rw [show s.perform E .solve = s by simp only [perform, solve, hvalid]]
          exact h
      | ok u =>
          exact (invariant_solve (τ := []) ((Callback.capped_invariant given).master E) s hvalid
            (fun _ _ => trivial) (capped_freshSession h)).2

theorem capped_performAll (h : s.master.session.Capped given s.master.store)
    (deeds : List (Deed α)) :
    (s.performAll E deeds).master.session.Capped given (s.performAll E deeds).master.store := by
  induction deeds generalizing s with
  | nil => exact h
  | cons deed rest ih => exact ih (capped_perform h deed)

/-- Over the life of a solver, whatever is done with it and whatever events its engine reports:
    in every state of the session, at rest or in a solve, no iteration has taken hyperplanes from
    relaxation nodes if the cap is zero, and otherwise no more than the cap, less one, and as many
    as one selection may ask for; and an event for a relaxation node hands over no more rows than
    one selection may ask for. -/
theorem relaxation_cuts_capped {p : Problem α} {engine : σ} {clock : Clock}
    (hcreate : create E p given engine clock = .ok s) (deeds : List (Deed α)) :
    let s' := s.performAll E deeds
    (∀ session ∈ s'.master.session :: s'.sessions E, ∀ it ∈ session.iterations.iterations,
      (given.dual.maxRelaxationCuts = 0 → it.relaxed = 0) ∧
      (0 < given.dual.maxRelaxationCuts →
        it.relaxed ≤ given.dual.maxRelaxationCuts - 1 + given.dual.maxHyperplanes)) ∧
    (∀ step ∈ s'.trace E, step.2.reason = .relaxationNode →
      (step.1.handle step.2).calls.countP Call.isRow ≤ given.dual.maxHyperplanes) := by
  intro s'
  have hcreated : s.master.session.Capped given s.master.store := by
    obtain ⟨-, rfl⟩ := create_eq_ok hcreate
    exact ⟨rfl, rfl, List.forall_mem_nil _⟩
  have hcapped : s'.master.session.Capped given s'.master.store :=
    capped_performAll hcreated deeds
  have hfresh := capped_freshSession hcapped
  refine ⟨fun session hsession it hit => ?_, fun step hstep hreason => ?_⟩
  · obtain ⟨st, hst⟩ : ∃ st, session.Capped given st := by
      rcases List.mem_cons.1 hsession with rfl | hsolve
      · exact ⟨_, hcapped⟩
      · exact (Callback.capped_invariant given).sessions s' (fun _ _ => trivial) hfresh _ hsolve
    exact ⟨(hst.iterations it hit).closed, (hst.iterations it hit).opened⟩
  -- A step of the next solve starts from a callback that is within the bound as well.
  · have hvalid : s'.master.session.settings.validate = .ok () := by
      rw [hcapped.settings]
      exact (create_eq_ok hcreate).1
    have hstate := (Callback.capped_invariant given).solveTrace s' hvalid (fun _ _ => trivial)
      hfresh step hstep
    have hrows := (step.1.handle_capped hstate.waiting hreason).1
    rw [hstate.settings] at hrows
    exact hrows

end Solver

namespace RepeatedNode

/-- Room for two hyperplanes from relaxation nodes, and one hyperplane a selection. -/
def settings : Settings Float :=
  let base : Settings Float := Settings.withCuttingPlanes.withMaxHyperplanes 1
  { base with dual := { base.dual with maxRelaxationCuts := 2 } }

/-- An engine that reports the same relaxation of a node three times, which is too large in one
    variable. -/
def engine : Engine Float (Tabular Float) :=
  let node : Event Float :=
    { Event.blank .relaxationNode with optimal := .ok true, relaxation := .ok [2.0, 0.0] }
  scriptedEngine
    [{ events := [node, node, node]
       status := .ok .optimal
       finalBound := .error (.notAvailable "final_bound")
       ignoreAbort := false }]
    (.error (.notAvailable "elastic"))

def tables : Tabular Float := .fresh [(0.0, 4.0), (0.0, 4.0)] [] {}

def solver : Solver Float (Tabular Float) where
  master := .start
    { problem := LateRelaxation.problem
      settings
      bounds := .fresh .minimize settings.termination
      iterations := .empty
      statistics := {}
      clock := .still ⟨0⟩
      journal := #[] } tables .cuttingPlane
  initialHyperplanes := 0
  initialIntegerCuts := 0

/-- Two nodes take the count to the bound, and the third one finds no room. -/
theorem relaxation_cuts_capped_repeatedNode :
    let session := (solver.performAll engine [.solve]).master.session
    session.iterations.iterations.map (·.relaxed) = [2] ∧
      (∀ it ∈ session.iterations.iterations, it.relaxed ≤ 2 - 1 + 1) ∧
      (solver.trace engine).map (fun step =>
        (step.1.handle step.2).calls.countP Call.isRow) = [1, 1, 0] ∧
      ∀ step ∈ solver.trace engine, step.2.reason = .relaxationNode →
        (step.1.handle step.2).calls.countP Call.isRow ≤ 1 := by
  intro session
  have hvalid : settings.validate = .ok () :=
    (Settings.validate_eq_ok_iff _).2 (List.all_eq_true.1 (by decide +kernel))
  have hcreate : Solver.create engine LateRelaxation.problem settings tables (.still ⟨0⟩) =
      .ok solver := by
    simp only [Solver.create, Session.start, hvalid]
    rfl
  -- The same theorem before and after the solve.
  obtain ⟨hbound, -⟩ := Solver.relaxation_cuts_capped hcreate [.solve]
  obtain ⟨-, hrows⟩ := Solver.relaxation_cuts_capped hcreate []
  refine ⟨by decide +kernel, fun it hit => ?_, by decide +kernel, hrows⟩
  exact (hbound session List.mem_cons_self it hit).2 Nat.two_pos

end RepeatedNode

end OuterApprox
