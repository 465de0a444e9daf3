import OuterApprox.Proofs.Bookkeeping
import OuterApprox.Proofs.Lasting
import Mathlib.Data.List.Forall2

/-!
# Tallies

Two things are tallied in a session beside bounds and hyperplanes. Nodes are read from the
engine in one kind of event and recorded in another, once in the counters and once, as the
difference, in an iteration. No-good cuts are queued from outside or by the local solver,
wait, and are handed over and counted in the event of an integer solution. What the two have
in common is where they stand: in the few functions of `Turn.cutOff` that follow the
hyperplanes, behind several places where that function is left early.

So the two are taken together. The tally of a turn holds what they consist of, and nearly
every step keeps it as a whole, which is an equation and mostly true by definition. What is
left are five things that can come of an event. Only the last of them records nodes and
closes an iteration, and only the last asks the local solver and hands over no-good cuts; it
does all of that or nothing.

## Main definitions

* `Tally`, `Turn.tally`: What is tallied.
* `Event.read?`, `Callback.read?`: The nodes that are read in an event.
* `Tally.tried`: A candidate was offered to the local solver.
* `Tally.Flushed`, `Tally.Settled`: No-good cuts were handed over, and so they were if the
  settings say so.
* `Tally.Handles`: What comes of an event.

## Theorems

* `Turn.tally_injectIncumbent`, `Turn.tally_searchPrimal` and so on: Steps that keep the tally.
* `Turn.flushed_flushIntegerCuts`: Handing over no-good cuts.
* `Tally.Settled.iterations_closed`: What the end of such an event leaves of the iterations.
* `Turn.handles_considerSolution`: An integer solution.
* `Callback.handles`: Every event does one of the five things.
-/

namespace OuterApprox

variable {α : Type}

/-- The row of a call, if it is a no-good cut, and whether the engine took it. -/
def Call.noGood? : Call α → Option (Row α × Bool)
  | .row .noGood r taken => some (r, taken)
  | _ => none

/-- What is tallied beside bounds and hyperplanes, with what it depends on. -/
structure Tally (α : Type) where
  /-- The problem. -/
  problem : Problem α
  /-- The settings. -/
  settings : Settings α
  /-- The iterations. -/
  iterations : IterationLedger α
  /-- Nodes explored, as last read. -/
  read : Nat
  /-- Nodes explored, as last recorded. -/
  recorded : Nat
  /-- The local solver and what was tried. -/
  trials : FixedIntegerQueue α
  /-- No-good cuts that wait. -/
  queue : List (List Nat)
  /-- The number of no-good cuts that were added. -/
  counted : Nat
  /-- No-good cuts that were handed over, each with whether the engine took it. -/
  handed : List (Row α × Bool)

/-- The tally of a turn. -/
def Turn.tally (t : Turn α) : Tally α where
  problem := t.problem
  settings := t.session.settings
  iterations := t.session.iterations
  read := t.callback.explored
  recorded := t.session.statistics.explored
  trials := t.store.fixedInteger
  queue := t.store.integerCuts
  counted := t.session.statistics.integerCuts
  handed := t.calls.filterMap Call.noGood?

/-- The tally before an event. -/
def Callback.tally (c : Callback α) : Tally α := (⟨c, []⟩ : Turn α).tally

/-- The nodes that an event reports, if it is one in which they are read. -/
def Event.read? (e : Event α) : Option Nat :=
  if e.reason = .progress then e.explored.toOption else none

/-- The nodes that are read in an event. Nothing is, once the search should stop. -/
def Callback.read? [Scalar α] (c : Callback α) (e : Event α) : Option Nat :=
  if c.aborted || c.session.stopReason?.isSome then none else e.read?

namespace Tally

variable [Scalar α]

/-- The tally after a candidate was offered to the local solver. A dead end is queued. -/
def tried (a : Tally α) (c : Candidate α) : Tally α :=
  let rule := a.settings.primal.fixedInteger
  if a.trials.wants rule a.problem c then
    { a with
      trials := (a.trials.enrol rule a.problem c).afterAsking
      queue := a.queue ++ (a.trials.outcome a.problem c).noGood?.toList }
  else { a with trials := a.trials.enrol rule a.problem c }

/-- Rows that were handed over are those of cuts, one for each cut that has one, in order. -/
def RowsOf (n : Nat) (cuts : List (List Nat)) (rows : List (Row α × Bool)) : Prop :=
  List.Forall₂ (fun indices row => noGoodRow n indices = some row.1)
    (cuts.filter fun indices => (noGoodRow n indices : Option (Row α)).isSome) rows

theorem RowsOf.append {n : Nat} {cuts cuts' : List (List Nat)} {rows rows' : List (Row α × Bool)}
    (h : RowsOf n cuts rows) (h' : RowsOf n cuts' rows') :
    RowsOf n (cuts ++ cuts') (rows ++ rows') := by
  unfold RowsOf
  rw [List.filter_append]
  exact List.rel_append h h'

/-- Everything in the queue was handed over, and what the engine took was counted. -/
structure Flushed (a b : Tally α) (rows : List (Row α × Bool)) : Prop where
  /-- The queue is empty, and the rest is as before but for the rows and their count. -/
  result : b = { a with
    queue := []
    counted := a.counted + rows.countP (·.2)
    handed := a.handed ++ rows }
  /-- A row for every queued assignment, in order. -/
  rows : RowsOf a.problem.dimension a.queue rows

/-- No-good cuts were handed over if they are to be. -/
def Settled (a b : Tally α) : Prop :=
  if a.settings.dual.useIntegerCuts then ∃ rows, a.Flushed b rows else b = a

/-- Trials and the queue are all that it changes. -/
theorem tried_eq (a : Tally α) (c : Candidate α) :
    a.tried c = { a with trials := (a.tried c).trials, queue := (a.tried c).queue } := by
  unfold tried
  dsimp only
  split <;> rfl

/-- The queue and what was handed over are all that this changes. -/
theorem Settled.eq {a b : Tally α} (h : a.Settled b) :
    b = { a with queue := b.queue, counted := b.counted, handed := b.handed } := by
  unfold Settled at h
  split at h
  · obtain ⟨rows, hflushed⟩ := h
    rw [hflushed.result]
  · rw [h]

/-- The local solver and the no-good cuts leave nodes and iterations as they are. -/
theorem Settled.of_tried {a b : Tally α} {c : Candidate α} (h : (a.tried c).Settled b) :
    b.iterations = a.iterations ∧ b.read = a.read ∧ b.recorded = a.recorded := by
  rw [h.eq, tried_eq]
  exact ⟨rfl, rfl, rfl⟩

/-- So the iterations at the end are those in which a solution was recorded, the last one
    closed. -/
theorem Settled.iterations_closed {a recorded m b : Tally α} {c : Candidate α}
    {iterations : IterationLedger α} (hrecorded : recorded = { a with
      iterations
      recorded := a.read })
    (hsettled : (recorded.tried c).Settled m)
    (h : b = { m with iterations := m.iterations.closeLast }) :
    b.iterations = iterations.closeLast := by
  rw [h, hsettled.of_tried.1, hrecorded]

/-- What comes of an event in which nodes were read or not. -/
inductive Handles (e : Event α) (read? : Option Nat) (a b : Tally α) : Prop
  /-- Nothing. -/
  | kept (hread : read? = none) (h : b = a)
  /-- Nodes are read. -/
  | read (n : Nat) (hread : read? = some n) (h : b = { a with read := n })
  /-- Hyperplanes for a node relaxation are counted. -/
  | relaxed (n : Nat) (hread : read? = none)
      (h : b = { a with iterations := a.iterations.modifyLast (·.relaxedBy n) })
  /-- An iteration is open for an integer solution. -/
  | opened (hread : read? = none) (h : b = { a with iterations := a.iterations.ensured })
  /-- An integer solution is recorded in that iteration, with the nodes since the last time.
      Then the local solver and the no-good cuts have their turn, and the iteration is
      closed. -/
  | closed (x : Point α) (change : Iteration α → Iteration α) (recorded m : Tally α)
      (hread : read? = none) (hvalues : e.values = .ok x)
      (hchange : ∀ it, (change it).closed = it.closed ∧ (change it).explored = a.read - a.recorded)
      (hrecorded : recorded = { a with
        iterations := a.iterations.ensured.modifyLast change
        recorded := a.read })
      (hsettled : (recorded.tried
        (a.problem.candidate x a.iterations.ensured.lastNumber)).Settled m)
      (h : b = { m with iterations := m.iterations.closeLast })

end Tally

namespace Turn

/-! ## Steps that keep the tally -/

theorem tally_call (t : Turn α) {c : Call α} (h : c.noGood? = none) :
    (t.call c).tally = t.tally := by
  have hcalls : (t.calls ++ [c]).filterMap Call.noGood? = t.calls.filterMap Call.noGood? := by
    rw [List.filterMap_append, List.filterMap_cons_none h, List.filterMap_nil, List.append_nil]
  exact congrArg (fun handed => { t.tally with handed }) hcalls

theorem tally_submitIncumbent (t : Turn α) (e : Event α) (primal : α) :
    (t.submitIncumbent e primal).tally = t.tally := by
  simp only [submitIncumbent]
  split
  · rfl
  · split <;> exact tally_call t rfl

/-- Recording a candidate takes the nodes that were read since the last time. -/
theorem tally_recordIteration (t : Turn α) (objective : α) (c : Candidate α) :
    ∃ record : Iteration α → Iteration α,
      (∀ it, (record it).closed = it.closed ∧
        (record it).explored = t.callback.explored - t.session.statistics.explored) ∧
      (t.recordIteration objective c).tally = { t.tally with
        iterations := t.session.iterations.modifyLast record
        recorded := t.callback.explored } := by
  refine ⟨_, ?_, rfl⟩
  exact fun it => ⟨rfl, rfl⟩

variable [Scalar α]

theorem tally_checkTermination (t : Turn α) : t.checkTermination.tally = t.tally := by
  simp only [checkTermination]
  split
  · rfl
  · exact tally_call t rfl

theorem tally_updateDualBound (t : Turn α) (e : Event α) :
    (t.updateDualBound e).tally = t.tally := by
  simp only [updateDualBound]
  split
  · rfl
  · split <;> rfl

theorem tally_offerSolution (t : Turn α) (objective : α) (c : Candidate α) :
    (t.offerSolution objective c).tally = t.tally := by
  simp only [offerSolution]
  split <;> rfl

theorem tally_requested (t : Turn α) (c : Candidate α) : (t.requested c).tally = t.tally := by
  simp only [requested, refined, refineInterior]
  split <;> rfl

theorem tally_searchPrimal (t : Turn α) (c : Candidate α) :
    (t.searchPrimal c).tally = t.tally := by
  simp only [searchPrimal]
  split
  · rfl
  · split
    · rfl
    · split <;> rfl

theorem tally_injectIncumbent (t : Turn α) (e : Event α) :
    (t.injectIncumbent e).tally = t.tally := by
  simp only [injectIncumbent, submitCutoff]
  split
  · rfl
  · split <;> exact (tally_call _ rfl).trans (tally_submitIncumbent t e _)

/-- A row for a hyperplane is no no-good cut. -/
theorem tally_flushHyperplane (e : Event α) (number : Nat) (acc : Turn α × Nat)
    (h : Hyperplane α) : (flushHyperplane e number acc h).1.tally = acc.1.tally := by
  simp only [flushHyperplane, submit]
  split
  · rfl
  · split <;> rename_i heq <;> rw [Prod.mk.injEq] at heq <;> rw [← heq.1] <;>
      exact tally_call acc.1 rfl

/-! ## Steps that do not -/

/-- Hyperplanes are counted in the last iteration. -/
theorem tally_flushHyperplanes (t : Turn α) (e : Event α) :
    (t.flushHyperplanes e).1.tally = { t.tally with
      iterations := t.session.iterations.modifyLast
        (·.addHyperplanes (t.flushHyperplanes e).2) } := by
  -- Handing over hyperplanes is nothing that the tally shows, one by one.
  have hfold : (t.store.waiting.foldl (flushHyperplane e t.iteration)
      (t.mapStore fun s => { s with waiting := [] }, 0)).1.tally = t.tally :=
    List.foldlRecOn _ _ (motive := fun acc => (Prod.fst acc).tally = t.tally) rfl
      fun acc hacc h _ => (tally_flushHyperplane e _ acc h).trans hacc
  simp only [flushHyperplanes]
  generalize t.store.waiting.foldl _ _ = acc at hfold ⊢
  split
  · refine hfold.trans (congrArg (fun iterations => { t.tally with iterations }) ?_)
    exact t.session.iterations.modifyLast_id.symm
  · exact congrArg (fun a : Tally α =>
      { a with iterations := a.iterations.modifyLast (·.addHyperplanes acc.2) }) hfold

theorem tally_ensureIteration (t : Turn α) :
    t.ensureIteration.tally = { t.tally with iterations := t.session.iterations.ensured } := by
  unfold ensureIteration IterationLedger.ensured
  split <;> rfl

theorem tally_cutRelaxation (t : Turn α) (e : Event α) (values : Point α) :
    ∃ n, (t.cutRelaxation e values).tally = { t.tally with
      iterations := t.session.iterations.modifyLast (·.relaxedBy n) } := by
  simp only [cutRelaxation]
  generalize hu : (t.enter .generatingCuts).requestCuts _ false = u
  have hkept : u.tally = t.tally := hu ▸ rfl
  have hflushed := tally_flushHyperplanes u e
  refine ⟨(u.flushHyperplanes e).2, ?_⟩
  -- The hyperplanes are counted first, and then once more as relaxed ones.
  calc
    _ = { (u.flushHyperplanes e).1.tally with
          iterations := (u.flushHyperplanes e).1.tally.iterations.modifyLast fun it =>
            { it with relaxed := it.relaxed + (u.flushHyperplanes e).2 } } := rfl
    _ = { u.tally with
          iterations := u.tally.iterations.modifyLast (·.relaxedBy (u.flushHyperplanes e).2) } := by
      rw [hflushed]
      exact congrArg (fun iterations => { u.tally with iterations })
        (IterationLedger.modifyLast_modifyLast _ _ _)
    _ = _ := by rw [hkept]; rfl

theorem tally_fixIntegers (t : Turn α) (c : Candidate α) :
    (t.fixIntegers c).tally = t.tally.tried c := by
  have htried : t.tally.tried c =
      if t.store.fixedInteger.wants t.session.settings.primal.fixedInteger t.problem c then
        { t.tally with
          trials := (t.store.fixedInteger.enrol t.session.settings.primal.fixedInteger
            t.problem c).afterAsking
          queue := t.store.integerCuts ++
            (t.store.fixedInteger.outcome t.problem c).noGood?.toList }
      else
        { t.tally with
          trials := t.store.fixedInteger.enrol t.session.settings.primal.fixedInteger
            t.problem c } := rfl
  -- The question put to the solver does not depend on whether the candidate was remembered.
  have hsame : (t.store.fixedInteger.enrol t.session.settings.primal.fixedInteger t.problem
      c).outcome t.problem c = t.store.fixedInteger.outcome t.problem c := by
    unfold FixedIntegerQueue.enrol
    split <;> rfl
  simp only [htried, fixIntegers, hsame, Bool.not_eq_true']
  cases t.store.fixedInteger.wants t.session.settings.primal.fixedInteger t.problem c with
  | false =>
      simp only [if_true, Bool.false_eq_true, if_false]
      rfl
  -- It is asked; only a dead end leaves something behind, a cut in the queue.
  | true =>
      simp only [Bool.true_eq_false, if_false, if_true]
      generalize t.store.fixedInteger.outcome t.problem c = outcome
      cases outcome with
      | noGood indices => rfl
      | nothing | wrongDimension | solution =>
          simp only [FixedIntegerOutcome.noGood?, Option.toList_none, List.append_nil]
          rfl

/-- One no-good cut: its row is handed over, if it has one, and counted if it is taken. -/
theorem tally_flushIntegerCut (e : Event α) (acc : Turn α × Nat) (indices : List Nat) :
    ∃ rows, Tally.RowsOf acc.1.problem.dimension [indices] rows ∧
      (flushIntegerCut e acc indices).1.tally =
        { acc.1.tally with handed := acc.1.tally.handed ++ rows } ∧
      (flushIntegerCut e acc indices).2 = acc.2 + rows.countP (·.2) := by
  simp only [flushIntegerCut, Tally.RowsOf]
  cases hrow : (noGoodRow acc.1.problem.dimension indices : Option (Row α)) with
  -- An assignment that makes no row is not handed over.
  | none =>
      refine ⟨[], ?_, ?_, rfl⟩
      · rw [List.filter_cons_of_neg (by rw [hrow]; exact Bool.false_ne_true)]
        exact .nil
      · exact congrArg (fun handed => { acc.1.tally with handed }) (List.append_nil _).symm
  | some row =>
      have hcalls : ∀ taken, (acc.1.calls ++ [Call.row .noGood row taken]).filterMap Call.noGood? =
          acc.1.tally.handed ++ [(row, taken)] := by
        intro taken
        rw [List.filterMap_append]
        rfl
      simp only [submit]
      -- Whether the engine takes the row is written down beside it.
      generalize hanswer : e.onRow (List.countP Call.isRow acc.1.calls) row = answer
      refine ⟨[(row, answer.taken)], ?_, ?_, ?_⟩
      · rw [List.filter_cons_of_pos (by rw [hrow]; rfl)]
        exact .cons hrow .nil
      · cases answer <;> exact congrArg (fun handed => { acc.1.tally with handed }) (hcalls _)
      · cases answer <;> rfl

theorem tally_foldFlushCut (e : Event α) (cuts : List (List Nat)) (acc : Turn α × Nat) :
    ∃ rows, Tally.RowsOf acc.1.problem.dimension cuts rows ∧
      (cuts.foldl (flushIntegerCut e) acc).1.tally =
        { acc.1.tally with handed := acc.1.tally.handed ++ rows } ∧
      (cuts.foldl (flushIntegerCut e) acc).2 = acc.2 + rows.countP (·.2) := by
  -- The rows are those of the first cut and then those of the rest.
  induction cuts generalizing acc with
  | nil =>
      refine ⟨[], .nil, ?_, rfl⟩
      exact congrArg (fun handed => { acc.1.tally with handed }) (List.append_nil _).symm
  | cons indices rest ih =>
      obtain ⟨first, hfirst, htally, hcount⟩ := tally_flushIntegerCut e acc indices
      obtain ⟨others, hothers, htally', hcount'⟩ := ih (flushIntegerCut e acc indices)
      have hproblem : (flushIntegerCut e acc indices).1.problem = acc.1.problem :=
        congrArg Tally.problem htally
      rw [hproblem] at hothers
      refine ⟨first ++ others, hfirst.append hothers, ?_, ?_⟩
      · rw [List.foldl_cons, htally', htally, List.append_assoc]
      · rw [List.foldl_cons, hcount', hcount, List.countP_append, Nat.add_assoc]

theorem flushed_flushIntegerCuts (t : Turn α) (e : Event α) :
    ∃ rows, t.tally.Flushed (t.flushIntegerCuts e).tally rows := by
  simp only [flushIntegerCuts]
  split
  -- An empty queue gives no rows.
  next hempty =>
    have hqueue : t.tally.queue = [] := List.isEmpty_iff.1 hempty
    refine ⟨[], ?_, ?_⟩
    · rw [List.append_nil, ← hqueue]
      rfl
    · rw [hqueue]
      exact .nil
  · obtain ⟨rows, hrows, htally, hcount⟩ := tally_foldFlushCut e t.store.integerCuts
      (t.mapStore fun s => { s with integerCuts := [] }, 0)
    refine ⟨rows, ?_, hrows⟩
    rw [Nat.zero_add] at hcount
    rw [hcount]
    exact congrArg (fun a : Tally α =>
      { a with counted := a.counted + rows.countP Prod.snd }) htally

theorem tally_settled (t : Turn α) (e : Event α) (c : Candidate α) :
    (t.tally.tried c).Settled (t.settled e c).tally := by
  have hsettings : (t.tally.tried c).settings = (t.fixIntegers c).session.settings :=
    congrArg Tally.settings (tally_fixIntegers t c).symm
  unfold settled Tally.Settled
  rw [hsettings, ← tally_fixIntegers]
  split
  · exact flushed_flushIntegerCuts _ e
  · rfl

/-- Up to the heuristics, hyperplanes are counted and nodes recorded. -/
theorem tally_searched (t : Turn α) (e : Event α) (objective : α) (c : Candidate α) :
    ∃ change : Iteration α → Iteration α,
      (∀ it, (change it).closed = it.closed ∧
        (change it).explored = t.callback.explored - t.session.statistics.explored) ∧
      (t.searched e objective c).tally = { t.tally with
        iterations := t.session.iterations.modifyLast change
        recorded := t.callback.explored } := by
  have hflushed := tally_flushHyperplanes (t.requested c) e
  rw [tally_requested] at hflushed
  simp only [searched]
  -- The turn after the rows were handed over, and how many were taken.
  generalize ((t.requested c).flushHyperplanes e).2 = added at hflushed ⊢
  generalize ((t.requested c).flushHyperplanes e).1 = u at hflushed ⊢
  have hnoted : (if added = 0 then u.note [.noHyperplane c.objective] else u).tally = u.tally := by
    split <;> rfl
  generalize (if added = 0 then u.note [.noHyperplane c.objective] else u) = v at hnoted ⊢
  obtain ⟨record, hrecord, hrecorded⟩ := tally_recordIteration v objective c
  have hiterations : (t.requested c).session.iterations = t.session.iterations :=
    congrArg Tally.iterations (tally_requested t c)
  have hv := hnoted.trans hflushed
  refine ⟨fun it => record (it.addHyperplanes added), fun it => ?_, ?_⟩
  · obtain ⟨hclosed, hexplored⟩ := hrecord (it.addHyperplanes added)
    refine ⟨hclosed, hexplored.trans ?_⟩
    exact congrArg (fun a : Tally α => a.read - a.recorded) hv
  -- Counting and recording are two changes of the same iteration.
  · rw [tally_searchPrimal, hrecorded]
    calc
      _ = { v.tally with
            iterations := v.tally.iterations.modifyLast record
            recorded := v.tally.read } := rfl
      _ = { t.tally with
            iterations := ((t.requested c).session.iterations.modifyLast
              (·.addHyperplanes added)).modifyLast record
            recorded := t.callback.explored } := by rw [hv]; rfl
      _ = _ := by rw [hiterations, IterationLedger.modifyLast_modifyLast]

/-- Cutting off a solution does all that is left to do for it. -/
theorem tally_cutOff (t : Turn α) (e : Event α) (objective : α) (c : Candidate α) :
    ∃ (change : Iteration α → Iteration α) (recorded m : Tally α),
      (∀ it, (change it).closed = it.closed ∧
        (change it).explored = t.callback.explored - t.session.statistics.explored) ∧
      recorded = { t.tally with
        iterations := t.session.iterations.modifyLast change
        recorded := t.callback.explored } ∧
      (recorded.tried c).Settled m ∧
      (t.cutOff e objective c).tally = { m with iterations := m.iterations.closeLast } := by
  obtain ⟨change, hchange, hsearched⟩ := tally_searched t e objective c
  have hsettled := tally_settled (t.searched e objective c) e c
  -- After the local solver and the cuts, the iteration is closed and the check made.
  have hclosed : (t.closed e objective c).tally =
      { ((t.searched e objective c).settled e c).tally with
        iterations := ((t.searched e objective c).settled e c).session.iterations.closeLast } := by
    unfold closed
    generalize (t.searched e objective c).settled e c = u
    exact tally_checkTermination (u.closeIteration c _)
  refine ⟨change, _, _, hchange, hsearched, hsettled, ?_⟩
  rw [cutOff_eq]
  split
  · exact hclosed
  · exact (tally_injectIncumbent _ e).trans hclosed

/-! ## Events -/

theorem handles_relaxationNode (t : Turn α) (e : Event α) :
    Tally.Handles e none t.tally (t.relaxationNode e).tally := by
  simp only [relaxationNode]
  split
  · exact .kept rfl rfl
  · exact .kept rfl rfl
  · split
    · exact .kept rfl rfl
    · split
      · exact .kept rfl rfl
      next values _ =>
        split
        -- Only here are hyperplanes counted.
        · obtain ⟨n, htally⟩ := tally_cutRelaxation t e values
          exact .relaxed n rfl htally
        · exact .kept rfl rfl

theorem handles_considerSolution (t : Turn α) (e : Event α) (objective : α) (x : Point α)
    (hvalues : e.values = .ok x) :
    Tally.Handles e none t.tally (t.considerSolution e objective x).tally := by
  have hensured := tally_ensureIteration t
  have hcandidate : t.ensureIteration.problem.candidate x t.ensureIteration.iteration =
      t.tally.problem.candidate x t.tally.iterations.ensured.lastNumber :=
    congrArg (fun a : Tally α => a.problem.candidate x a.iterations.lastNumber) hensured
  simp only [considerSolution, hcandidate]
  -- The solution is offered and checked for, which the tally does not show.
  have hoffered := tally_offerSolution t.ensureIteration objective
    (t.tally.problem.candidate x t.tally.iterations.ensured.lastNumber)
  have hchecked := ((tally_checkTermination _).trans hoffered).trans hensured
  generalize (t.ensureIteration.offerSolution objective _).checkTermination = u at hchecked ⊢
  split
  · exact .opened rfl hchecked
  · split
    · exact .opened rfl hchecked
    -- It is cut off: what was read before is what is recorded now.
    · obtain ⟨change, recorded, m, hchange, hrecorded, hsettled, hcut⟩ := tally_cutOff u e objective
        (t.tally.problem.candidate x t.tally.iterations.ensured.lastNumber)
      refine .closed x change recorded m rfl hvalues (fun it => ?_) (hrecorded.trans ?_) hsettled
        hcut
      · obtain ⟨hclosed, hexplored⟩ := hchange it
        refine ⟨hclosed, hexplored.trans ?_⟩
        exact congrArg (fun a : Tally α => a.read - a.recorded) hchecked
      · exact congrArg (fun a : Tally α => { a with
          iterations := a.iterations.modifyLast change
          recorded := a.read }) hchecked

theorem handles_integerSolution (t : Turn α) (e : Event α) :
    Tally.Handles e none t.tally (t.integerSolution e).tally := by
  simp only [integerSolution]
  split
  · exact .kept rfl rfl
  · split
    · exact .kept rfl rfl
    next x hvalues =>
      split
      · exact handles_considerSolution t e _ x hvalues
      · exact .kept rfl rfl

theorem handles_recordProgress (t : Turn α) (e : Event α) :
    Tally.Handles e e.explored.toOption t.tally (t.recordProgress e).tally := by
  unfold recordProgress
  cases e.explored with
  | ok n => cases e.openNodes <;> exact .read n rfl rfl
  | error err => cases e.openNodes <;> exact .kept rfl rfl

theorem handles_dispatch (t : Turn α) (e : Event α) :
    Tally.Handles e e.read? t.tally (t.dispatch e).tally := by
  unfold dispatch Event.read?
  cases e.reason with
  | progress => exact handles_recordProgress t e
  | relaxationNode => exact handles_relaxationNode t e
  | integerSolution => exact handles_integerSolution t e
  | polling | presolve | simplex | message | barrier => exact .kept rfl rfl

theorem handles_active (t : Turn α) (e : Event α) :
    Tally.Handles e (t.callback.read? e) t.tally (t.active e).tally := by
  have hopened := tally_checkTermination (t.enter .evaluatingNode)
  have hstop : (t.enter .evaluatingNode).checkTermination.callback.aborted =
      (t.callback.aborted || t.callback.session.stopReason?.isSome) :=
    aborted_checkTermination (t.enter .evaluatingNode)
  -- The last check is made on a condition, and shows in no tally.
  have hlast : ∀ u : Turn α,
      ((if u.callback.aborted then u else u.checkTermination).enter .idle).tally = u.tally := by
    intro u
    split
    · rfl
    · exact tally_checkTermination u
  simp only [active, Callback.read?, ← hstop]
  split
  · exact .kept rfl hopened
  · rw [hlast, show t.tally = _ from hopened.symm, ← tally_updateDualBound _ e]
    exact handles_dispatch _ e

end Turn

/-- Every event does one of the five things, and nodes are read in it or not. -/
theorem Callback.handles [Scalar α] (c : Callback α) (e : Event α) :
    Tally.Handles e (c.read? e) c.tally (c.handle e).tally := by
  have hcounted : (⟨c.counted, []⟩ : Turn α).tally = c.tally := rfl
  simp only [handle]
  split
  -- An event of no interest does not tell any progress either.
  next hpassive =>
    have hread : c.read? e = none := by
      have hreason : e.reason ≠ .progress := by
        rintro hprogress
        rw [hprogress] at hpassive
        exact Bool.noConfusion hpassive
      simp only [read?, Event.read?, if_neg hreason, ite_self]
    exact .kept hread rfl
  · split
    next haborted =>
      have hread : c.read? e = none := by simp only [read?, haborted, Bool.true_or, if_true]
      exact .kept hread rfl
    · exact hcounted ▸ Turn.handles_active ⟨c.counted, []⟩ e

end OuterApprox
