import OuterApprox.Callback.Handle

/-!
# Rows and nothing else

Most of what is done while an event is handled hands rows to the engine or nothing at
all, and leaves alone what the callback remembers of its other calls: that it asked the
engine to stop, and which primal bound it handed over last. The exceptions are few. A
check looks at the clock and may ask the engine to stop, and at the end of cutting off a
solution the engine is told about the incumbent. So it pays to say once, for every other
function, that it does no more than that; what is asked about requests to stop, or about the
incumbent, is then a question about the two exceptions.

## Main definitions

* `Turn.Rowed`: Steps that hand over rows and nothing else.

## Theorems

* `Turn.Rowed.refl`, `Turn.Rowed.trans`: Such steps compose.
* `Turn.rowed_flushHyperplanes`, `Turn.rowed_flushIntegerCuts`: Handing over what waits.
* `Turn.rowed_relaxationNode`, `Turn.rowed_searchPrimal` and so on: The rest.
* `Turn.exists_cutOff_checked`: Cutting off a solution hands over rows, then checks, and
  then may hand over the incumbent.
-/

namespace OuterApprox

namespace Turn

variable {α : Type}

/-- A step that hands over rows and nothing else. -/
structure Rowed (t t' : Turn α) : Prop where
  /-- It does not matter for requests to stop. -/
  aborted : t'.callback.aborted = t.callback.aborted
  /-- Nor for the incumbent. -/
  injected : t'.callback.injected = t.callback.injected
  /-- Nobody looks at the clock. -/
  clock : t'.session.clock = t.session.clock
  /-- What is added to the calls are rows. -/
  calls : ∃ rows, t'.calls = t.calls ++ rows ∧ ∀ call ∈ rows, call.isRow = true

/-- A step that makes no call. -/
theorem Rowed.of_eq {t t' : Turn α} (ha : t'.callback.aborted = t.callback.aborted)
    (hi : t'.callback.injected = t.callback.injected)
    (hclock : t'.session.clock = t.session.clock) (hcalls : t'.calls = t.calls) : Rowed t t' :=
  ⟨ha, hi, hclock, [], hcalls.trans (List.append_nil _).symm, List.forall_mem_nil _⟩

/-- Nothing is a step without calls. -/
theorem Rowed.refl (t : Turn α) : Rowed t t := .of_eq rfl rfl rfl rfl

/-- The rows of one step come after those of the other. -/
theorem Rowed.trans {a b c : Turn α} (h1 : Rowed a b) (h2 : Rowed b c) : Rowed a c := by
  rcases h1.calls with ⟨first, hfirst, hrows⟩
  rcases h2.calls with ⟨second, hsecond, hrows'⟩
  refine ⟨h2.aborted.trans h1.aborted, h2.injected.trans h1.injected, h2.clock.trans h1.clock,
    first ++ second, ?_, ?_⟩
  · rw [hsecond, hfirst, List.append_assoc]
  · exact List.forall_mem_append.2 ⟨hrows, hrows'⟩

/-- Folding such steps gives one. -/
theorem rowed_foldl {β : Type} (f : Turn α × Nat → β → Turn α × Nat)
    (hf : ∀ acc b, Rowed acc.1 (f acc b).1) (l : List β) (acc : Turn α × Nat) :
    Rowed acc.1 (l.foldl f acc).1 := by
  induction l generalizing acc with
  | nil => exact .refl _
  | cons b rest ih => exact (hf acc b).trans (ih _)

/-- Whatever is done to the session apart from its clock makes no call. -/
theorem rowed_mapSession (t : Turn α) (f : Session α → Session α)
    (hclock : (f t.session).clock = t.session.clock) : Rowed t (t.mapSession f) :=
  .of_eq rfl rfl hclock rfl

/-- Nor does anything that is done to the cut store. -/
theorem rowed_mapStore (t : Turn α) (f : CutStore α → CutStore α) : Rowed t (t.mapStore f) :=
  .of_eq rfl rfl rfl rfl

theorem rowed_note (t : Turn α) (remarks : List (Diagnostic α)) : Rowed t (t.note remarks) :=
  .of_eq rfl rfl rfl rfl

theorem rowed_recordProgress (t : Turn α) (e : Event α) : Rowed t (t.recordProgress e) := by
  unfold recordProgress
  cases e.explored <;> cases e.openNodes <;> exact .of_eq rfl rfl rfl rfl

theorem rowed_recordIteration (t : Turn α) (objective : α) (c : Candidate α) :
    Rowed t (t.recordIteration objective c) :=
  .of_eq rfl rfl rfl rfl

-- The row is handed over whatever the engine answers.
theorem rowed_submit (t : Turn α) (e : Event α) (kind : RowKind) (row : Row α) :
    Rowed t (t.submit e kind row).1 :=
  ⟨rfl, rfl, rfl, [_], rfl, List.forall_mem_singleton.2 rfl⟩

variable [Scalar α]

/-- The bound of the engine is read, not written. -/
theorem rowed_updateDualBound (t : Turn α) (e : Event α) : Rowed t (t.updateDualBound e) := by
  simp only [updateDualBound]
  split
  · exact .of_eq rfl rfl rfl rfl
  · split <;> exact .of_eq rfl rfl rfl rfl

/-- One hyperplane is one row at most: those without a linearization make none. -/
theorem rowed_flushHyperplane (e : Event α) (number : Nat) (acc : Turn α × Nat)
    (h : Hyperplane α) : Rowed acc.1 (flushHyperplane e number acc h).1 := by
  simp only [flushHyperplane]
  have hnote := rowed_note acc.1 (acc.1.problem.linearizeRemarks h)
  split
  · exact hnote
  next l _ =>
    have hsubmit := hnote.trans (rowed_submit _ e .hyperplane l.row)
    -- Refused or taken, the row was handed over.
    split <;> rename_i hanswer <;> rw [hanswer] at hsubmit
    · exact hsubmit.trans (rowed_note _ _)
    · exact hsubmit.trans (.of_eq rfl rfl rfl rfl)

/-- All that wait are handed over as rows. -/
theorem rowed_flushHyperplanes (t : Turn α) (e : Event α) :
    Rowed t (t.flushHyperplanes e).1 := by
  -- The fold starts after the list of waiting hyperplanes was emptied.
  have hfold := rowed_foldl _ (rowed_flushHyperplane e t.iteration) t.store.waiting
    (t.mapStore fun s => { s with waiting := [] }, 0)
  have hflush := (rowed_mapStore t fun s => { s with waiting := [] }).trans hfold
  simp only [flushHyperplanes]
  split
  · exact hflush
  · exact hflush.trans (.of_eq rfl rfl rfl rfl)

/-- One no-good cut is one row at most. -/
theorem rowed_flushIntegerCut (e : Event α) (acc : Turn α × Nat) (indices : List Nat) :
    Rowed acc.1 (flushIntegerCut e acc indices).1 := by
  simp only [flushIntegerCut]
  split
  · exact rowed_note _ _
  next row _ =>
    have hsubmit := rowed_submit acc.1 e .noGood row
    split <;> rename_i hanswer <;> rw [hanswer] at hsubmit
    · exact hsubmit.trans (rowed_note _ _)
    · exact hsubmit

/-- All that are queued are handed over as rows. -/
theorem rowed_flushIntegerCuts (t : Turn α) (e : Event α) : Rowed t (t.flushIntegerCuts e) := by
  have hfold := rowed_foldl _ (rowed_flushIntegerCut e) t.store.integerCuts
    (t.mapStore fun s => { s with integerCuts := [] }, 0)
  have hflush := (rowed_mapStore t fun s => { s with integerCuts := [] }).trans hfold
  simp only [flushIntegerCuts]
  split
  · exact .refl t
  · exact (hflush.trans (rowed_mapSession _ _ rfl)).trans (rowed_note _ _)

theorem rowed_requestCuts (t : Turn α) (c : Candidate α) (milp : Bool) :
    Rowed t (t.requestCuts c milp) :=
  .of_eq rfl rfl rfl rfl

theorem rowed_requestEpigraph (t : Turn α) (c : Candidate α) : Rowed t (t.requestEpigraph c) :=
  .of_eq rfl rfl rfl rfl

/-- At a relaxation the only calls are the rows that cut it off. -/
theorem rowed_cutRelaxation (t : Turn α) (e : Event α) (values : Point α) :
    Rowed t (t.cutRelaxation e values) := by
  have hrequested : Rowed t ((t.enter .generatingCuts).requestCuts
      ((t.enter .generatingCuts).problem.candidate values
        (t.enter .generatingCuts).iteration) false) :=
    .of_eq rfl rfl rfl rfl
  exact (hrequested.trans (rowed_flushHyperplanes _ e)).trans (.of_eq rfl rfl rfl rfl)

/-- So they are for the event as a whole, which may find nothing to do. -/
theorem rowed_relaxationNode (t : Turn α) (e : Event α) : Rowed t (t.relaxationNode e) := by
  simp only [relaxationNode]
  split
  · exact rowed_note t _
  · exact .refl t
  · split
    · exact .refl t
    · split
      · exact rowed_note t _
      · split
        · exact rowed_cutRelaxation t e _
        · exact rowed_note t _

/-- An iteration is closed without telling the engine. -/
theorem rowed_closeIteration (t : Turn α) (c : Candidate α) (added : Nat) :
    Rowed t (t.closeIteration c added) :=
  .of_eq rfl rfl rfl rfl

theorem rowed_ensureIteration (t : Turn α) : Rowed t t.ensureIteration := by
  unfold ensureIteration
  split <;> exact .of_eq rfl rfl rfl rfl

/-- A solution is offered to the bounds, not to the engine. -/
theorem rowed_offerSolution (t : Turn α) (objective : α) (c : Candidate α) :
    Rowed t (t.offerSolution objective c) := by
  unfold offerSolution
  split <;> exact .of_eq rfl rfl rfl rfl

/-- Moving the interior point is no call. -/
theorem rowed_refineInterior (t : Turn α) : Rowed t t.refineInterior := by
  simp only [refineInterior]
  split <;> exact .of_eq rfl rfl rfl rfl

/-- Neither is a search along a line, whatever it finds. -/
theorem rowed_searchPrimal (t : Turn α) (c : Candidate α) : Rowed t (t.searchPrimal c) := by
  simp only [searchPrimal]
  split
  · exact .refl t
  · split
    · exact .refl t
    · split <;> exact .of_eq rfl rfl rfl rfl

/-- The local solver is asked, and not the engine. -/
theorem rowed_fixIntegers (t : Turn α) (c : Candidate α) : Rowed t (t.fixIntegers c) := by
  simp only [fixIntegers]
  split
  · exact rowed_mapStore t _
  · split <;> exact .of_eq rfl rfl rfl rfl

/-- Cutting off a solution hands over rows, then checks, and then hands over the incumbent
    unless the check was a request to stop. -/
theorem exists_cutOff_checked (t : Turn α) (e : Event α) (objective : α) (c : Candidate α) :
    ∃ u, Rowed t u ∧ t.cutOff e objective c =
      if u.checkTermination.callback.aborted then u.checkTermination
      else u.checkTermination.injectIncumbent e := by
  -- Two of the steps are made on a condition, and are what is claimed in both cases.
  have hnoted : ∀ (u : Turn α) (added : Nat),
      Rowed u (if added = 0 then u.note [.noHyperplane c.objective] else u) := by
    intro u added
    split
    · exact rowed_note u _
    · exact .refl u
  have hnoGood : ∀ u : Turn α,
      Rowed u (if u.session.settings.dual.useIntegerCuts then u.flushIntegerCuts e else u) := by
    intro u
    split
    · exact rowed_flushIntegerCuts u e
    · exact .refl u
  refine ⟨_, ?_, rfl⟩
  -- Up to the check no other call is made, whatever is flushed and found.
  refine Rowed.trans ?_ (rowed_closeIteration _ c _)
  refine Rowed.trans ?_ (hnoGood _)
  refine Rowed.trans ?_ (rowed_fixIntegers _ c)
  refine Rowed.trans ?_ (rowed_searchPrimal _ c)
  refine Rowed.trans ?_ (rowed_recordIteration _ objective c)
  refine Rowed.trans ?_ (hnoted _ _)
  refine Rowed.trans ?_ (rowed_flushHyperplanes _ e)
  refine Rowed.trans ?_ (rowed_requestEpigraph _ c)
  refine Rowed.trans ?_ (rowed_requestCuts _ c true)
  refine Rowed.trans ?_ (rowed_refineInterior _)
  exact .of_eq rfl rfl rfl rfl

end Turn

end OuterApprox
