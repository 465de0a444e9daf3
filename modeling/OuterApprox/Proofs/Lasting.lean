import OuterApprox.Proofs.ClockReadings
import OuterApprox.Proofs.Course
import OuterApprox.Proofs.TurnSteps

/-!
# What lasts while events are handled

Little of a callback stays the same while it handles events, and a second search starts from
what the first one has left. This is the part that stays, or stays on a condition: the problem
and the settings in any case, the interior point if nothing may move it, what the local solver
was tried on if there is none, the number of no-good cuts if they are not added, and an empty
queue of them if they are. The clock goes on, but it is the same clock.

The queue is the one thing that is not preserved step by step. A candidate that is a dead end
puts a cut into it, and the next step empties it, so the two steps are taken together.

## Main definitions

* `FixedIntegerQueue.MarkedBy`, `FixedIntegerQueue.Stays`: What stays of the queue of the local
  search, and when it is marked.
* `Callback.Spares`, `Callback.Lasts`: What stays, without and with the queue.
* `Turn.searched`, `Turn.settled`, `Turn.closed`: A solution that was cut off, after the local
  search along a line, after the local solver, and at the end of its iteration.

## Theorems

* `FixedIntegerQueue.stays_enrol`: What stays when it is decided on a candidate.
* `Turn.spares_fixIntegers`, `Turn.lasts_settled`: A cut that is queued does not stay.
* `Turn.cutOff_eq`: Cutting off a solution in these terms.
* `Callback.lasts_handle`: What lasts while an event is handled.
-/

namespace OuterApprox

variable {α σ : Type}

namespace FixedIntegerQueue

/-- A queue that is marked has a local solver, and the rule for it is the one that calculates with
    iterations. -/
def MarkedBy (rule : FixedIntegerRule) (q : FixedIntegerQueue α) : Prop :=
  q.overflowed = true → q.solver ≠ none ∧ ∃ n, rule = .every n

/-- Without a local solver, or under a rule that does not count iterations, there is no mark. -/
theorem MarkedBy.eq_false {rule : FixedIntegerRule} {q : FixedIntegerQueue α}
    (h : q.MarkedBy rule) (hsafe : q.solver = none ∨ ∀ n, rule ≠ .every n) :
    q.overflowed = false := by
  refine Bool.eq_false_iff.2 fun hmark => ?_
  obtain ⟨hsome, n, hrule⟩ := h hmark
  exact hsafe.elim hsome fun hnever => hnever n hrule

/-- What stays of a queue under a rule. -/
structure Stays (rule : FixedIntegerRule) (q q' : FixedIntegerQueue α) : Prop where
  /-- The local solver stays. -/
  solver : q'.solver = q.solver
  /-- Without a local solver nothing is tried. -/
  memory : q.solver = none → q' = q
  /-- A mark stays. -/
  mark : q.overflowed = true → q'.overflowed = true
  /-- No other rule makes one. -/
  marked : q.MarkedBy rule → q'.MarkedBy rule

/-- Everything stays if nothing happens. -/
theorem Stays.refl (rule : FixedIntegerRule) (q : FixedIntegerQueue α) : q.Stays rule q :=
  ⟨rfl, fun _ => rfl, id, id⟩

/-- What stays twice stays. -/
theorem Stays.trans {rule : FixedIntegerRule} {a b c : FixedIntegerQueue α}
    (h1 : a.Stays rule b) (h2 : b.Stays rule c) : a.Stays rule c where
  solver := h2.solver.trans h1.solver
  memory h := (h2.memory (h1.solver.trans h)).trans (h1.memory h)
  mark h := h2.mark (h1.mark h)
  marked h := h2.marked (h1.marked h)

/-- Deciding on a candidate may put it into the memory or set the mark, and does no more. -/
theorem stays_enrol [Scalar α] (q : FixedIntegerQueue α) (rule : FixedIntegerRule)
    (p : Problem α) (c : Candidate α) : q.Stays rule (q.enrol rule p c) where
  solver := q.solver_enrol rule p c
  memory h := q.enrol_of_solver h rule p c
  mark h := by rw [overflowed_enrol, h, Bool.true_or]
  -- A new mark comes from a verdict that only one rule can give.
  marked h hmark := by
    rw [solver_enrol]
    rw [overflowed_enrol, Bool.or_eq_true, decide_eq_true_iff] at hmark
    exact hmark.elim h eq_every_of_verdict

/-- A solver that is asked is there. -/
theorem stays_afterAsking (q : FixedIntegerQueue α) (rule : FixedIntegerRule) :
    q.Stays rule q.afterAsking := by
  unfold afterAsking
  split
  next hsome => exact ⟨rfl, fun hnone => absurd hsome (by rw [hnone]; exact nofun), id, id⟩
  · exact .refl rule q

end FixedIntegerQueue

namespace Callback

/-- What handling leaves as it is, some of it on a condition. -/
structure Spares (c c' : Callback α) : Prop where
  /-- The problem stays. -/
  problem : c'.session.problem = c.session.problem
  /-- The settings stay. -/
  settings : c'.session.settings = c.session.settings
  /-- The clock goes on. -/
  clock : c.session.clock.Later c'.session.clock
  /-- The strategy stays. -/
  strategy : c'.strategy = c.strategy
  /-- Only entries that are no rows of the model are added to the cut ledger. -/
  rows : c'.store.ledger.entries.filter (·.row.isSome) =
    c.store.ledger.entries.filter (·.row.isSome)
  /-- The local solver stays, and what it was tried on if there is none. -/
  trials : c.store.fixedInteger.Stays c.session.settings.primal.fixedInteger
    c'.store.fixedInteger
  /-- The interior point follows the incumbent only if the strategy needs it and the settings
      allow it. -/
  interior : c.strategy.needsInterior = false ∨
    c.session.settings.boundary.interiorUpdate = .keep → c'.store.interior = c.store.interior
  /-- No-good cuts are added only if the settings allow it. -/
  count : c.session.settings.dual.useIntegerCuts = false →
    c'.session.statistics.integerCuts = c.session.statistics.integerCuts

/-- Besides, no no-good cut is left in the queue if none was there and they are added. -/
structure Lasts (c c' : Callback α) : Prop extends Spares c c' where
  /-- An empty queue stays empty. -/
  queue : c.session.settings.dual.useIntegerCuts = true → c.store.integerCuts = [] →
    c'.store.integerCuts = []

/-- Nothing happens. -/
theorem Spares.refl (c : Callback α) : Spares c c :=
  ⟨rfl, rfl, .refl _, rfl, rfl, .refl _ _, fun _ => rfl, fun _ => rfl⟩

/-- One thing after the other. The conditions are about the settings, which stay. -/
theorem Spares.trans {a b c : Callback α} (h1 : Spares a b) (h2 : Spares b c) : Spares a c where
  problem := h2.problem.trans h1.problem
  settings := h2.settings.trans h1.settings
  clock := h1.clock.trans h2.clock
  strategy := h2.strategy.trans h1.strategy
  rows := h2.rows.trans h1.rows
  trials := h1.trials.trans (h1.settings ▸ h2.trials)
  interior h := (h2.interior (by rw [h1.strategy, h1.settings]; exact h)).trans (h1.interior h)
  count h := (h2.count (by rw [h1.settings]; exact h)).trans (h1.count h)

/-- The same with the queue. -/
theorem Lasts.refl (c : Callback α) : Lasts c c := ⟨.refl c, fun _ h => h⟩

/-- The queue is empty in between as well. -/
theorem Lasts.trans {a b c : Callback α} (h1 : Lasts a b) (h2 : Lasts b c) : Lasts a c :=
  ⟨h1.toSpares.trans h2.toSpares,
    fun huse h => h2.queue (by rw [h1.settings]; exact huse) (h1.queue huse h)⟩

/-- It lasts if the parts that may matter are the same. -/
theorem Lasts.of_eq {c c' : Callback α} (hproblem : c'.session.problem = c.session.problem)
    (hsettings : c'.session.settings = c.session.settings)
    (hclock : c'.session.clock = c.session.clock) (hstrategy : c'.strategy = c.strategy)
    (hcount : c'.session.statistics.integerCuts = c.session.statistics.integerCuts)
    (hledger : c'.store.ledger = c.store.ledger)
    (hqueue : c'.store.integerCuts = c.store.integerCuts)
    (hinterior : c'.store.interior = c.store.interior)
    (hmemory : c'.store.fixedInteger = c.store.fixedInteger) : Lasts c c' where
  problem := hproblem
  settings := hsettings
  clock := hclock ▸ .refl _
  strategy := hstrategy
  rows := congrArg (fun l : CutLedger α => l.entries.filter (·.row.isSome)) hledger
  trials := hmemory ▸ .refl _ _
  interior _ := hinterior
  count _ := hcount
  queue _ h := hqueue.trans h

end Callback

namespace Turn

/-- What lasts in a turn. -/
abbrev Lasts (t t' : Turn α) : Prop := t.callback.Lasts t'.callback

/-- A change of the session that leaves the problem, the settings, the clock and the number of
    no-good cuts. -/
theorem lasts_mapSession (t : Turn α) {f : Session α → Session α}
    (hproblem : (f t.session).problem = t.session.problem)
    (hsettings : (f t.session).settings = t.session.settings)
    (hclock : (f t.session).clock = t.session.clock)
    (hcount : (f t.session).statistics.integerCuts = t.session.statistics.integerCuts) :
    Lasts t (t.mapSession f) :=
  .of_eq hproblem hsettings hclock rfl hcount rfl rfl rfl rfl

theorem lasts_note (t : Turn α) (remarks : List (Diagnostic α)) : Lasts t (t.note remarks) :=
  lasts_mapSession t rfl rfl rfl rfl

theorem lasts_enter (t : Turn α) (phase : Phase) : Lasts t (t.enter phase) :=
  .of_eq rfl rfl rfl rfl rfl rfl rfl rfl rfl

theorem lasts_call (t : Turn α) (c : Call α) : Lasts t (t.call c) := .refl _

/-- The progress is written down outside of the session. -/
theorem lasts_recordProgress (t : Turn α) (e : Event α) : Lasts t (t.recordProgress e) := by
  unfold recordProgress
  cases e.explored <;> cases e.openNodes <;> exact .of_eq rfl rfl rfl rfl rfl rfl rfl rfl rfl

theorem lasts_recordIteration (t : Turn α) (objective : α) (c : Candidate α) :
    Lasts t (t.recordIteration objective c) :=
  lasts_mapSession t rfl rfl rfl rfl

/-- The clock was looked at. -/
theorem lasts_look (t : Turn α) : Lasts t (t.mapSession (·.look)) :=
  ⟨⟨rfl, rfl, Clock.later_tick _, rfl, rfl, .refl _ _, fun _ => rfl, fun _ => rfl⟩, fun _ h => h⟩

/-- Handing over the incumbent is a call and perhaps a remark. -/
theorem lasts_submitIncumbent (t : Turn α) (e : Event α) (primal : α) :
    Lasts t (t.submitIncumbent e primal) := by
  simp only [submitIncumbent]
  split
  · exact .refl _
  · split
    · exact lasts_call t _
    · exact lasts_note (t.call _) _

variable [Scalar α]

/-- A check looks at the clock once, and a request to stop is one more call. -/
theorem lasts_checkTermination (t : Turn α) : Lasts t t.checkTermination := by
  refine (lasts_enter t .checkingTermination).trans ?_
  simp only [checkTermination]
  split
  · exact lasts_look _
  · exact (lasts_look _).trans (.of_eq rfl rfl rfl rfl rfl rfl rfl rfl rfl)

/-- At most the dual bound changes. -/
theorem lasts_updateDualBound (t : Turn α) (e : Event α) : Lasts t (t.updateDualBound e) := by
  refine (lasts_enter t .updatingBounds).trans ?_
  simp only [updateDualBound]
  split
  · exact lasts_note _ _
  · split
    · exact lasts_mapSession _ rfl rfl rfl rfl
    · exact .refl _

/-- A row that the engine takes is entered as a lazy one, and it is no row of the model. -/
theorem lasts_flushHyperplane (e : Event α) (number : Nat) (acc : Turn α × Nat)
    (x : Hyperplane α) : Lasts acc.1 (flushHyperplane e number acc x).1 := by
  refine (lasts_note acc.1 (acc.1.problem.linearizeRemarks x)).trans ?_
  simp only [flushHyperplane, submit]
  split
  · exact .refl _
  next l _ =>
    -- Only what the engine answers matters, not where the row stands among the calls.
    generalize e.onRow (List.countP Call.isRow
      (acc.1.note (acc.1.problem.linearizeRemarks x)).calls) l.row = answer
    cases answer with
    | error err => exact (lasts_call _ _).trans (lasts_note _ _)
    | ok _ =>
      refine ⟨⟨rfl, rfl, .refl _, rfl, ?_, .refl _ _, fun _ => rfl, fun _ => rfl⟩, fun _ h => h⟩
      exact (List.filter_append ..).trans (List.append_nil _)

/-- By going through all that wait. -/
theorem lasts_flushHyperplanes (t : Turn α) (e : Event α) :
    Lasts t (t.flushHyperplanes e).1 := by
  have hemptied : Lasts t (t.mapStore fun s => { s with waiting := [] }) :=
    .of_eq rfl rfl rfl rfl rfl rfl rfl rfl rfl
  have hflushed : Lasts t (t.store.waiting.foldl (flushHyperplane e t.iteration)
      (t.mapStore fun s => { s with waiting := [] }, 0)).1 :=
    List.foldlRecOn _ _ (motive := fun acc => Lasts t (Prod.fst acc)) hemptied
      fun acc hacc x _ => hacc.trans (lasts_flushHyperplane e _ acc x)
  simp only [flushHyperplanes]
  split
  · exact hflushed
  · exact hflushed.trans (lasts_mapSession _ rfl rfl rfl rfl)

/-- Hyperplanes that are chosen wait in the store, and that is not part of what lasts. -/
theorem lasts_requestCuts (t : Turn α) (c : Candidate α) (milp : Bool) :
    Lasts t (t.requestCuts c milp) :=
  .of_eq rfl rfl rfl rfl rfl rfl rfl rfl rfl

theorem lasts_requestEpigraph (t : Turn α) (c : Candidate α) : Lasts t (t.requestEpigraph c) :=
  .of_eq rfl rfl rfl rfl rfl rfl rfl rfl rfl

/-- A relaxation adds lazy rows or nothing. -/
theorem lasts_relaxationNode (t : Turn α) (e : Event α) : Lasts t (t.relaxationNode e) := by
  simp only [relaxationNode]
  split
  · exact lasts_note _ _
  · exact .refl _
  · split
    · exact .refl _
    · split
      · exact lasts_note _ _
      · split
        · refine Callback.Lasts.trans ?_ (lasts_mapSession _ rfl rfl rfl rfl)
          refine Callback.Lasts.trans ?_ (lasts_flushHyperplanes _ e)
          exact (lasts_enter t _).trans (lasts_requestCuts _ _ false)
        · exact lasts_note _ _

/-- An iteration may be opened. -/
theorem lasts_ensureIteration (t : Turn α) : Lasts t t.ensureIteration := by
  unfold ensureIteration
  split
  · exact lasts_mapSession t rfl rfl rfl rfl
  · exact .refl _

/-- At most the bounds change. -/
theorem lasts_offerSolution (t : Turn α) (objective : α) (c : Candidate α) :
    Lasts t (t.offerSolution objective c) := by
  unfold offerSolution
  split
  · exact lasts_mapSession t rfl rfl rfl rfl
  · exact .refl _

/-- Told to keep the interior point, the tracker does not look at the incumbent. -/
theorem consider_keep (i : InteriorTracker α) (p : Problem α)
    (incumbent : Option (PrimalSolution α)) : (i.consider p .keep incumbent).1 = i := rfl

/-- Only a strategy that needs an interior point moves it, and only if the settings allow that. -/
theorem lasts_refineInterior (t : Turn α) : Lasts t t.refineInterior := by
  simp only [refineInterior]
  split
  · exact .refl _
  next hneeds =>
    refine ⟨⟨rfl, rfl, .refl _, rfl, rfl, .refl _ _, ?_, fun _ => rfl⟩, fun _ h => h⟩
    -- The strategy needs none, so this branch is not taken; or nothing may move it.
    rintro (hnone | hkeep)
    · rw [hnone] at hneeds
      exact absurd rfl hneeds
    · change (t.store.interior.consider t.problem t.session.settings.boundary.interiorUpdate
        t.session.bounds.incumbent).1 = t.store.interior
      rw [show t.session.settings.boundary.interiorUpdate = .keep from hkeep]
      exact consider_keep _ _ _

/-- A point found on the line is offered to the bounds. -/
theorem lasts_searchPrimal (t : Turn α) (c : Candidate α) : Lasts t (t.searchPrimal c) := by
  simp only [searchPrimal]
  split
  · exact .refl _
  · split
    · exact .refl _
    · split
      · exact (lasts_note t _).trans (lasts_mapSession _ rfl rfl rfl rfl)
      · exact lasts_note t _

/-- A candidate is decided on, and the solver is asked about it or not. -/
theorem spares_fixIntegers (t : Turn α) (c : Candidate α) :
    t.callback.Spares (t.fixIntegers c).callback := by
  have henrolled := t.store.fixedInteger.stays_enrol t.session.settings.primal.fixedInteger
    t.problem c
  simp only [fixIntegers]
  -- The solver is asked about what was decided on before.
  generalize t.store.fixedInteger.enrol t.session.settings.primal.fixedInteger t.problem c
    = queue at henrolled ⊢
  have hasked := henrolled.trans (queue.stays_afterAsking _)
  split
  · exact ⟨rfl, rfl, .refl _, rfl, rfl, henrolled, fun _ => rfl, fun _ => rfl⟩
  · split <;> exact ⟨rfl, rfl, .refl _, rfl, rfl, hasked, fun _ => rfl, fun _ => rfl⟩

/-- One no-good cut is a call, and a remark if it was refused. -/
theorem lasts_flushIntegerCut (e : Event α) (acc : Turn α × Nat) (indices : List Nat) :
    Lasts acc.1 (flushIntegerCut e acc indices).1 := by
  simp only [flushIntegerCut, submit]
  split
  · exact lasts_note _ _
  next row _ =>
    generalize e.onRow (List.countP Call.isRow acc.1.calls) row = answer
    cases answer with
    | error err => exact (lasts_call _ _).trans (lasts_note _ _)
    | ok _ => exact lasts_call _ _

/-- Afterwards the queue is empty. -/
theorem lasts_flushIntegerCuts (t : Turn α) (e : Event α)
    (huse : t.session.settings.dual.useIntegerCuts = true) :
    t.callback.Spares (t.flushIntegerCuts e).callback ∧
      (t.flushIntegerCuts e).store.integerCuts = [] := by
  -- The queue is emptied first, so the fold is judged from the turn with an empty queue.
  have hemptied : t.callback.Spares (t.mapStore fun s => { s with integerCuts := [] }).callback :=
    ⟨rfl, rfl, .refl _, rfl, rfl, .refl _ _, fun _ => rfl, fun _ => rfl⟩
  have hflushed : Lasts (t.mapStore fun s => { s with integerCuts := [] })
      (t.store.integerCuts.foldl (flushIntegerCut e)
        (t.mapStore fun s => { s with integerCuts := [] }, 0)).1 :=
    List.foldlRecOn _ _ (motive := fun acc => Lasts _ (Prod.fst acc)) (.refl _)
      fun acc hacc indices _ => hacc.trans (lasts_flushIntegerCut e acc indices)
  simp only [flushIntegerCuts]
  split
  next hnone => exact ⟨.refl _, List.isEmpty_iff.1 hnone⟩
  · refine ⟨(hemptied.trans hflushed.toSpares).trans ?_, hflushed.queue huse rfl⟩
    -- Counting the cuts changes the count, which the settings allow here.
    refine ⟨rfl, rfl, .refl _, rfl, rfl, .refl _ _, fun _ => rfl, fun hoff => ?_⟩
    rw [hflushed.settings] at hoff
    exact absurd (hoff.symm.trans huse) Bool.false_ne_true

/-- The turn after the local solver has looked at a solution, its cuts added if they are allowed. -/
def settled (t : Turn α) (e : Event α) (c : Candidate α) : Turn α :=
  if (t.fixIntegers c).session.settings.dual.useIntegerCuts then
    (t.fixIntegers c).flushIntegerCuts e
  else t.fixIntegers c

/-- Cuts that the local solver leads to do not stay in the queue. -/
theorem lasts_settled (t : Turn α) (e : Event α) (c : Candidate α) : Lasts t (t.settled e c) := by
  have hfixed := spares_fixIntegers t c
  unfold settled
  split
  next huse =>
    obtain ⟨hflushed, hempty⟩ := lasts_flushIntegerCuts (t.fixIntegers c) e huse
    exact ⟨hfixed.trans hflushed, fun _ _ => hempty⟩
  -- Where such cuts are not added, the condition on the queue does not hold.
  next hoff =>
    refine ⟨hfixed, fun huse _ => absurd ?_ hoff⟩
    rw [show (t.fixIntegers c).session.settings = t.session.settings from hfixed.settings]
    exact huse

/-- Closing an iteration changes the iterations only. -/
theorem lasts_closeIteration (t : Turn α) (c : Candidate α) (added : Nat) :
    Lasts t (t.closeIteration c added) :=
  .of_eq rfl rfl rfl rfl rfl rfl rfl rfl rfl

/-- A cutoff is a call and a remark. -/
theorem lasts_submitCutoff (t : Turn α) (e : Event α) (primal : α) :
    Lasts t (t.submitCutoff e primal) := by
  simp only [submitCutoff]
  split
  · exact (lasts_call t _).trans (lasts_note _ _)
  · exact (lasts_call t _).trans (lasts_note _ _)

/-- The primal bound that was handed over is remembered by the callback. -/
theorem lasts_injectIncumbent (t : Turn α) (e : Event α) : Lasts t (t.injectIncumbent e) := by
  simp only [injectIncumbent]
  split
  · exact .refl _
  · refine (lasts_submitIncumbent t e t.session.bounds.primalBound).trans ?_
    refine Callback.Lasts.trans ?_ (lasts_submitCutoff _ e _)
    exact .of_eq rfl rfl rfl rfl rfl rfl rfl rfl rfl

/-- The turn in which the local solver looks at a solution that was cut off. -/
def searched (t : Turn α) (e : Event α) (objective : α) (c : Candidate α) : Turn α :=
  let (t, added) := (t.requested c).flushHyperplanes e
  let t := if added = 0 then t.note [.noHyperplane c.objective] else t
  (t.recordIteration objective c).searchPrimal c

/-- No cut is queued before the local solver is asked. -/
theorem lasts_searched (t : Turn α) (e : Event α) (objective : α) (c : Candidate α) :
    Lasts t (t.searched e objective c) := by
  have hrequested : Lasts t (t.requested c) :=
    (((lasts_enter t .generatingCuts).trans (lasts_refineInterior _)).trans
      (lasts_requestCuts _ c true)).trans (lasts_requestEpigraph _ c)
  have hflushed := hrequested.trans (lasts_flushHyperplanes _ e)
  have hnoted : Lasts t (if ((t.requested c).flushHyperplanes e).2 = 0 then
      ((t.requested c).flushHyperplanes e).1.note [.noHyperplane c.objective]
      else ((t.requested c).flushHyperplanes e).1) := by
    split
    · exact hflushed.trans (lasts_note _ _)
    · exact hflushed
  exact (hnoted.trans (lasts_recordIteration _ objective c)).trans (lasts_searchPrimal _ c)

/-- The turn in which a solution was cut off and its iteration closed. -/
def closed (t : Turn α) (e : Event α) (objective : α) (c : Candidate α) : Turn α :=
  (((t.searched e objective c).settled e c).closeIteration c
    ((t.requested c).flushHyperplanes e).2).checkTermination

theorem cutOff_eq (t : Turn α) (e : Event α) (objective : α) (c : Candidate α) :
    t.cutOff e objective c =
      if (t.closed e objective c).callback.aborted then t.closed e objective c
      else (t.closed e objective c).injectIncumbent e := rfl

/-- Cutting off a solution, whether or not the incumbent is handed over at the end. -/
theorem lasts_cutOff (t : Turn α) (e : Event α) (objective : α) (c : Candidate α) :
    Lasts t (t.cutOff e objective c) := by
  have hclosed : Lasts t (t.closed e objective c) :=
    (((lasts_searched t e objective c).trans (lasts_settled _ e c)).trans
      (lasts_closeIteration _ c _)).trans (lasts_checkTermination _)
  rw [cutOff_eq]
  split
  · exact hclosed
  · exact hclosed.trans (lasts_injectIncumbent _ e)

/-- A solution is accepted or cut off after a check. -/
theorem lasts_considerSolution (t : Turn α) (e : Event α) (objective : α) (values : Point α) :
    Lasts t (t.considerSolution e objective values) := by
  simp only [considerSolution]
  generalize t.ensureIteration.problem.candidate values t.ensureIteration.iteration = c
  have hchecked := ((lasts_ensureIteration t).trans
    (lasts_offerSolution _ objective c)).trans (lasts_checkTermination _)
  split
  · exact hchecked
  · split
    · exact hchecked.trans (lasts_note _ _)
    · exact hchecked.trans (lasts_cutOff _ e objective c)

/-- A solution that cannot be read leaves a remark. -/
theorem lasts_integerSolution (t : Turn α) (e : Event α) : Lasts t (t.integerSolution e) := by
  simp only [integerSolution]
  split
  · exact lasts_note t _
  next objective _ =>
    split
    · exact lasts_note t _
    next values _ =>
      split
      · exact lasts_considerSolution t e objective values
      · exact lasts_note t _

/-- Two checks, and in between what is done for the kind of the event. -/
theorem lasts_active (t : Turn α) (e : Event α) : Lasts t (t.active e) := by
  have hopened := (lasts_enter t .evaluatingNode).trans (lasts_checkTermination _)
  have hdispatched : ∀ u : Turn α, Lasts u (u.dispatch e) := by
    intro u
    unfold dispatch
    split
    · exact lasts_recordProgress u e
    · exact lasts_relaxationNode u e
    · exact lasts_integerSolution u e
    · exact .refl _
  have hchecked : ∀ u : Turn α, Lasts u (if u.callback.aborted then u else u.checkTermination) := by
    intro u
    split
    · exact .refl _
    · exact lasts_checkTermination u
  simp only [active]
  split
  · exact hopened.trans (lasts_enter _ _)
  · exact (((hopened.trans (lasts_updateDualBound _ e)).trans (hdispatched _)).trans
      (hchecked _)).trans (lasts_enter _ _)

end Turn

/-- What lasts while an event is handled. -/
theorem Callback.lasts_handle [Scalar α] (c : Callback α) (e : Event α) :
    c.Lasts (c.handle e).callback := by
  -- An event is counted before anything else.
  have hcounted : c.Lasts c.counted := .of_eq rfl rfl rfl rfl rfl rfl rfl rfl rfl
  simp only [handle]
  split
  · exact .refl c
  · split
    · exact hcounted
    · exact hcounted.trans (Turn.lasts_active ⟨c.counted, []⟩ e)

end OuterApprox
