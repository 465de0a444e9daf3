import OuterApprox.Proofs.NodeCount
import OuterApprox.Proofs.NoGoodRow

/-!
# The queue of no-good cuts

No-good cuts wait in a queue until the event of an integer solution takes them. They come
from two sides: a caller may queue one at any time, and the local solver may queue one in the
very event that takes it, just before. They leave the queue at one place, which an event
reaches only if its solution could be read, was not accepted and no stop was asked for, and
only if the settings allow such cuts at all.

The account is that of any queue. What was in it and what was queued is, in order, what was
taken and what is still in it. A cut that is taken is handed over as the row that it stands
for, once, if it stands for one; it is gone in any case, whether the engine takes the row or
not. The counter of the session counts the rows that the engine took.

What a step takes is read off the queue before and after, not off the functions that empty
it, so that the account says that nothing else empties it.

## Main definitions

* `Callback.Action`, `Callback.perform`: What is done in a session.
* `Callback.deadEnd?`: The cut that the local solver leads to in an event.
* `Callback.queuedBy`, `Callback.takenBy`, `Callback.handedBy`: What a step queues, takes and
  hands over.
* `Callback.along`: All of it, in a sequence of steps.
* `Callback.Delivers`, `Callback.DeliversEvent`: The account of a queue, and what is taken in
  an event.

## Theorems

* `Tally.queue_tried`: The local solver queues a cut exactly if it is asked and finds nothing.
* `Callback.deliversEvent`: An event takes everything or nothing.
* `Callback.delivers_perform`, `Callback.delivers_performAll`: One step, and any number.
* `Callback.no_good_cuts_delivered`: Any sequence of steps.
-/

namespace OuterApprox

variable {α : Type} [Scalar α]

namespace Tally

/-- A candidate is wanted exactly if the local solver is asked about it. -/
theorem asked_lt_tried_iff (a : Tally α) (c : Candidate α) :
    a.trials.asked < (a.tried c).trials.asked ↔
      a.trials.wants a.settings.primal.fixedInteger a.problem c = true := by
  unfold tried
  dsimp only
  split
  -- It is wanted, so there is a local solver, and it is asked once more.
  next hwants =>
    have hsolver : a.trials.solver.isSome = true := by
      refine Option.isSome_iff_ne_none.2 fun hnone => ?_
      rw [a.trials.wants_eq_false_of_solver hnone] at hwants
      exact Bool.noConfusion hwants
    refine iff_of_true ?_ hwants
    rw [FixedIntegerQueue.enrol_of_wants hwants]
    simp only [FixedIntegerQueue.afterAsking, hsolver, if_true]
    exact Nat.lt_succ_self _
  next hnot =>
    rw [a.trials.asked_enrol]
    exact iff_of_false (Nat.lt_irrefl _) hnot

/-- What the local solver queues. -/
theorem queue_tried (a : Tally α) (c : Candidate α) :
    (a.tried c).queue = a.queue ++ if a.trials.asked < (a.tried c).trials.asked then
      (a.trials.outcome a.problem c).noGood?.toList else [] := by
  simp only [asked_lt_tried_iff]
  unfold tried
  dsimp only
  split
  · rfl
  · exact (List.append_nil _).symm

end Tally

namespace Callback

/-- Something that is done in a session. -/
inductive Action (α : Type) where
  /-- A no-good cut is queued. -/
  | queue (indices : List Nat)
  /-- An event is handled. -/
  | event (event : Event α)
  /-- The next search begins. -/
  | search

/-- The callback after something was done. -/
def perform (c : Callback α) : Action α → Callback α
  | .queue indices => { c with store := c.store.queueIntegerCut indices }
  | .event e => (c.handle e).callback
  | .search => start c.session c.store c.strategy

/-- The callback after several things were done. -/
def performAll (c : Callback α) (actions : List (Action α)) : Callback α :=
  actions.foldl perform c

/-- The cut that the local solver leads to in an event: it is asked about the candidate of the
    open iteration, and its answer is a dead end. -/
def deadEnd? (c : Callback α) (e : Event α) : Option (List Nat) :=
  if c.store.fixedInteger.asked < (c.handle e).store.fixedInteger.asked then
    match e.values with
    | .ok x =>
      (c.store.fixedInteger.outcome c.session.problem
        (c.session.problem.candidate x c.session.iterations.ensured.lastNumber)).noGood?
    | .error _ => none
  else none

/-- The no-good cuts that are queued. -/
def queuedBy (c : Callback α) : Action α → List (List Nat)
  | .queue indices => [indices]
  | .event e => (c.deadEnd? e).toList
  | .search => []

/-- The no-good cuts that are taken: as many as there are fewer in the queue, from its front. -/
def takenBy (c : Callback α) (a : Action α) : List (List Nat) :=
  let waiting := c.store.integerCuts ++ c.queuedBy a
  waiting.take (waiting.length - (c.perform a).store.integerCuts.length)

/-- The rows that are handed to the engine for no-good cuts, each with whether it is taken. -/
def handedBy (c : Callback α) : Action α → List (Row α × Bool)
  | .event e => (c.handle e).calls.filterMap Call.noGood?
  | _ => []

/-- What comes of several things, one after the other. -/
def along {β : Type} (f : Callback α → Action α → List β) (c : Callback α) :
    List (Action α) → List β
  | [] => []
  | a :: rest => f c a ++ along f (c.perform a) rest

/-- The account of the queue from one callback to another. -/
structure Delivers (queued taken : List (List Nat)) (handed : List (Row α × Bool))
    (c c' : Callback α) : Prop where
  /-- The problem is the same. -/
  problem : c'.session.problem = c.session.problem
  /-- The settings are the same. -/
  settings : c'.session.settings = c.session.settings
  /-- What was queued is taken from the front or is still in the queue, in order. -/
  queue : c.store.integerCuts ++ queued = taken ++ c'.store.integerCuts
  /-- A row was handed over for everything that was taken. -/
  rows : Tally.RowsOf c.session.problem.dimension taken handed
  /-- Those that the engine accepted are counted. -/
  counted : c'.session.statistics.integerCuts =
    c.session.statistics.integerCuts + handed.countP (·.2)
  /-- Nothing is taken where such cuts are not allowed. -/
  unused : c.session.settings.dual.useIntegerCuts = false → taken = []

theorem Delivers.trans {a b c : Callback α} {queued taken queued' taken' : List (List Nat)}
    {handed handed' : List (Row α × Bool)} (h : Delivers queued taken handed a b)
    (h' : Delivers queued' taken' handed' b c) :
    Delivers (queued ++ queued') (taken ++ taken') (handed ++ handed') a c where
  problem := h'.problem.trans h.problem
  settings := h'.settings.trans h.settings
  queue := by
    rw [← List.append_assoc, h.queue, List.append_assoc, h'.queue, List.append_assoc]
  rows := by
    have hrest := h'.rows
    rw [h.problem] at hrest
    exact h.rows.append hrest
  counted := by rw [h'.counted, h.counted, List.countP_append, Nat.add_assoc]
  unused hoff := by
    rw [h.unused hoff, h'.unused (by rw [h.settings]; exact hoff)]
    rfl

/-- Nothing is taken if everything stays in the queue. -/
theorem takenBy_eq_nil {c : Callback α} {a : Action α}
    (h : (c.perform a).store.integerCuts = c.store.integerCuts ++ c.queuedBy a) :
    c.takenBy a = [] := by
  simp only [takenBy, h, Nat.sub_self, List.take_zero]

/-- Everything is taken if nothing does. -/
theorem takenBy_eq {c : Callback α} {a : Action α} (h : (c.perform a).store.integerCuts = []) :
    c.takenBy a = c.store.integerCuts ++ c.queuedBy a := by
  simp only [takenBy, h, List.length_nil, Nat.sub_zero, List.take_length]

/-- A step that takes nothing and hands over nothing. -/
theorem delivers_of_kept {c : Callback α} {a : Action α}
    (hproblem : (c.perform a).session.problem = c.session.problem)
    (hsettings : (c.perform a).session.settings = c.session.settings)
    (hqueue : (c.perform a).store.integerCuts = c.store.integerCuts ++ c.queuedBy a)
    (hhanded : c.handedBy a = [])
    (hcounted : (c.perform a).session.statistics.integerCuts =
      c.session.statistics.integerCuts) :
    Delivers (c.queuedBy a) (c.takenBy a) (c.handedBy a) c (c.perform a) := by
  rw [takenBy_eq_nil hqueue, hhanded]
  exact ⟨hproblem, hsettings, hqueue.symm, .nil, hcounted, fun _ => rfl⟩

/-- An event that does not ask the local solver queues nothing. -/
theorem queuedBy_event_eq_nil {c : Callback α} {e : Event α}
    (h : (c.handle e).store.fixedInteger = c.store.fixedInteger) : c.queuedBy (.event e) = [] := by
  have hnot : ¬ c.store.fixedInteger.asked < (c.handle e).store.fixedInteger.asked := by
    rw [h]
    exact Nat.lt_irrefl _
  simp only [queuedBy, deadEnd?, if_neg hnot, Option.toList_none]

/-- The account of the queue in an event. Everything is taken, what the local solver has queued
    included, if an iteration is closed and such cuts are allowed. Nothing is taken otherwise. -/
structure DeliversEvent (c : Callback α) (e : Event α) : Prop where
  /-- The account of the queue over the event. -/
  delivers : Delivers (c.queuedBy (.event e)) (c.takenBy (.event e)) (c.handedBy (.event e)) c
    (c.perform (.event e))
  /-- What is taken, and when. -/
  taken : c.takenBy (.event e) =
    if c.session.settings.dual.useIntegerCuts = true ∧
        c.session.iterations.closedSince (c.handle e).session.iterations ≠ [] then
      c.store.integerCuts ++ c.queuedBy (.event e)
    else []

/-- An event that closes no iteration leaves the queue alone. -/
theorem deliversEvent_kept {c : Callback α} {e : Event α} {iterations : IterationLedger α}
    {read : Nat} (hnone : c.session.iterations.closedSince iterations = [])
    (h : (c.handle e).tally = { c.tally with iterations, read }) : c.DeliversEvent e := by
  have hqueue : (c.perform (.event e)).store.integerCuts =
      c.store.integerCuts ++ c.queuedBy (.event e) := by
    rw [queuedBy_event_eq_nil (congrArg Tally.trials h), List.append_nil]
    exact congrArg Tally.queue h
  have hiterations : (c.handle e).session.iterations = iterations := congrArg Tally.iterations h
  constructor
  · exact delivers_of_kept (congrArg Tally.problem h) (congrArg Tally.settings h) hqueue
      (congrArg Tally.handed h) (congrArg Tally.counted h)
  · rw [takenBy_eq_nil hqueue, hiterations, if_neg fun hcloses => hcloses.2 hnone]

/-- An event that closes one empties the queue if the settings say so. -/
theorem deliversEvent_closed {c : Callback α} {e : Event α} {iterations : IterationLedger α}
    {recorded : Nat} {trials : FixedIntegerQueue α} {m : Tally α}
    (hcloses : c.session.iterations.closedSince (c.handle e).session.iterations ≠ [])
    (hsettled : Tally.Settled { c.tally with
      iterations, recorded, trials
      queue := c.store.integerCuts ++ c.queuedBy (.event e) } m)
    (h : (c.handle e).tally = { m with iterations := m.iterations.closeLast }) :
    c.DeliversEvent e := by
  unfold Tally.Settled at hsettled
  split at hsettled
  -- Such cuts are allowed: the queue is empty afterwards, and everything in it was taken.
  next huse =>
    obtain ⟨rows, hflushed⟩ := hsettled
    rw [hflushed.result] at h
    have hempty : (c.perform (.event e)).store.integerCuts = [] := congrArg Tally.queue h
    have hhanded : c.handedBy (.event e) = rows := congrArg Tally.handed h
    constructor
    · rw [takenBy_eq hempty, hhanded]
      refine ⟨congrArg Tally.problem h, congrArg Tally.settings h, ?_, hflushed.rows,
        congrArg Tally.counted h, fun hoff => ?_⟩
      · rw [hempty, List.append_nil]
      · exact absurd (hoff.symm.trans huse) Bool.false_ne_true
    · rw [takenBy_eq hempty, if_pos ⟨huse, hcloses⟩]
  -- They are not allowed, and the queue stays as it is.
  next hoff =>
    rw [hsettled] at h
    have hqueue : (c.perform (.event e)).store.integerCuts =
        c.store.integerCuts ++ c.queuedBy (.event e) := congrArg Tally.queue h
    constructor
    · exact delivers_of_kept (congrArg Tally.problem h) (congrArg Tally.settings h) hqueue
        (congrArg Tally.handed h) (congrArg Tally.counted h)
    · rw [takenBy_eq_nil hqueue, if_neg fun hcloses => hoff hcloses.1]

theorem deliversEvent (c : Callback α) (e : Event α) : c.DeliversEvent e := by
  have hnone := c.session.iterations.closedSince_self
  cases c.handles e with
  | kept _ h => exact deliversEvent_kept hnone h
  | read n _ h => exact deliversEvent_kept hnone h
  -- Nothing is closed at a node relaxation, so nothing is taken.
  | relaxed n _ h =>
      have hrelaxed : c.session.iterations.closedSince
          (c.session.iterations.modifyLast (·.relaxedBy n)) = [] :=
        IterationLedger.closedSince_modifyLast _ fun _ => ⟨rfl, rfl⟩
      exact deliversEvent_kept hrelaxed h
  | opened _ h =>
      exact deliversEvent_kept ((IterationLedger.closedSince_ensured _ _).trans hnone) h
  | closed x change a m hread hvalues hchange ha hsettled h =>
      have hiterations : (c.handle e).session.iterations =
          (c.session.iterations.ensured.modifyLast change).closeLast :=
        Tally.Settled.iterations_closed ha hsettled h
      have hcloses : c.session.iterations.closedSince (c.handle e).session.iterations ≠ [] := by
        obtain ⟨it, -, hclosed⟩ := IterationLedger.closedSince_closeLast
          (IterationLedger.KeepsClosed.refl c.session.iterations).keepsRecords hchange
        rw [hiterations]
        exact hclosed ▸ List.append_ne_nil_of_right_ne_nil _ (List.cons_ne_nil it [])
      generalize hcandidate : c.tally.problem.candidate x c.tally.iterations.ensured.lastNumber =
        candidate at hsettled
      -- The local solver was asked in this event if it was asked about this candidate.
      have htrials : (c.handle e).store.fixedInteger = (a.tried candidate).trials := by
        rw [show (c.handle e).store.fixedInteger = m.trials from congrArg Tally.trials h,
          hsettled.eq]
      have hqueue : (a.tried candidate).queue = c.store.integerCuts ++ c.queuedBy (.event e) := by
        rw [a.queue_tried, ← htrials, queuedBy, deadEnd?, hvalues, ha, apply_ite Option.toList,
          ← hcandidate]
        rfl
      rw [a.tried_eq, hqueue, ha] at hsettled
      exact deliversEvent_closed hcloses hsettled h

/-- Queueing a cut and beginning a search take nothing. -/
theorem delivers_perform (c : Callback α) (a : Action α) :
    Delivers (c.queuedBy a) (c.takenBy a) (c.handedBy a) c (c.perform a) := by
  cases a with
  | queue indices => exact delivers_of_kept rfl rfl rfl rfl rfl
  | event e => exact (c.deliversEvent e).delivers
  | search => exact delivers_of_kept rfl rfl (List.append_nil _).symm rfl rfl

theorem delivers_performAll (c : Callback α) (actions : List (Action α)) :
    Delivers (c.along queuedBy actions) (c.along takenBy actions) (c.along handedBy actions) c
      (c.performAll actions) := by
  induction actions generalizing c with
  | nil => exact ⟨rfl, rfl, List.append_nil _, .nil, rfl, fun _ => rfl⟩
  | cons a rest ih => exact (c.delivers_perform a).trans (ih _)

/-- No-good cuts are handed over once and counted exactly. Take any callback, and any sequence of
    cuts that are queued, events with any answers, and new searches in the same session. All cuts
    that were in the queue or are queued, by a caller or by the local solver, are those that are
    taken, in order, and those that are still in the queue. For each cut that is taken and is
    valid, one row is handed to the engine, which is the row of that cut, in the same order; for
    no other cut is a row handed over. The counter grows by the number of those rows that the
    engine takes. If the settings do not allow no-good cuts, none is taken; if they do, an event
    that closes an iteration takes them all. -/
theorem no_good_cuts_delivered (c : Callback α) (actions : List (Action α)) :
    let queued := c.along queuedBy actions
    let taken := c.along takenBy actions
    let handed := c.along handedBy actions
    let c' := c.performAll actions
    let n := c.session.problem.dimension
    c.store.integerCuts ++ queued = taken ++ c'.store.integerCuts ∧
    List.Forall₂ (fun indices row => noGoodRow n indices = some row.1)
      (taken.filter fun indices => indices ≠ [] ∧ ∀ i ∈ indices, i < n) handed ∧
    c'.session.statistics.integerCuts =
      c.session.statistics.integerCuts + handed.countP (·.2) ∧
    (c.session.settings.dual.useIntegerCuts = false → taken = []) ∧
    ∀ e : Event α, c'.takenBy (.event e) =
      if c.session.settings.dual.useIntegerCuts = true ∧
          c'.session.iterations.closedSince (c'.handle e).session.iterations ≠ [] then
        c'.store.integerCuts ++ c'.queuedBy (.event e)
      else [] := by
  intro queued taken handed c' n
  have hdelivers := c.delivers_performAll actions
  -- The rows are those of the assignments that make one.
  have hvalid : (taken.filter fun indices => indices ≠ [] ∧ ∀ i ∈ indices, i < n) =
      taken.filter fun indices => (noGoodRow n indices : Option (Row α)).isSome := by
    refine List.filter_congr fun indices _ => ?_
    rw [Bool.eq_iff_iff, decide_eq_true_iff, isSome_noGoodRow_iff]
  refine ⟨hdelivers.queue, ?_, hdelivers.counted, hdelivers.unused, fun e => ?_⟩
  · rw [hvalid]
    exact hdelivers.rows
  · rw [← hdelivers.settings]
    exact (c'.deliversEvent e).taken

end Callback

namespace DeadEnds

/-- Two binaries that are not to be one both. -/
def problem : Problem Float :=
  (((Problem.ofObjective (.affine ⟨[(0, -1.0)], 0.0⟩ .minimize)).addVariable
    "x" 0.0 1.0 .binary).addVariable "y" 0.0 1.0 .binary).addConstraint
    ⟨"cap", Affine.toFunction ⟨[(0, 1.0), (1, 1.0)], 0.0⟩, 1.5, true⟩

/-- The local solver is asked about every candidate, and finds nothing. -/
def callback (allowed : Bool) : Callback Float :=
  let base : Settings Float := Settings.withCuttingPlanes
  .start
    { problem
      settings :=
        { base with
          dual := { base.dual with useIntegerCuts := allowed }
          primal := { base.primal with fixedInteger := .always } }
      bounds := .fresh .minimize Settings.standard.termination
      iterations := .empty
      statistics := {}
      clock := .still ⟨0⟩
      journal := #[] }
    { CutStore.empty with fixedInteger := FixedIntegerQueue.empty.install fun _ _ _ => none }
    .cuttingPlane

/-- Both binaries are one. -/
def solution : Event Float :=
  { Event.blank .integerSolution with objective := .ok (-1.0), values := .ok [1.0, 1.0] }

/-- A cut that has no row is queued, and the engine takes no row of the first event and all rows
    of the second one. -/
def actions : List (Callback.Action Float) :=
  [.queue [5],
   .event { solution with onRow := fun _ _ => .error (.notAvailable "row") },
   .queue [1],
   .search,
   .event solution]

/-- Of the four cuts one has no row, one has a row that is refused, and two are counted. If such
    cuts are not allowed, all four are still in the queue. -/
theorem no_good_cuts_delivered_deadEnds :
    (callback true).along Callback.queuedBy actions = [[5], [0, 1], [1], [0, 1]] ∧
      (callback true).along Callback.takenBy actions = [[5], [0, 1], [1], [0, 1]] ∧
      ((callback true).performAll actions).store.integerCuts = [] ∧
      ((callback true).along Callback.handedBy actions).map (·.2) = [false, true, true] ∧
      ((callback true).performAll actions).session.statistics.integerCuts = 2 ∧
      (callback false).along Callback.takenBy actions = [] ∧
      ((callback false).performAll actions).store.integerCuts = [[5], [0, 1], [1], [0, 1]] := by
  have hqueued : (callback true).along Callback.queuedBy actions = [[5], [0, 1], [1], [0, 1]] := by
    decide +kernel
  have hqueued' : (callback false).along Callback.queuedBy actions =
      [[5], [0, 1], [1], [0, 1]] := by decide +kernel
  have hempty : ((callback true).performAll actions).store.integerCuts = [] := by decide +kernel
  have hhanded : ((callback true).along Callback.handedBy actions).map (·.2) =
      [false, true, true] := by decide +kernel
  have htwo : ((callback true).along Callback.handedBy actions).countP (·.2) = 2 := by
    decide +kernel
  -- Once with such cuts and once without, over the same actions.
  obtain ⟨hqueue, -, hcounted, -, -⟩ := (callback true).no_good_cuts_delivered actions
  obtain ⟨hqueue', -, -, hunused, -⟩ := (callback false).no_good_cuts_delivered actions
  have htaken := hunused rfl
  rw [hqueued, hempty, List.append_nil] at hqueue
  rw [htaken, hqueued', List.nil_append] at hqueue'
  rw [htwo] at hcounted
  exact ⟨hqueued, hqueue.symm, hempty, hhanded, hcounted, htaken, hqueue'.symm⟩

end DeadEnds

end OuterApprox
