import OuterApprox.Proofs.ClosedIterations
import OuterApprox.Proofs.Tally
import Mathlib.Algebra.GroupWithZero.Nat
import Mathlib.Data.List.Chain
import Mathlib.Data.List.Induction

/-!
# Nodes of closed iterations

An engine reports how many nodes it has explored in the whole search, and reports that in
events of their own. An iteration has the nodes since the iteration before, and they are
written into it in the event of an integer solution. In between the callback remembers what
it read last. So each iteration has a difference of two reports that were read at some time
before, and the difference is cut off at zero, because nothing says that the engine counts
upwards.

If it does, no node is lost and none is counted twice: the counts of the iterations that were
closed add up to what was recorded last, less what was recorded when the callback was
created. Reports that come after the last iteration was closed are in neither of the two. An
event that is left early, at whichever place, changes neither, because recording and closing
are done together (`Tally.Handles.closed`).

Which iterations a callback closed is read off the ledgers before and after: those that are
closed now and were not closed before. That closed iterations stay in their places is what
makes this notion additive.

## Main definitions

* `IterationLedger.closedSince`: The iterations that were closed since an earlier ledger.
* `Callback.reads`: The reports that are read in a list of events.
* `Callback.NodesAccounted`: The account of nodes after a list of events.

## Theorems

* `IterationLedger.closedSince_append`: The last iteration is one of them or not.
* `IterationLedger.closedSince_closeLast`: Closing an iteration.
* `Callback.nodes_handle`: An event closes no iteration and records nothing, or closes one
  with the nodes since the last time.
* `Callback.NodesAccounted.concat`, `Callback.nodesAccounted`: The account after one more event
  and after any events.
* `Callback.explored_nodes_accounted`: No node is lost and none is counted twice.
-/

namespace OuterApprox

variable {α : Type}

namespace IterationLedger

/-- The iterations that are closed, and were not in an earlier ledger. -/
def closedSince (earlier l : IterationLedger α) : List (Iteration α) :=
  (l.iterations.zipIdx.filter fun (it, k) =>
    it.closed && !(earlier.iterations[k]?.any (·.closed))).map Prod.fst

theorem closedSince_append (earlier : IterationLedger α) (init : List (Iteration α))
    (it : Iteration α) (n : Nat) :
    earlier.closedSince ⟨init ++ [it], n⟩ = earlier.closedSince ⟨init, n⟩ ++
      if it.closed && !(earlier.iterations[init.length]?.any (·.closed)) then [it] else [] := by
  simp only [closedSince, List.zipIdx_append, List.filter_append, List.map_append, Nat.zero_add,
    List.zipIdx_singleton, List.filter_singleton]
  cases it.closed && !(earlier.iterations[init.length]?.any (·.closed)) <;> rfl

/-- Counting hyperplanes closes no iteration. -/
theorem explored_closedSince_modifyLast (earlier l : IterationLedger α)
    {f : Iteration α → Iteration α}
    (hf : ∀ it, (f it).closed = it.closed ∧ (f it).explored = it.explored) :
    (earlier.closedSince (l.modifyLast f)).map (·.explored) =
      (earlier.closedSince l).map (·.explored) := by
  obtain ⟨n, rfl⟩ | ⟨init, it, n, rfl⟩ := l.empty_or_append
  · rfl
  · obtain ⟨hclosed, hexplored⟩ := hf it
    rw [modifyLast_append, closedSince_append, closedSince_append, hclosed, List.map_append,
      List.map_append]
    split
    · simp only [List.map_cons, List.map_nil, hexplored]
    · rfl

theorem closedSince_ensured [Scalar α] (earlier l : IterationLedger α) :
    earlier.closedSince l.ensured = earlier.closedSince l := by
  obtain ⟨-, heq⟩ | ⟨_, _, _, -, -, heq⟩ := l.ensured_cases
  · rw [heq, closedSince_append]
    exact List.append_nil _
  · rw [heq]

theorem closedSince_self (l : IterationLedger α) : l.closedSince l = [] := by
  unfold closedSince
  rw [List.map_eq_nil_iff, List.filter_eq_nil_iff]
  rintro ⟨it, k⟩ hmem
  have hat : l.iterations[k]? = some it := List.mem_zipIdx_iff_getElem?.1 hmem
  simp only [hat, Option.any_some, Bool.and_not_self, Bool.false_eq_true, not_false_eq_true]

theorem closedSince_modifyLast (l : IterationLedger α) {f : Iteration α → Iteration α}
    (hf : ∀ it, (f it).closed = it.closed ∧ (f it).explored = it.explored) :
    l.closedSince (l.modifyLast f) = [] := by
  have hmap := l.explored_closedSince_modifyLast l hf
  rw [closedSince_self, List.map_nil, List.map_eq_nil_iff] at hmap
  exact hmap

/-- Closing an iteration adds that one, if the ones that were closed earlier still are. -/
theorem closedSince_closeLast [Scalar α] {earlier l : IterationLedger α}
    (h : earlier.KeepsRecords l) {f : Iteration α → Iteration α} {n : Nat}
    (hf : ∀ it, (f it).closed = it.closed ∧ (f it).explored = n) :
    ∃ it : Iteration α, it.explored = n ∧
      earlier.closedSince (l.ensured.modifyLast f).closeLast = earlier.closedSince l ++ [it] := by
  obtain ⟨init, it, m, hensured, hopen⟩ :
      ∃ init it m, l.ensured = ⟨init ++ [it], m⟩ ∧ it.closed = false := by
    obtain ⟨-, heq⟩ | ⟨init, it, m, rfl, hopen, heq⟩ := l.ensured_cases
    · exact ⟨_, _, _, heq, rfl⟩
    · exact ⟨_, _, _, heq, hopen⟩
  -- What was closed earlier is closed now, and the iteration at this place is not.
  have hnot : (earlier.iterations[init.length]?.any (·.closed)) = false := by
    have hkept := h.trans (keepsClosed_ensured l).keepsRecords
    cases hat : earlier.iterations[init.length]? with
    | none => rfl
    | some old =>
        rw [Option.any_some]
        refine eq_false_of_ne_true fun hclosed => ?_
        obtain ⟨count, mark, hnow⟩ := hkept _ old hat hclosed
        rw [hensured, List.getElem?_concat_length] at hnow
        obtain rfl := Option.some.inj hnow
        exact Bool.noConfusion (hopen.symm.trans hclosed)
  -- The one iteration that is closed now and was not before.
  refine ⟨{ f it with closed := true }, (hf it).2, ?_⟩
  have hbefore := closedSince_ensured earlier l
  rw [hensured, closedSince_append, hopen, Bool.false_and, if_neg Bool.false_ne_true,
    List.append_nil] at hbefore
  rw [hensured, modifyLast_append, closeLast_append, closedSince_append, hnot, ← hbefore]
  rfl

end IterationLedger

namespace Callback

variable [Scalar α]

/-- The reports that are read in a list of events. -/
def reads (c : Callback α) : List (Event α) → List Nat
  | [] => []
  | e :: rest => (c.read? e).toList ++ reads (c.handle e).callback rest

theorem reads_concat (c : Callback α) (events : List (Event α)) (e : Event α) :
    c.reads (events ++ [e]) = c.reads events ++ ((c.after events).read? e).toList := by
  induction events generalizing c with
  | nil => exact List.append_nil _
  | cons first rest ih =>
      rw [List.cons_append, reads, reads, ih, List.append_assoc]
      rfl

/-- The latest report is the one of the last event, if it has one that is read. -/
theorem latest_concat (c : Callback α) (events : List (Event α)) (e : Event α) (n : Nat) :
    (c.reads (events ++ [e])).getLast?.getD n =
      ((c.after events).read? e).getD ((c.reads events).getLast?.getD n) := by
  rw [reads_concat]
  cases (c.after events).read? e with
  | none => rw [Option.toList_none, List.append_nil, Option.getD_none]
  | some n => rw [Option.toList_some, List.getLast?_concat, Option.getD_some, Option.getD_some]

/-- What was read last is what an event read, if it did. -/
theorem explored_handle (c : Callback α) (e : Event α) :
    (c.handle e).callback.explored = (c.read? e).getD c.explored := by
  cases c.handles e with
  | kept hread h | read _ hread h | relaxed _ hread h | opened hread h =>
      rw [hread]
      exact congrArg Tally.read h
  | closed x change a m hread hvalues hchange ha hsettled h =>
      obtain ⟨-, hkept, -⟩ := hsettled.of_tried
      rw [hread]
      exact ((congrArg Tally.read h).trans hkept).trans (congrArg Tally.read ha)

/-- An event closes no iteration and records nothing, or it closes one with the nodes since the
    last time and records those that were read last. -/
theorem nodes_handle (c : Callback α) (e : Event α) :
    let c' := (c.handle e).callback
    (c'.session.statistics.explored = c.session.statistics.explored ∧
      ∀ earlier : IterationLedger α,
        (earlier.closedSince c'.session.iterations).map (·.explored) =
          (earlier.closedSince c.session.iterations).map (·.explored)) ∨
    (c'.session.statistics.explored = c.explored ∧
      ∀ earlier : IterationLedger α, earlier.KeepsRecords c.session.iterations →
        ∃ it : Iteration α, it.explored = c.explored - c.session.statistics.explored ∧
          earlier.closedSince c'.session.iterations =
            earlier.closedSince c.session.iterations ++ [it]) := by
  intro c'
  -- Only a solution that is cut off closes an iteration.
  cases c.handles e with
  | kept hread h | read n hread h =>
      have hiterations : c'.session.iterations = c.session.iterations := congrArg Tally.iterations h
      exact .inl ⟨congrArg Tally.recorded h, fun earlier => by rw [hiterations]⟩
  | relaxed n hread h =>
      have hiterations : c'.session.iterations = c.session.iterations.modifyLast (·.relaxedBy n) :=
        congrArg Tally.iterations h
      refine .inl ⟨congrArg Tally.recorded h, fun earlier => ?_⟩
      rw [hiterations]
      exact earlier.explored_closedSince_modifyLast _ fun it => ⟨rfl, rfl⟩
  | opened hread h =>
      have hiterations : c'.session.iterations = c.session.iterations.ensured :=
        congrArg Tally.iterations h
      refine .inl ⟨congrArg Tally.recorded h, fun earlier => ?_⟩
      rw [hiterations, earlier.closedSince_ensured]
  | closed x change a m hread hvalues hchange ha hsettled h =>
      have hiterations : c'.session.iterations =
          (c.session.iterations.ensured.modifyLast change).closeLast :=
        Tally.Settled.iterations_closed ha hsettled h
      obtain ⟨-, -, hrecorded⟩ := hsettled.of_tried
      refine .inr ⟨?_, fun earlier hearlier => ?_⟩
      · exact ((congrArg Tally.recorded h).trans hrecorded).trans (congrArg Tally.recorded ha)
      · rw [hiterations]
        exact IterationLedger.closedSince_closeLast hearlier hchange

theorem after_concat (c : Callback α) (events : List (Event α)) (e : Event α) :
    c.after (events ++ [e]) = ((c.after events).handle e).callback :=
  List.foldl_append ..

theorem keepsRecords_after (c : Callback α) (events : List (Event α)) :
    c.session.iterations.KeepsRecords (c.after events).session.iterations := by
  induction events generalizing c with
  | nil => exact (IterationLedger.KeepsClosed.refl _).keepsRecords
  | cons e rest ih => exact (Incident.event c e).keepsRecords.trans (ih _)

/-- The nodes that a callback has accounted for after a list of events. -/
structure NodesAccounted (c : Callback α) (events : List (Event α)) : Prop where
  /-- The latest report is remembered, and there was none before the first one. -/
  latest : (c.after events).explored = (c.reads events).getLast?.getD c.explored
  /-- No more was recorded than was reported. -/
  le : (c.after events).session.statistics.explored ≤ (c.after events).explored
  /-- What was recorded is the sum over the iterations that were closed. -/
  sum : c.session.statistics.explored +
      ((c.session.iterations.closedSince (c.after events).session.iterations).map
        (·.explored)).sum = (c.after events).session.statistics.explored
  /-- It was recorded in the event that closed the last one of them. -/
  recorded :
    c.session.iterations.closedSince (c.after events).session.iterations = [] ∧
      (c.after events).session.statistics.explored = c.session.statistics.explored ∨
    ∃ before e rest, events = before ++ e :: rest ∧
      (c.after before).session.iterations.closedSince
        (c.after (before ++ [e])).session.iterations ≠ [] ∧
      (c.after (before ++ [e])).session.iterations.closedSince
        (c.after events).session.iterations = [] ∧
      (c.after events).session.statistics.explored =
        (c.reads before).getLast?.getD c.explored

/-- Before any event nothing was closed. -/
theorem nodesAccounted_nil (c : Callback α)
    (hstart : c.explored = c.session.statistics.explored) : c.NodesAccounted [] := by
  have hnone : c.session.iterations.closedSince (c.after []).session.iterations = [] :=
    c.session.iterations.closedSince_self
  refine ⟨rfl, hstart ▸ Nat.le_refl _, ?_, .inl ⟨hnone, rfl⟩⟩
  rw [hnone]
  rfl

/-- One more event keeps the account, if a report that is read in it is no smaller than the one
    before. -/
theorem NodesAccounted.concat {c : Callback α} {events : List (Event α)}
    (h : c.NodesAccounted events) {e : Event α}
    (hup : ∀ n ∈ (c.after events).read? e, (c.after events).explored ≤ n) :
    c.NodesAccounted (events ++ [e]) := by
  have hexplored := (c.after events).explored_handle e
  have hnodes := (c.after events).nodes_handle e
  rw [← after_concat] at hexplored hnodes
  have hlatest : (c.after (events ++ [e])).explored =
      (c.reads (events ++ [e])).getLast?.getD c.explored := by
    rw [hexplored, latest_concat, h.latest]
  -- Numbers that the engine reports do not go down.
  have hgrown : (c.after events).explored ≤ (c.after (events ++ [e])).explored := by
    rw [hexplored]
    cases hread : (c.after events).read? e with
    | none => exact Nat.le_refl _
    | some n => exact hup n hread
  obtain ⟨hrecorded, hsame⟩ | ⟨hrecorded, hclosed⟩ := hnodes
  · -- Where nothing was closed since, nothing is now.
    have hnil : ∀ earlier : IterationLedger α,
        earlier.closedSince (c.after events).session.iterations = [] →
        earlier.closedSince (c.after (events ++ [e])).session.iterations = [] := by
      intro earlier hnone
      have hmap := hsame earlier
      rw [hnone, List.map_nil, List.map_eq_nil_iff] at hmap
      exact hmap
    refine ⟨hlatest, hrecorded ▸ h.le.trans hgrown, ?_, ?_⟩
    · rw [hsame, hrecorded]
      exact h.sum
    · rw [hrecorded]
      obtain ⟨hnone, hstill⟩ | ⟨before, e', rest, rfl, hcloses, hnone, hstill⟩ := h.recorded
      · exact .inl ⟨hnil _ hnone, hstill⟩
      · refine .inr ⟨before, e', rest ++ [e], ?_, hcloses, hnil _ hnone, hstill⟩
        rw [List.append_assoc, List.cons_append]
  · -- One more iteration has the nodes that were read but not recorded.
    obtain ⟨it, hit, hadded⟩ := hclosed _ (c.keepsRecords_after events)
    refine ⟨hlatest, hrecorded ▸ hgrown, ?_, .inr ⟨events, e, [], rfl, ?_, ?_, ?_⟩⟩
    · have hle := h.le
      have hsum := h.sum
      rw [hadded, hrecorded, List.map_append, List.sum_append, List.map_singleton,
        List.sum_singleton, hit]
      omega
    · obtain ⟨it, -, hnew⟩ := hclosed _ (IterationLedger.KeepsClosed.refl _).keepsRecords
      rw [hnew]
      exact List.append_ne_nil_of_right_ne_nil _ (List.cons_ne_nil _ _)
    · exact IterationLedger.closedSince_self _
    · exact hrecorded.trans h.latest

/-- Reports that do not go down, and begin with what was recorded, are accounted for. -/
theorem nodesAccounted (c : Callback α) (hstart : c.explored = c.session.statistics.explored)
    (events : List (Event α)) (hreads : (c.explored :: c.reads events).IsChain (· ≤ ·)) :
    c.NodesAccounted events := by
  induction events using List.reverseRecOn with
  | nil => exact c.nodesAccounted_nil hstart
  | append_singleton events e ih =>
      rw [reads_concat, ← List.cons_append, List.isChain_append] at hreads
      obtain ⟨hbefore, -, hnext⟩ := hreads
      have haccounted := ih hbefore
      refine haccounted.concat fun n hread => ?_
      rw [Option.mem_def] at hread
      rw [hread] at hnext
      rw [haccounted.latest]
      exact hnext _ List.getLast?_cons n rfl

/-- No node is lost and none is counted twice. Take a callback that is created in any session
    and handles any events, and suppose that the reports of explored nodes that it reads do not
    go down, from what was recorded before it was created. Then what is recorded at any time
    is that and the sum over the iterations that it closed since. If there is such an iteration,
    it is the latest report that was read before the last of them was closed, or what was
    recorded in the beginning if no report was read by then. If there is none, it is that in any
    case. -/
theorem explored_nodes_accounted (session : Session α) (store : CutStore α)
    (strategy : CutStrategy) (events : List (Event α))
    (hreads : (session.statistics.explored ::
      (start session store strategy).reads events).IsChain (· ≤ ·)) :
    let c := start session store strategy
    let closed := fun before after =>
      (c.after before).session.iterations.closedSince (c.after after).session.iterations
    let recorded := (c.after events).session.statistics.explored
    session.statistics.explored + ((closed [] events).map (·.explored)).sum = recorded ∧
    (closed [] events = [] ∧ recorded = session.statistics.explored ∨
      ∃ before e rest, events = before ++ e :: rest ∧
        closed before (before ++ [e]) ≠ [] ∧ closed (before ++ [e]) events = [] ∧
        recorded = ((c.reads before).getLast?).getD session.statistics.explored) := by
  intro c closed recorded
  have haccounted := c.nodesAccounted rfl events hreads
  exact ⟨haccounted.sum, haccounted.recorded⟩

end Callback

namespace LateReports

/-- A variable between zero and three that is not to be above one and a half. -/
def problem : Problem Float :=
  ((Problem.ofObjective (.affine ⟨[(0, -1.0)], 0.0⟩ .minimize)).addVariable
    "x" 0.0 3.0 .integer).addConstraint ⟨"cap", Affine.toFunction ⟨[(0, 1.0)], 0.0⟩, 1.5, true⟩

/-- A session in which three nodes were recorded. -/
def session : Session Float where
  problem
  settings := Settings.withCuttingPlanes
  bounds := .fresh .minimize Settings.standard.termination
  iterations := .empty
  statistics := { explored := 3 }
  clock := .still ⟨0⟩
  journal := #[]

/-- A report of seven nodes and a solution that is cut off, then a report that cannot be read
    and a report of twelve nodes. -/
def events : List (Event Float) :=
  [{ Event.blank .progress with explored := .ok 7 },
   { Event.blank .integerSolution with objective := .ok (-2.0), values := .ok [2.0] },
   Event.blank .progress,
   { Event.blank .progress with explored := .ok 12 }]

def callback : Callback Float := .start session .empty .cuttingPlane

/-- The iteration has four nodes, and the last report is not recorded. -/
theorem explored_nodes_accounted_late :
    (3 :: callback.reads events).IsChain (· ≤ ·) ∧ callback.reads events = [7, 12] ∧
      ((callback.after []).session.iterations.closedSince
        (callback.after events).session.iterations).map (·.explored) = [4] ∧
      (callback.after events).session.statistics.explored = 3 + 4 := by
  have hreads : callback.reads events = [7, 12] := by decide +kernel
  have hclosed : ((callback.after []).session.iterations.closedSince
      (callback.after events).session.iterations).map (·.explored) = [4] := by decide +kernel
  have hchain : (3 :: callback.reads events).IsChain (· ≤ ·) := by
    rw [hreads]
    decide
  obtain ⟨hsum, -⟩ := Callback.explored_nodes_accounted session .empty .cuttingPlane events hchain
  refine ⟨hchain, hreads, hclosed, ?_⟩
  dsimp only at hsum
  -- The sum is taken over the one iteration that was closed.
  rw [show Callback.start session .empty .cuttingPlane = callback from rfl, hclosed] at hsum
  exact hsum.symm

end LateReports

end OuterApprox
