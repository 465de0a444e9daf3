import OuterApprox.Engine.Scripted
import OuterApprox.Proofs.Bookkeeping
import OuterApprox.Proofs.Course

/-!
# Closed iterations

What happens to an iteration once it is closed. Only the last iteration of the
ledger can be changed, and it is changed without a look at whether it is closed. An
integer solution opens a new iteration first, if the last one is closed; a node
relaxation does not, and neither does the mark that a retry or a repair leaves. So
between the closing of an iteration and the opening of the next one, the closed one
goes on counting hyperplanes from node relaxations and may be marked.

This is all that can happen to it. The history of a session, in which callbacks
handle searches and the master is solved and repaired in any order, is read as a list
of incidents, the events and the marks, each of which leads from one ledger to the
next. An incident spoils a closed iteration if the engine takes a hyperplane for a
node relaxation, or if the mark is a new one, while the last iteration is closed.
Closed iterations keep all they hold at every later moment exactly if there is no
such incident, and whatever happens they keep everything but their counts and the
mark.

## Main definitions

* `IterationLedger.KeepsClosed`, `IterationLedger.KeepsRecords`: Closed iterations
  stay as they are, and stay but for counts and mark.
* `Incident`, `Incident.Leads`, `Incident.Spoils`: What can change an iteration
  ledger, a history of that, and what changes a closed iteration.
* `Act`, `Master.perform`, `Master.course`, `Master.ledgers`: A session as a list
  of acts, its incidents, and the ledgers at all its moments.

## Theorems

* `IterationLedger.keepsClosed_modifyLast_iff`: A closed iteration is kept by a
  change that does nothing to it.
* `Incident.keepsClosed_iff`: One incident keeps closed iterations unless it
  spoils one.
* `Incident.Leads.pairwise_iff`: What holds between all moments is what every
  incident preserves.
* `Master.leads_course`: The incidents of a session lead from its first ledger to
  its last one.
* `Master.closed_kept_iff`: When closed iterations stay as they are.
* `LateRelaxation.closed_not_kept`: They do not always.
-/

namespace OuterApprox

variable {α σ : Type}

/-- A closed iteration after more hyperplanes were counted in it, and after a mark if
    there was one. -/
def Iteration.drifted (count : Nat) (mark : Bool) (it : Iteration α) : Iteration α :=
  { it.relaxedBy count with repaired := it.repaired || mark }

theorem Iteration.drifted_unmarked (count : Nat) (it : Iteration α) :
    it.drifted count false = it.relaxedBy count := by
  simp only [drifted, Bool.or_false]
  rfl

namespace IterationLedger

/-- Every closed iteration of the first ledger is in its place in the second one. -/
def KeepsClosed (l l' : IterationLedger α) : Prop :=
  ∀ (k : Nat) (it : Iteration α), l.iterations[k]? = some it → it.closed = true →
    l'.iterations[k]? = some it

/-- Every closed iteration of the first ledger is in its place in the second one, but for
    its counts of hyperplanes and the mark of a repair. -/
def KeepsRecords (l l' : IterationLedger α) : Prop :=
  ∀ (k : Nat) (it : Iteration α), l.iterations[k]? = some it → it.closed = true →
    ∃ count mark, l'.iterations[k]? = some (it.drifted count mark)

theorem KeepsClosed.refl (l : IterationLedger α) : l.KeepsClosed l := fun _ _ hit _ => hit

theorem KeepsClosed.trans {a b c : IterationLedger α} (h1 : a.KeepsClosed b)
    (h2 : b.KeepsClosed c) : a.KeepsClosed c :=
  fun k it hit hclosed => h2 k it (h1 k it hit hclosed) hclosed

theorem KeepsClosed.keepsRecords {l l' : IterationLedger α} (h : l.KeepsClosed l') :
    l.KeepsRecords l' := by
  intro k it hit hclosed
  refine ⟨0, false, ?_⟩
  rw [Iteration.drifted_unmarked]
  exact h k it hit hclosed

theorem KeepsRecords.trans {a b c : IterationLedger α} (h1 : a.KeepsRecords b)
    (h2 : b.KeepsRecords c) : a.KeepsRecords c := by
  intro k it hit hclosed
  obtain ⟨m, mark, hfirst⟩ := h1 k it hit hclosed
  obtain ⟨n, mark', hsecond⟩ := h2 k _ hfirst hclosed
  refine ⟨m + n, mark || mark', ?_⟩
  have hboth : (it.drifted m mark).drifted n mark' = it.drifted (m + n) (mark || mark') := by
    simp only [Iteration.drifted, Iteration.relaxedBy, Iteration.addHyperplanes, Bool.or_assoc,
      Nat.add_assoc]
  rw [← hboth]
  exact hsecond

/-- A ledger that differs in open iterations at the end keeps the closed ones. -/
theorem KeepsClosed.of_append {l l' : IterationLedger α} {init rest rest' : List (Iteration α)}
    (hl : l.iterations = init ++ rest) (hl' : l'.iterations = init ++ rest')
    (hopen : ∀ it ∈ rest, it.closed = false) : l.KeepsClosed l' := by
  intro k it hit hclosed
  have hbefore : k < init.length := by
    refine Nat.lt_of_not_le fun hle => ?_
    rw [hl, List.getElem?_append_right hle] at hit
    rw [hopen it (List.mem_of_getElem? hit)] at hclosed
    exact Bool.noConfusion hclosed
  rw [hl, List.getElem?_append_left hbefore] at hit
  rw [hl', List.getElem?_append_left hbefore]
  exact hit

/-- Changing the last iteration keeps closed iterations exactly if the change is none to a
    closed one. -/
theorem keepsClosed_modifyLast_iff (l : IterationLedger α) (f : Iteration α → Iteration α) :
    l.KeepsClosed (l.modifyLast f) ↔ ∀ it ∈ l.last?, it.closed = true → f it = it := by
  obtain ⟨n, rfl⟩ | ⟨init, it, n, rfl⟩ := l.empty_or_append
  · exact iff_of_true (.refl _) fun _ hmem => nomatch hmem
  · rw [modifyLast_append, last?_append]
    constructor
    · rintro h _ ⟨⟩ hclosed
      have hlast := h init.length it List.getElem?_concat_length hclosed
      rw [List.getElem?_concat_length] at hlast
      exact Option.some.inj hlast
    · intro h
      -- Only a closed last iteration can be spoilt.
      cases hclosed : it.closed with
      | true =>
          rw [h it rfl hclosed]
          exact .refl _
      | false =>
          refine .of_append rfl rfl fun it' hmem => ?_
          rw [List.mem_singleton.1 hmem]
          exact hclosed

theorem keepsRecords_modifyLast (l : IterationLedger α) {f : Iteration α → Iteration α}
    (hf : ∀ it, ∃ count mark, f it = it.drifted count mark) : l.KeepsRecords (l.modifyLast f) := by
  obtain ⟨n, rfl⟩ | ⟨init, it, n, rfl⟩ := l.empty_or_append
  · exact (KeepsClosed.refl _).keepsRecords
  · rw [modifyLast_append]
    -- Places before the last one are not touched.
    refine (forall_getElem?_concat init it).2 ⟨fun k it' hit _ => ⟨0, false, ?_⟩, fun _ => ?_⟩
    · have hbefore := (List.getElem?_eq_some_iff.1 hit).1
      rw [List.getElem?_append_left hbefore, hit, Iteration.drifted_unmarked]
      rfl
    · obtain ⟨count, mark, heq⟩ := hf it
      exact ⟨count, mark, by rw [List.getElem?_concat_length, heq]⟩

/-- Opening an iteration, if none is open, keeps the closed ones, whatever then happens to
    the open one. -/
theorem keepsClosed_closeLast_ensured [Scalar α] (l : IterationLedger α)
    (f : Iteration α → Iteration α) : l.KeepsClosed (l.ensured.modifyLast f).closeLast := by
  obtain ⟨_, heq⟩ | ⟨init, it, n, rfl, hopen, heq⟩ := l.ensured_cases
  · rw [heq, modifyLast_append, closeLast_append]
    exact .of_append (List.append_nil _).symm rfl fun _ hmem => absurd hmem List.not_mem_nil
  · rw [heq, modifyLast_append, closeLast_append]
    refine .of_append rfl rfl fun it' hmem => ?_
    rw [List.mem_singleton.1 hmem]
    exact hopen

theorem keepsClosed_ensured [Scalar α] (l : IterationLedger α) : l.KeepsClosed l.ensured := by
  obtain ⟨_, heq⟩ | ⟨_, _, _, _, _, heq⟩ := l.ensured_cases
  · rw [heq]
    exact .of_append (List.append_nil _).symm rfl fun _ hmem => absurd hmem List.not_mem_nil
  · rw [heq]
    exact .refl l

end IterationLedger

/-- Something that can change the iteration ledger of a session. -/
inductive Incident (α : Type) where
  /-- A callback handles an event. -/
  | event (callback : Callback α) (event : Event α)
  /-- A retry or a repair leaves its mark on the live iteration. -/
  | mark (ledger : IterationLedger α)

/-- The ledger before. -/
def Incident.before : Incident α → IterationLedger α
  | event c _ => c.session.iterations
  | mark l => l

/-- The incidents of a trace: its events. -/
def Trace.incidents (τ : Trace α) : List (Incident α) := τ.map fun step => .event step.1 step.2

theorem Trace.incidents_append (τ τ' : Trace α) :
    (τ ++ τ').incidents = τ.incidents ++ τ'.incidents :=
  List.map_append

/-- Something that is done in a session. -/
inductive Act (α σ : Type) where
  /-- A new callback handles the events of a search. -/
  | search (search : Search α σ)
  /-- The master is solved. -/
  | solve
  /-- The master is repaired. -/
  | repair

namespace Master

variable {E : Engine α σ}

theorem iterations_setBounds (m : Master α σ) (column : Nat) (lower upper : α) :
    (m.setBounds E column lower upper).1.session.iterations = m.session.iterations := by
  simp only [setBounds]
  split <;> rfl

theorem iterations_setAllBounds (m : Master α σ) (targets : List (Nat × α × α)) :
    (m.setAllBounds E targets).session.iterations = m.session.iterations := by
  unfold setAllBounds
  induction targets generalizing m with
  | nil => rfl
  | cons t rest ih => exact (ih _).trans (iterations_setBounds m _ _ _)

theorem iterations_readBounds (m : Master α σ) (columns : List Nat) :
    (m.readBounds E columns).1.session.iterations = m.session.iterations := by
  unfold readBounds
  refine List.foldlRecOn columns _ (motive := fun acc =>
    Master.Holds (fun s _ _ => s.iterations = m.session.iterations) (Prod.fst acc)) rfl ?_
  intro acc hacc column _
  dsimp only
  split <;> exact hacc

end Master

variable [Scalar α]

namespace Incident

/-- The ledger after. -/
def after : Incident α → IterationLedger α
  | event c e => (c.handle e).session.iterations
  | mark l => l.modifyLast fun it => { it with repaired := true }

/-- A closed iteration is changed: the engine takes a hyperplane for a node relaxation
    while the last iteration is closed, or the last iteration is closed and gets its first
    mark. -/
def Spoils : Incident α → Prop
  | event c e => e.reason = .relaxationNode ∧
      (∃ it ∈ c.session.iterations.last?, it.closed = true) ∧ (c.handle e).cuts ≠ []
  | mark l => ∃ it ∈ l.last?, it.closed = true ∧ it.repaired = false

/-- Incidents that lead from one ledger to another, each beginning where the one before
    ends. -/
def Leads : IterationLedger α → List (Incident α) → IterationLedger α → Prop
  | l, [], l' => l' = l
  | l, i :: rest, l' => i.before = l ∧ Leads i.after rest l'

theorem Leads.append {a b c : IterationLedger α} {first second : List (Incident α)}
    (h1 : Leads a first b) (h2 : Leads b second c) : Leads a (first ++ second) c := by
  induction first generalizing a with
  | nil =>
      rw [Leads] at h1
      rw [← h1]
      exact h2
  | cons i rest ih => exact ⟨h1.1, ih h1.2⟩

/-- A transitive relation holds between all earlier and all later ledgers of a history
    exactly if every incident preserves it. -/
theorem Leads.pairwise_iff {R : IterationLedger α → IterationLedger α → Prop}
    (htrans : ∀ a b c, R a b → R b c → R a c) {l l' : IterationLedger α}
    {incidents : List (Incident α)} (h : Leads l incidents l') :
    (l :: incidents.map after).Pairwise R ↔ ∀ i ∈ incidents, R i.before i.after := by
  -- A transitive relation holds along the list if it holds from each to the next.
  induction incidents generalizing l with
  | nil =>
      exact iff_of_true (List.pairwise_singleton R l) fun _ hmem => absurd hmem List.not_mem_nil
  | cons i rest ih =>
      rw [List.map_cons, List.pairwise_cons, ih h.2, ← h.1]
      constructor
      · exact fun hall => List.forall_mem_cons.2 ⟨hall.1 _ List.mem_cons_self, hall.2⟩
      intro hall
      rw [List.forall_mem_cons] at hall
      refine ⟨?_, hall.2⟩
      -- Later ledgers come after the one that the first incident left.
      have hrest := (List.pairwise_cons.1 ((ih h.2).2 hall.2)).1
      intro later hmem
      rcases List.mem_cons.1 hmem with rfl | hlater
      · exact hall.1
      · exact htrans _ _ _ hall.1 (hrest later hlater)

/-- One incident keeps the closed iterations unless it spoils one. -/
theorem keepsClosed_iff (i : Incident α) : i.before.KeepsClosed i.after ↔ ¬ i.Spoils := by
  cases i with
  | event c e =>
      have hnone : (⟨c, []⟩ : Turn α).cuts = [] := rfl
      have hbefore : (⟨c, []⟩ : Turn α).session.iterations = c.session.iterations := rfl
      simp only [before, after, Spoils]
      -- An event does one of four things to the books.
      cases c.books_handle e with
      | kept h =>
          rw [h.iterations, h.cuts, hnone, hbefore]
          exact iff_of_true (.refl _) fun hspoils => hspoils.2.2 rfl
      | relaxed n hreason hiterations hentered _ =>
          -- The live iteration counts what the engine took, which is nothing or a change.
          have hcuts : (c.handle e).cuts ≠ [] ↔ n ≠ 0 := by
            rw [← List.length_pos_iff, hentered.cuts, hnone, List.length_nil, Nat.zero_add,
              Nat.pos_iff_ne_zero]
          have hcounts : ∀ it : Iteration α, it.relaxedBy n = it ↔ n = 0 := by
            intro it
            refine ⟨fun heq => ?_, fun heq => heq ▸ rfl⟩
            have hadded : it.added + n = it.added := congrArg Iteration.added heq
            omega
          rw [hiterations, hcuts, hbefore, IterationLedger.keepsClosed_modifyLast_iff]
          constructor
          · rintro h ⟨-, ⟨it, hlast, hclosed⟩, hsome⟩
            exact hsome ((hcounts it).1 (h it hlast hclosed))
          · intro h it hlast hclosed
            refine (hcounts it).2 (Decidable.byContradiction fun hsome => ?_)
            exact h ⟨hreason, ⟨it, hlast, hclosed⟩, hsome⟩
      | opened hreason hiterations _ _ _ =>
          rw [hiterations]
          refine iff_of_true (IterationLedger.keepsClosed_ensured _) fun hspoils => ?_
          rw [hreason] at hspoils
          exact nomatch hspoils.1
      | closed _ _ _ hreason _ hiterations _ _ =>
          rw [hiterations]
          refine iff_of_true (IterationLedger.keepsClosed_closeLast_ensured _ _) fun hspoils => ?_
          rw [hreason] at hspoils
          exact nomatch hspoils.1
  -- A mark changes a closed iteration unless it is marked already.
  | mark l =>
      simp only [before, after, Spoils]
      rw [IterationLedger.keepsClosed_modifyLast_iff]
      constructor
      · rintro h ⟨it, hlast, hclosed, hunmarked⟩
        have hmarked := congrArg Iteration.repaired (h it hlast hclosed)
        exact Bool.noConfusion (hmarked.trans hunmarked)
      · intro h it hlast hclosed
        have hmarked : it.repaired = true :=
          eq_true_of_ne_false fun hunmarked => h ⟨it, hlast, hclosed, hunmarked⟩
        rw [← hmarked]

/-- Whatever an incident is, closed iterations keep all but counts and mark. -/
theorem keepsRecords (i : Incident α) : i.before.KeepsRecords i.after := by
  cases i with
  | event c e =>
      simp only [before, after]
      cases c.books_handle e with
      | kept h =>
          rw [h.iterations]
          exact (IterationLedger.KeepsClosed.refl _).keepsRecords
      -- Counting more hyperplanes is a drift that the records allow.
      | relaxed n _ hiterations _ _ =>
          rw [hiterations]
          exact IterationLedger.keepsRecords_modifyLast _ fun it =>
            ⟨n, false, (Iteration.drifted_unmarked n it).symm⟩
      | opened _ hiterations _ _ _ =>
          rw [hiterations]
          exact (IterationLedger.keepsClosed_ensured _).keepsRecords
      | closed _ change _ _ _ hiterations _ _ =>
          rw [hiterations]
          exact (IterationLedger.keepsClosed_closeLast_ensured c.session.iterations
            change).keepsRecords
  | mark l =>
      refine IterationLedger.keepsRecords_modifyLast _ fun it => ⟨0, true, ?_⟩
      simp only [Iteration.drifted, Bool.or_true]
      rfl

end Incident

/-- The events of a search lead from the ledger at its start to the one at its end. -/
theorem Search.leads_run (search : Search α σ) (c : Callback α) :
    Incident.Leads c.session.iterations (search.trace c).incidents
      (search.run c).1.session.iterations := by
  induction search generalizing c with
  | finish state result => rfl
  | report e resume ih => exact ⟨rfl, ih _ _⟩

namespace Master

variable (E : Engine α σ)

/-- The master after an act. -/
def perform (m : Master α σ) : Act α σ → Master α σ
  | .search search =>
    let r := search.run m.callback
    { m with session := r.1.session, store := r.1.store, engine := r.2.1 }
  | .solve => (m.solve E).1
  | .repair => (m.repair E).1

/-- The ledger that a retry marks when a master is solved, if there is one: that of the
    second search for the unbounded problem. -/
def marked? (m : Master α σ) : Option (IterationLedger α) :=
  let first := m.runSearch E
  let second := first.1.retryBoundedObjective E first.2
  if second.2 = .unbounded then
    (second.1.boundedColumns? E).map fun m' => (m'.runSearch E).1.session.iterations
  else none

/-- The incidents of an act. -/
def incidents (m : Master α σ) : Act α σ → List (Incident α)
  | .search search => (search.trace m.callback).incidents
  | .solve => (m.trace E).incidents ++ (m.marked? E).toList.map .mark
  | .repair => if (m.repair E).2 then [.mark m.session.iterations] else []

/-- The master after several acts. -/
def performAll (m : Master α σ) (acts : List (Act α σ)) : Master α σ :=
  acts.foldl (perform E) m

/-- The incidents of several acts. -/
def course (m : Master α σ) : List (Act α σ) → List (Incident α)
  | [] => []
  | act :: rest => m.incidents E act ++ course (m.perform E act) rest

/-- The iteration ledgers in the course of several acts: at the beginning and after every
    incident. -/
def ledgers (m : Master α σ) (acts : List (Act α σ)) : List (IterationLedger α) :=
  m.session.iterations :: (m.course E acts).map Incident.after

variable {E}

theorem iterations_recordFinalBound (m : Master α σ) (status : Status) :
    (m.recordFinalBound E status).session.iterations = m.session.iterations := by
  simp only [recordFinalBound]
  split
  · rfl
  · split
    · rfl
    · split <;> rfl

theorem leads_runSearch (m : Master α σ) :
    Incident.Leads m.session.iterations (m.searchTrace E).incidents
      (m.runSearch E).1.session.iterations := by
  have hrun := (E.search m.engine).leads_run m.callback
  simp only [runSearch]
  split <;> exact hrun

/-- The second search for an epigraph variable without bounds, if there is one. -/
theorem leads_retryBoundedObjective (m : Master α σ) (status : Status) :
    Incident.Leads m.session.iterations
      (Trace.incidents ((m.boundedObjective? E status).toList.flatMap fun m' => m'.searchTrace E))
      (m.retryBoundedObjective E status).1.session.iterations := by
  simp only [retryBoundedObjective, boundedObjective?]
  cases m.suspectObjective? status with
  | none => rfl
  | some aux =>
      have hbounds := iterations_setBounds (E := E)
        (m.note [.boundingObjective m.session.settings.dual.auxiliaryBound]) aux
        (-m.session.settings.dual.auxiliaryBound) m.session.settings.dual.auxiliaryBound
      simp only [Option.bind_some]
      generalize (m.note [.boundingObjective m.session.settings.dual.auxiliaryBound]).setBounds E
        aux (-m.session.settings.dual.auxiliaryBound) m.session.settings.dual.auxiliaryBound
        = bounded at hbounds ⊢
      -- Without the bounds there is no search, and so no incident.
      cases hdone : bounded.2 with
      | false => exact hbounds
      | true =>
          simp only [if_true, Option.toList_some, List.flatMap_singleton, Bool.not_true,
            Bool.false_eq_true, if_false]
          rw [iterations_setBounds]
          have hsearch := leads_runSearch (E := E) bounded.1
          rw [hbounds] at hsearch
          exact hsearch

/-- The second search for an unbounded problem and its mark, if there is one. -/
theorem leads_retryBoundedColumns (m : Master α σ) :
    Incident.Leads m.session.iterations
      (Trace.incidents ((m.boundedColumns? E).toList.flatMap fun m' => m'.searchTrace E) ++
        ((m.boundedColumns? E).map fun m' =>
          (m'.runSearch E).1.session.iterations).toList.map .mark)
      (m.retryBoundedColumns E).1.session.iterations := by
  simp only [retryBoundedColumns, boundedColumns?]
  split
  · rfl
  · simp only [Option.toList_some, List.flatMap_singleton, Option.map_some, List.map_cons,
      List.map_nil]
    generalize hm' : Master.setAllBounds E (note _ _) _ = m'
    -- Reading and writing bounds leaves the ledger of iterations.
    have hbounds : m'.session.iterations = m.session.iterations := by
      rw [← hm', iterations_setAllBounds]
      exact iterations_readBounds m _
    have hsearch := leads_runSearch (E := E) m'
    rw [hbounds] at hsearch
    refine hsearch.append ⟨rfl, ?_⟩
    exact congrArg (fun l => IterationLedger.modifyLast l fun it => { it with repaired := true })
      (iterations_setAllBounds _ _)

theorem iterations_relaxRow (factor : α) (acc : Master α σ × Nat) (target : Nat × α) :
    (relaxRow E factor acc target).1.session.iterations = acc.1.session.iterations := by
  simp only [relaxRow]
  split
  · rfl
  · split
    · rfl
    · split <;> rfl

theorem iterations_relaxRows (m : Master α σ) (rows : List Nat) (slacks : List α) :
    (m.relaxRows E rows slacks).session.iterations =
      m.session.iterations.modifyLast fun it => { it with repaired := true } := by
  have hrows : Holds (fun s _ _ => s.iterations = m.session.iterations)
      ((rows.zip slacks).foldl (relaxRow E m.session.settings.dual.repairSlackFactor) (m, 0)).1 := by
    refine List.foldlRecOn _ _ (motive := fun acc =>
      Holds (fun s _ _ => s.iterations = m.session.iterations) (Prod.fst acc)) rfl ?_
    intro acc hacc target _
    exact (iterations_relaxRow _ acc target).trans hacc
  exact congrArg (fun l => IterationLedger.modifyLast l fun it => { it with repaired := true })
    hrows

/-- The incidents of an act lead from the ledger before to the ledger after. -/
theorem leads_perform (m : Master α σ) (act : Act α σ) :
    Incident.Leads m.session.iterations (m.incidents E act)
      (m.perform E act).session.iterations := by
  cases act with
  | search search => exact search.leads_run m.callback
  | solve =>
      have hfirst := leads_runSearch (E := E) m
      have hsecond := leads_retryBoundedObjective (E := E) (m.runSearch E).1 (m.runSearch E).2
      simp only [incidents, marked?, trace, searches, perform, solve, List.flatMap_cons,
        List.flatMap_append, Trace.incidents_append, iterations_recordFinalBound]
      rw [List.append_assoc, List.append_assoc]
      refine hfirst.append (hsecond.append ?_)
      -- The mark comes after the events of the third search, which is the last.
      split
      · exact leads_retryBoundedColumns _
      · rfl
  -- A repair touches no iteration.
  | repair =>
      simp only [incidents, perform, repair]
      split
      · rfl
      · split
        · rfl
        · split
          · rfl
          · split
            · exact ⟨rfl, iterations_relaxRows _ _ _⟩
            · rfl

/-- The incidents of a session lead from its first ledger to its last one. -/
theorem leads_course (m : Master α σ) (acts : List (Act α σ)) :
    Incident.Leads m.session.iterations (m.course E acts)
      (m.performAll E acts).session.iterations := by
  induction acts generalizing m with
  | nil => rfl
  | cons act rest ih => exact (leads_perform m act).append (ih _)

/-- In a session, whatever is done and whatever engine there is, every closed iteration is
    the same at all later moments exactly if no incident is a node relaxation for which the
    engine takes a hyperplane while the last iteration is closed, or the first mark on a
    closed iteration. In any case it is the same but for its counts of hyperplanes and that
    mark. -/
theorem closed_kept_iff (E : Engine α σ) (m : Master α σ) (acts : List (Act α σ)) :
    Incident.Leads m.session.iterations (m.course E acts)
      (m.performAll E acts).session.iterations ∧
    ((m.ledgers E acts).Pairwise IterationLedger.KeepsClosed ↔
      ∀ i ∈ m.course E acts, ¬ i.Spoils) ∧
    (m.ledgers E acts).Pairwise IterationLedger.KeepsRecords := by
  have hleads := leads_course (E := E) m acts
  -- Both relations are transitive, so it is enough to look at each incident.
  refine ⟨hleads, ?_, ?_⟩
  · have htrans : ∀ a b c : IterationLedger α, a.KeepsClosed b → b.KeepsClosed c →
        a.KeepsClosed c := fun _ _ _ => .trans
    refine (hleads.pairwise_iff htrans).trans ?_
    exact forall₂_congr fun i _ => i.keepsClosed_iff
  · have htrans : ∀ a b c : IterationLedger α, a.KeepsRecords b → b.KeepsRecords c →
        a.KeepsRecords c := fun _ _ _ => .trans
    exact (hleads.pairwise_iff htrans).2 fun i _ => i.keepsRecords

end Master

namespace LateRelaxation

/-- Two variables, neither of which may be above one. -/
def problem : Problem Float :=
  ((((Problem.ofObjective (.affine ⟨[(0, 1.0), (1, 1.0)], 0.0⟩ .minimize)).addVariable
    "x" 0.0 4.0 .integer).addVariable "y" 0.0 4.0 .real).addConstraint
      ⟨"left", Affine.toFunction ⟨[(0, 1.0)], 0.0⟩, 1.0, true⟩).addConstraint
        ⟨"right", Affine.toFunction ⟨[(1, 1.0)], 0.0⟩, 1.0, true⟩

/-- An engine that reports an integer solution that is too large in one variable, and then
    a node relaxation that is too large in the other. -/
def engine : Engine Float (Tabular Float) :=
  scriptedEngine
    [{ events :=
         [{ Event.blank .integerSolution with
             objective := .ok 2.0, values := .ok [2.0, 0.0] },
          { Event.blank .relaxationNode with
             optimal := .ok true, relaxation := .ok [1.0, 2.0] }]
       status := .ok .optimal
       finalBound := .error (.notAvailable "final_bound")
       ignoreAbort := false }]
    (.error (.notAvailable "elastic"))

/-- A session with room for hyperplanes at node relaxations. -/
def master : Master Float (Tabular Float) :=
  .start
    { problem
      settings := { Settings.withCuttingPlanes with
        dual := { Settings.withCuttingPlanes.dual with maxRelaxationCuts := 5 } }
      bounds := .fresh .minimize Settings.standard.termination
      iterations := .empty
      statistics := {}
      clock := .still ⟨0⟩
      journal := #[] }
    (.fresh [(0.0, 4.0), (0.0, 4.0)] [] {}) .cuttingPlane

/-- The number of an iteration, whether it is closed, and its counts. -/
def counts (l : IterationLedger Float) : List (Nat × Bool × Nat × Nat × Nat) :=
  l.iterations.map fun it => (it.number, it.closed, it.added, it.total, it.relaxed)

/-- A closed iteration may be changed: the integer solution closes the first one with one
    hyperplane, and the node relaxation adds another one to it. -/
theorem closed_not_kept :
    ¬ ∀ (E : Engine Float (Tabular Float)) (m : Master Float (Tabular Float))
      (acts : List (Act Float (Tabular Float))),
      (m.ledgers E acts).Pairwise IterationLedger.KeepsClosed := by
  intro hkept
  -- One solve, after which the closed iteration counts one hyperplane more.
  have hcounts : (master.ledgers engine [.solve]).map counts =
      [[], [(1, true, 1, 1, 0)], [(1, true, 2, 2, 1)]] := by
    decide +kernel
  -- What is kept of a closed iteration can be read off its counts.
  have hpairs : ((master.ledgers engine [.solve]).map counts).Pairwise fun a b =>
      ∀ (k : Nat) (t : Nat × Bool × Nat × Nat × Nat),
        a[k]? = some t → t.2.1 = true → b[k]? = some t := by
    refine List.pairwise_map.2 ((hkept engine master [.solve]).imp ?_)
    intro a b h k t ht hclosed
    simp only [counts, List.getElem?_map, Option.map_eq_some_iff] at ht ⊢
    obtain ⟨it, hit, rfl⟩ := ht
    exact ⟨it, h k it hit hclosed, rfl⟩
  rw [hcounts] at hpairs
  have hlast := (List.pairwise_cons.1 (List.pairwise_cons.1 hpairs).2).1 _
    (List.mem_singleton.2 rfl) 0 (1, true, 1, 1, 0) rfl rfl
  exact absurd hlast (by decide)

end LateRelaxation

end OuterApprox
