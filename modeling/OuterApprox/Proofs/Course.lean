import OuterApprox.Solver

/-!
# The course of a solve

Every state a solve goes through, and one way to prove something about all of
them. A solve consists of up to two rounds, each of up to three searches, and
each search reports as many events as its engine likes. Between events the
engine is in control; the states at those moments, and the state at the end,
are what a caller or an engine could ever look at.

The searches of a round start from masters that the remedies have prepared. They
are named here by functions that follow the remedies up to the search, so that
"every search of the solve" is a list one can quantify over. The trace of a
search pairs each event with the callback that handled it, and the trace of a
solve is that of its searches one after the other.

An `Invariant` relates a session, a cut store and the state of the engine to the
trace so far. It survives whatever is done between searches, and a search whose
events are of an expected kind extends the trace. What is true of the trace is
thereby tied to what the session and the store remember of it, and for an
invariant that ignores the trace it is enough to look at single events.

## Main definitions

* `Trace`: Events with the callbacks that handled them.
* `Search.states`, `Search.trace`: What a search goes through.
* `Master.boundedObjective?`, `Master.boundedColumns?`: The masters that the
  remedies search again.
* `Master.searches`, `Solver.searches`: All masters that are searched.
* `Solver.trace`, `Solver.events`, `Solver.sessions`: The trace, its events, and
  all states of the session.
* `Master.Holds`, `Master.Invariant`, `Callback.Invariant`, `Trace.Invariant`: What
  survives a solve.

## Theorems

* `Search.run_mem_states`: A search ends in one of its states.
* `Search.forall_states`: What every event preserves holds in every state.
* `Master.Invariant.solve`: An invariant holds in every search of a round and
  at its end.
* `Master.Invariant.repair`: An invariant survives a repair.
* `Solver.invariant_solve`: An invariant holds in every search of a solve and at
  its end.
* `Callback.Invariant.solveStates`, `Callback.Invariant.sessions`,
  `Callback.Invariant.solveTrace`: What every event preserves holds in every state of
  a solve, and at every event.
* `Trace.Invariant.master`: What every event preserves as it extends the trace is an
  invariant.
-/

namespace OuterApprox

variable {α σ : Type} [Scalar α]

/-- Events, each with the callback that handled it, in order. -/
abbrev Trace (α : Type) := List (Callback α × Event α)

namespace Search

/-- The callback at the start of a search and after every event. -/
def states (c : Callback α) : Search α σ → List (Callback α)
  | .finish _ _ => [c]
  | .report e resume => c :: states (c.handle e).callback (resume (c.handle e).calls)

/-- The events a search reports to a callback. Which ones they are depends on
    what the callback does. -/
def trace (c : Callback α) : Search α σ → Trace α
  | .finish _ _ => []
  | .report e resume => (c, e) :: trace (c.handle e).callback (resume (c.handle e).calls)

theorem run_mem_states (search : Search α σ) (c : Callback α) :
    (search.run c).1 ∈ search.states c := by
  induction search generalizing c with
  | finish state result => exact List.mem_singleton.2 rfl
  | report e resume ih => exact List.mem_cons_of_mem _ (ih _ _)

/-- The callbacks of a trace are states of the search. -/
theorem mem_states_of_mem_trace (search : Search α σ) (c : Callback α)
    {step : Callback α × Event α} (h : step ∈ search.trace c) : step.1 ∈ search.states c := by
  induction search generalizing c with
  | finish state result => exact absurd h List.not_mem_nil
  | report e resume ih =>
      rcases List.mem_cons.1 h with rfl | hrest
      · exact List.mem_cons_self
      · exact List.mem_cons_of_mem _ (ih _ _ hrest)

/-- What every event of an expected kind preserves holds in every state of a
    search that reports only such events. -/
theorem forall_states {ok : Event α → Prop} {K : Callback α → Prop}
    (hstep : ∀ c e, ok e → K c → K (c.handle e).callback)
    (search : Search α σ) (c : Callback α) (hok : ∀ step ∈ search.trace c, ok step.2)
    (hc : K c) :
    ∀ c' ∈ search.states c, K c' := by
  -- The search is a tree of events, and the callback walks down one of its paths.
  induction search generalizing c with
  | finish state result =>
      intro c' hmem
      rw [List.mem_singleton.1 hmem]
      exact hc
  | report e resume ih =>
      intro c' hmem
      rcases List.mem_cons.1 hmem with rfl | hrest
      · exact hc
      · have hfirst : ok e := hok (c, e) List.mem_cons_self
        refine ih _ _ (fun step hmem' => hok step (List.mem_cons_of_mem _ hmem')) ?_ c' hrest
        exact hstep c e hfirst hc

end Search

namespace Master

/-- The callback that handles a search from here. -/
def callback (m : Master α σ) : Callback α := Callback.start m.session m.store m.strategy

/-- The states of the callback during a search from here. -/
def searchStates (E : Engine α σ) (m : Master α σ) : List (Callback α) :=
  (E.search m.engine).states m.callback

/-- The events reported during a search from here. -/
def searchTrace (E : Engine α σ) (m : Master α σ) : Trace α :=
  (E.search m.engine).trace m.callback

/-- The master that is searched again because the epigraph variable is suspected
    of making the problem infeasible. -/
def boundedObjective? (E : Engine α σ) (m : Master α σ) (status : Status) :
    Option (Master α σ) :=
  (m.suspectObjective? status).bind fun aux =>
    let bound := m.session.settings.dual.auxiliaryBound
    let bounded := (m.note [.boundingObjective bound]).setBounds E aux (-bound) bound
    if bounded.2 then some bounded.1 else none

/-- The master that is searched again because the problem is unbounded. -/
def boundedColumns? (E : Engine α σ) (m : Master α σ) : Option (Master α σ) :=
  if m.suspectColumns.isEmpty then none
  else
    let bound := m.session.settings.dual.unboundedBound / m.session.settings.dual.unboundedScaling
    let read := m.readBounds E m.suspectColumns
    some ((read.1.note [.boundingVariables read.2.length bound]).setAllBounds E
      (read.2.map fun t => (t.1, -bound, bound)))

/-- The masters that are searched when a master is solved: itself, and those the
    remedies prepare. -/
def searches (E : Engine α σ) (m : Master α σ) : List (Master α σ) :=
  let first := m.runSearch E
  let second := first.1.retryBoundedObjective E first.2
  m :: ((first.1.boundedObjective? E first.2).toList ++
    (if second.2 = .unbounded then second.1.boundedColumns? E else none).toList)

/-- The events reported when a master is solved. -/
def trace (E : Engine α σ) (m : Master α σ) : Trace α :=
  (m.searches E).flatMap fun m' => m'.searchTrace E

/-- A relation between the session, the cut store and the state of the engine,
    read off a master. -/
def Holds (J : Session α → CutStore α → σ → Prop) (m : Master α σ) : Prop :=
  J m.session m.store m.engine

/-- What survives everything that is done to a master in a solve, as long as the
    events that are reported are of an expected kind. It may speak of the trace
    so far. -/
structure Invariant (E : Engine α σ) (ok : Event α → Prop)
    (J : Trace α → Session α → CutStore α → σ → Prop) : Prop where
  /-- It survives a search, which extends the trace. -/
  search : ∀ τ (m : Master α σ), (∀ step ∈ m.searchTrace E, ok step.2) → Holds (J τ) m →
    let r := (E.search m.engine).run m.callback
    J (τ ++ m.searchTrace E) r.1.session r.1.store r.2.1
  /-- It survives a change of bounds. -/
  bounds : ∀ τ s st g column lower upper, J τ s st g →
    J τ s st (E.setColumnBounds g column lower upper).1
  /-- It survives a change of a right-hand side. -/
  rowUpper : ∀ τ s st g row upper, J τ s st g → J τ s st (E.setRowUpper g row upper).1
  /-- It survives an elastic solve. -/
  elastic : ∀ τ s st g rows prices, J τ s st g → J τ s st (E.elastic g rows prices).1
  /-- It survives remarks. -/
  note : ∀ τ s st g remarks, J τ s st g → J τ (s.note remarks) st g
  /-- It survives the offer of a bound. -/
  dual : ∀ τ s st g d, J τ s st g → J τ (s.offerDual d) st g
  /-- It survives the mark of a repair on the live iteration. -/
  repaired : ∀ τ s st g, J τ s st g →
    J τ (s.modifyIteration fun it => { it with repaired := true }) st g

namespace Invariant

variable {E : Engine α σ} {ok : Event α → Prop}
variable {J : Trace α → Session α → CutStore α → σ → Prop} {τ : Trace α}

theorem noted (I : Invariant E ok J) (m : Master α σ) (remarks : List (Diagnostic α))
    (h : Holds (J τ) m) : Holds (J τ) (m.note remarks) :=
  I.note _ _ _ _ _ h

theorem runSearch (I : Invariant E ok J) (m : Master α σ)
    (hok : ∀ step ∈ m.searchTrace E, ok step.2) (h : Holds (J τ) m) :
    Holds (J (τ ++ m.searchTrace E)) (m.runSearch E).1 := by
  have hrun := I.search τ m hok h
  simp only [Master.runSearch]
  split
  · exact hrun
  · exact I.note _ _ _ _ _ hrun

theorem setBounds (I : Invariant E ok J) (m : Master α σ) (column : Nat) (lower upper : α)
    (h : Holds (J τ) m) : Holds (J τ) (m.setBounds E column lower upper).1 := by
  have hwrite := I.bounds _ _ _ _ column lower upper h
  simp only [Master.setBounds]
  split
  · exact hwrite
  · exact I.note _ _ _ _ _ hwrite

theorem setAllBounds (I : Invariant E ok J) (m : Master α σ) (targets : List (Nat × α × α))
    (h : Holds (J τ) m) : Holds (J τ) (m.setAllBounds E targets) := by
  unfold Master.setAllBounds
  induction targets generalizing m with
  | nil => exact h
  | cons t rest ih => exact ih _ (I.setBounds m _ _ _ h)

theorem readBounds (I : Invariant E ok J) (m : Master α σ) (columns : List Nat)
    (h : Holds (J τ) m) : Holds (J τ) (m.readBounds E columns).1 := by
  unfold Master.readBounds
  refine List.foldlRecOn columns _ (motive := fun acc => Holds (J τ) (Prod.fst acc)) h ?_
  intro acc hacc column _
  dsimp only
  split
  · exact hacc
  · exact I.note _ _ _ _ _ hacc

theorem boundedObjective? (I : Invariant E ok J) (m : Master α σ) (status : Status)
    (h : Holds (J τ) m) : ∀ m' ∈ m.boundedObjective? E status, Holds (J τ) m' := by
  intro m' hm'
  simp only [Master.boundedObjective?, Option.mem_def, Option.bind_eq_some_iff] at hm'
  rcases hm' with ⟨aux, _, hif⟩
  split at hif
  · rw [← Option.some.inj hif]
    exact I.setBounds _ _ _ _ (I.noted m _ h)
  · simp only [reduceCtorEq] at hif

theorem boundedColumns? (I : Invariant E ok J) (m : Master α σ) (h : Holds (J τ) m) :
    ∀ m' ∈ m.boundedColumns? E, Holds (J τ) m' := by
  intro m' hm'
  simp only [Master.boundedColumns?, Option.mem_def] at hm'
  split at hm'
  · simp only [reduceCtorEq] at hm'
  · rw [← Option.some.inj hm']
    exact I.setAllBounds _ _ (I.noted _ _ (I.readBounds m _ h))

/-- The trace of a remedy that may not apply. -/
theorem mem_optionTrace {o : Option (Master α σ)} {m : Master α σ} (hm : m ∈ o) :
    (o.toList.flatMap fun m' => m'.searchTrace E) = m.searchTrace E := by
  rw [Option.mem_def.1 hm, Option.toList_some, List.flatMap_singleton]

theorem retryBoundedObjective (I : Invariant E ok J) (m : Master α σ) (status : Status)
    (hok : ∀ m' ∈ m.boundedObjective? E status, ∀ step ∈ m'.searchTrace E, ok step.2)
    (h : Holds (J τ) m) :
    Holds (J (τ ++ (m.boundedObjective? E status).toList.flatMap fun m' => m'.searchTrace E))
      (m.retryBoundedObjective E status).1 := by
  simp only [Master.retryBoundedObjective]
  split
  -- The objective is not suspected, and there is no second search.
  next hnone =>
    have hskip : m.boundedObjective? E status = none := by
      simp only [Master.boundedObjective?, hnone, Option.bind_none]
    rw [hskip, Option.toList_none, List.flatMap_nil, List.append_nil]
    exact h
  next aux haux =>
    have hbounded := I.setBounds _ aux (-m.session.settings.dual.auxiliaryBound)
      m.session.settings.dual.auxiliaryBound
      (I.noted m [.boundingObjective m.session.settings.dual.auxiliaryBound] h)
    split
    -- The bounds could not be written, and there is none either.
    next hfailed =>
      have hskip : m.boundedObjective? E status = none := by
        simp only [Master.boundedObjective?, haux, Option.bind_some]
        exact if_neg (by simpa using hfailed)
      rw [hskip, Option.toList_none, List.flatMap_nil, List.append_nil]
      exact hbounded
    next hdone =>
      -- The bounds were written, so this is the master that is searched again.
      have hmem : ((m.note [.boundingObjective m.session.settings.dual.auxiliaryBound]).setBounds
          E aux (-m.session.settings.dual.auxiliaryBound)
          m.session.settings.dual.auxiliaryBound).1 ∈ m.boundedObjective? E status := by
        simp only [Master.boundedObjective?, haux, Option.bind_some, Option.mem_def]
        exact if_pos (by simpa using hdone)
      rw [mem_optionTrace hmem]
      exact I.setBounds _ _ _ _ (I.runSearch _ (hok _ hmem) hbounded)

theorem retryBoundedColumns (I : Invariant E ok J) (m : Master α σ)
    (hok : ∀ m' ∈ m.boundedColumns? E, ∀ step ∈ m'.searchTrace E, ok step.2)
    (h : Holds (J τ) m) :
    Holds (J (τ ++ (m.boundedColumns? E).toList.flatMap fun m' => m'.searchTrace E))
      (m.retryBoundedColumns E).1 := by
  -- With no column to suspect there is no search, and the trace stays as it was.
  have hkept := I.boundedColumns? m h
  simp only [Master.boundedColumns?, Option.mem_def] at hok hkept ⊢
  simp only [Master.retryBoundedColumns]
  split
  · rw [Option.toList_none, List.flatMap_nil, List.append_nil]
    exact I.noted m _ h
  next hsome =>
    rw [if_neg hsome] at hok hkept
    rw [Option.toList_some, List.flatMap_singleton]
    -- After the search the bounds that were read are written back.
    have hsearch := I.runSearch _ (hok _ rfl) (hkept _ rfl)
    exact I.repaired _ _ _ _ (I.setAllBounds _ _ hsearch)

theorem recordFinalBound (I : Invariant E ok J) (m : Master α σ) (status : Status)
    (h : Holds (J τ) m) : Holds (J τ) (m.recordFinalBound E status) := by
  simp only [Master.recordFinalBound]
  split
  · exact h
  · split
    · exact I.noted m _ h
    · split
      · exact I.dual _ _ _ _ _ h
      · exact h

/-- An invariant holds in every search of a round, at some point of the trace, and
    at its end. -/
theorem solve (I : Invariant E ok J) (m : Master α σ)
    (hok : ∀ step ∈ m.trace E, ok step.2) (h : Holds (J τ) m) :
    (∀ m' ∈ m.searches E, ∃ τ', Holds (J τ') m') ∧
      Holds (J (τ ++ m.trace E)) (m.solve E).1 := by
  have hsearch : ∀ m' ∈ m.searches E, ∀ step ∈ m'.searchTrace E, ok step.2 :=
    fun m' hm' step hstep => hok step (List.mem_flatMap.2 ⟨m', hm', hstep⟩)
  simp only [Master.trace, Master.searches, List.mem_cons, List.mem_append,
    Option.mem_toList, List.flatMap_cons, List.flatMap_append] at hsearch ⊢
  -- The three searches of a round come one after the other, each from what the last left.
  have hfirst := I.runSearch m (hsearch m (.inl rfl)) h
  have hsecond := I.retryBoundedObjective _ (m.runSearch E).2
    (fun m' hm' => hsearch m' (.inr (.inl hm'))) hfirst
  constructor
  · rintro m' (rfl | hm' | hm')
    · exact ⟨τ, h⟩
    · exact ⟨_, I.boundedObjective? _ _ hfirst m' hm'⟩
    · split at hm'
      · exact ⟨_, I.boundedColumns? _ hsecond m' hm'⟩
      · simp only [reduceCtorEq] at hm'
  · rw [← List.append_assoc, ← List.append_assoc]
    simp only [Master.solve]
    refine I.recordFinalBound _ _ ?_
    split
    next hunbounded =>
      exact I.retryBoundedColumns _
        (fun m' hm' => hsearch m' (.inr (.inr (by rw [if_pos hunbounded]; exact hm')))) hsecond
    · rw [Option.toList_none, List.flatMap_nil, List.append_nil]
      exact hsecond

theorem relaxRow (I : Invariant E ok J) (factor : α) (acc : Master α σ × Nat)
    (target : Nat × α) (h : Holds (J τ) acc.1) :
    Holds (J τ) (Master.relaxRow E factor acc target).1 := by
  simp only [Master.relaxRow]
  split
  · exact h
  · split
    · exact I.note _ _ _ _ _ h
    · split <;> exact I.note _ _ _ _ _ (I.rowUpper _ _ _ _ _ _ h)

theorem relaxRows (I : Invariant E ok J) (m : Master α σ) (rows : List Nat) (slacks : List α)
    (h : Holds (J τ) m) : Holds (J τ) (m.relaxRows E rows slacks) := by
  simp only [Master.relaxRows]
  refine I.repaired _ _ _ _ (I.note _ _ _ _ _ ?_)
  refine List.foldlRecOn _ _ (motive := fun acc => Holds (J τ) (Prod.fst acc)) h ?_
  intro acc hacc target _
  exact I.relaxRow _ _ _ hacc

/-- An invariant survives a repair, whatever comes of it. -/
theorem repair (I : Invariant E ok J) (m : Master α σ) (h : Holds (J τ) m) :
    Holds (J τ) (m.repair E).1 := by
  simp only [Master.repair]
  split
  · exact h
  · split
    · exact I.noted m _ h
    · have helastic := I.elastic _ _ _ _ m.repairRows (m.repairRows.map repairPrice) h
      split
      · exact I.note _ _ _ _ _ helastic
      · split
        · exact I.relaxRows _ _ _ helastic
        · exact I.note _ _ _ _ _ helastic

end Invariant

end Master

namespace Solver

/-- The master at the start of a solve. -/
def startMaster (s : Solver α σ) : Master α σ := { s.master with session := s.freshSession }

/-- The master that is solved again after a repair, if there is one. -/
def repaired? (E : Engine α σ) (m : Master α σ) (status : Status) : Option (Master α σ) :=
  if status = .infeasible && (m.repair E).2 then some ((m.repair E).1.note [.resolving])
  else none

/-- The masters that are solved in a solve, at most two. Settings that are not
    admissible end a solve before the first one. -/
def rounds (E : Engine α σ) (s : Solver α σ) : List (Master α σ) :=
  match s.master.session.settings.validate with
  | .error _ => []
  | .ok () =>
    let first := s.startMaster.solve E
    s.startMaster :: (repaired? E first.1 first.2).toList

/-- The masters that are searched in a solve. -/
def searches (E : Engine α σ) (s : Solver α σ) : List (Master α σ) :=
  (s.rounds E).flatMap fun m => m.searches E

/-- The events that are reported in a solve, with the callbacks that handled
    them. -/
def trace (E : Engine α σ) (s : Solver α σ) : Trace α :=
  (s.rounds E).flatMap fun m => m.trace E

/-- The events that are reported in a solve. -/
def events (E : Engine α σ) (s : Solver α σ) : List (Event α) := (s.trace E).map (·.2)

/-- The states of the session in a solve: at the start of every search, after
    every event, and at the end. -/
def sessions (E : Engine α σ) (s : Solver α σ) : List (Session α) :=
  match s.master.session.settings.validate with
  | .error _ => []
  | .ok () =>
    ((s.searches E).flatMap fun m => (m.searchStates E).map (·.session)) ++
      [(s.solve E).1.master.session]

variable {E : Engine α σ} {ok : Event α → Prop}
variable {J : Trace α → Session α → CutStore α → σ → Prop}

theorem searchTrace_subset {s : Solver α σ} {m : Master α σ} (hm : m ∈ s.searches E)
    {step : Callback α × Event α} (hstep : step ∈ m.searchTrace E) : step ∈ s.trace E := by
  rcases List.mem_flatMap.1 hm with ⟨r, hr, hmr⟩
  exact List.mem_flatMap.2 ⟨r, hr, List.mem_flatMap.2 ⟨m, hmr, hstep⟩⟩

/-- The second round keeps an invariant, if there is one. -/
theorem invariant_repairAndResolve (I : Master.Invariant E ok J) {τ : Trace α}
    (m : Master α σ) (status : Status)
    (hok : ∀ r ∈ repaired? E m status, ∀ step ∈ r.trace E, ok step.2)
    (h : m.Holds (J τ)) :
    (∀ r ∈ repaired? E m status, ∀ m' ∈ r.searches E, ∃ τ', m'.Holds (J τ')) ∧
      (repairAndResolve E m status).1.Holds
        (J (τ ++ (repaired? E m status).toList.flatMap fun r => r.trace E)) := by
  have hrepair := I.repair m h
  -- A second round is a round like any other, from the repaired master.
  have hround : ∀ r ∈ repaired? E m status,
      (∀ m' ∈ r.searches E, ∃ τ', m'.Holds (J τ')) ∧ (r.solve E).1.Holds (J (τ ++ r.trace E)) := by
    intro r hr
    refine I.solve r (hok r hr) ?_
    simp only [repaired?, Option.mem_def] at hr
    split at hr
    · rw [← Option.some.inj hr]
      exact I.noted _ _ hrepair
    · simp only [reduceCtorEq] at hr
  refine ⟨fun r hr => (hround r hr).1, ?_⟩
  simp only [repairAndResolve]
  split
  next hstatus =>
    have hskip : repaired? E m status = none := by
      simp only [repaired?, hstatus, decide_false, Bool.false_and, Bool.false_eq_true, if_false]
    rw [hskip, Option.toList_none, List.flatMap_nil, List.append_nil]
    exact h
  next hstatus =>
    split
    next m' heq =>
      have hskip : repaired? E m status = none := by
        simp only [repaired?, heq, Bool.and_false, Bool.false_eq_true, if_false]
      rw [hskip, Option.toList_none, List.flatMap_nil, List.append_nil]
      rw [heq] at hrepair
      exact I.noted _ _ hrepair
    next m' heq =>
      have hagain : repaired? E m status = some (m'.note [.resolving]) := by
        simp only [repaired?, heq, Decidable.not_not.1 hstatus, decide_true, Bool.and_self,
          if_true]
      rw [hagain, Option.toList_some, List.flatMap_singleton]
      exact (hround _ hagain).2

/-- An invariant holds in every search of a solve, at some point of the trace, and
    at its end. -/
theorem invariant_solve (I : Master.Invariant E ok J) (s : Solver α σ) {τ : Trace α}
    (hvalid : s.master.session.settings.validate = .ok ())
    (hok : ∀ step ∈ s.trace E, ok step.2) (h : s.startMaster.Holds (J τ)) :
    (∀ m ∈ s.searches E, ∃ τ', m.Holds (J τ')) ∧
      (s.solve E).1.master.Holds (J (τ ++ s.trace E)) := by
  simp only [searches, trace, rounds, hvalid, List.flatMap_cons, List.mem_append] at hok ⊢
  have hfirst := I.solve s.startMaster (fun step hstep => hok step (.inl hstep)) h
  have hsecond := invariant_repairAndResolve I _ (s.startMaster.solve E).2
    (fun r hr step hstep => hok step (.inr
      (List.mem_flatMap.2 ⟨r, Option.mem_toList.2 hr, hstep⟩))) hfirst.2
  constructor
  · rintro m (hm | hm)
    · exact hfirst.1 m hm
    · rcases List.mem_flatMap.1 hm with ⟨r, hr, hmr⟩
      exact hsecond.1 r (Option.mem_toList.1 hr) m hmr
  · rw [← List.append_assoc]
    simp only [solve, hvalid]
    exact I.noted _ _ (I.noted _ _ hsecond.2)

end Solver

/-- What survives an event of an expected kind and everything that is done
    between searches, said without the trace and the engine. -/
structure Callback.Invariant (ok : Event α → Prop) (K : Session α → CutStore α → Prop) :
    Prop where
  /-- It survives an event. -/
  event : ∀ (c : Callback α) e, ok e → K c.session c.store →
    K (c.handle e).session (c.handle e).store
  /-- It survives a change of the counters. -/
  statistics : ∀ s st f, K s st → K (s.modifyStatistics f) st
  /-- It survives remarks. -/
  note : ∀ s st remarks, K s st → K (s.note remarks) st
  /-- It survives the offer of a bound. -/
  dual : ∀ s st d, K s st → K (s.offerDual d) st
  /-- It survives the mark of a repair on the live iteration. -/
  repaired : ∀ s st, K s st → K (s.modifyIteration fun it => { it with repaired := true }) st

namespace Callback.Invariant

variable {E : Engine α σ} {ok : Event α → Prop} {K : Session α → CutStore α → Prop}

/-- It holds in every state of a search. -/
theorem searchStates (I : Callback.Invariant ok K) (m : Master α σ)
    (hok : ∀ step ∈ m.searchTrace E, ok step.2) (h : K m.session m.store) :
    ∀ c ∈ m.searchStates E, K c.session c.store :=
  Search.forall_states I.event _ m.callback hok
    (I.statistics _ _ (fun st => { st with lastLazyIteration := 0 }) h)

/-- Whatever the engine, it is an invariant of the master. -/
theorem master (I : Callback.Invariant ok K) (E : Engine α σ) :
    Master.Invariant E ok fun _ s st _ => K s st where
  search _ m hok h := I.searchStates m hok h _ (Search.run_mem_states _ _)
  bounds _ _ _ _ _ _ _ h := h
  rowUpper _ _ _ _ _ _ h := h
  elastic _ _ _ _ _ _ h := h
  note _ _ _ _ _ h := I.note _ _ _ h
  dual _ _ _ _ _ h := I.dual _ _ _ h
  repaired _ _ _ _ h := I.repaired _ _ h

/-- It holds in every state of every search of a solve. -/
theorem solveStates (I : Callback.Invariant ok K) (s : Solver α σ)
    (hvalid : s.master.session.settings.validate = .ok ())
    (hok : ∀ step ∈ s.trace E, ok step.2) (h : K s.freshSession s.master.store) :
    ∀ m ∈ s.searches E, ∀ c ∈ m.searchStates E, K c.session c.store := by
  intro m hm
  rcases (Solver.invariant_solve (τ := []) (I.master E) s hvalid hok h).1 m hm with ⟨_, hmaster⟩
  exact I.searchStates m (fun step hstep => hok step (Solver.searchTrace_subset hm hstep)) hmaster

/-- It holds in every state of the session in a solve, with some cut store. -/
theorem sessions (I : Callback.Invariant ok K) (s : Solver α σ)
    (hok : ∀ step ∈ s.trace E, ok step.2) (h : K s.freshSession s.master.store) :
    ∀ t ∈ s.sessions E, ∃ st, K t st := by
  intro t ht
  cases hvalid : s.master.session.settings.validate with
  | error e =>
      simp only [Solver.sessions, hvalid] at ht
      exact nomatch ht
  | ok u =>
      simp only [Solver.sessions, hvalid, List.mem_append, List.mem_flatMap, List.mem_map,
        List.mem_singleton] at ht
      rcases ht with ⟨m, hm, c, hc, rfl⟩ | rfl
      · exact ⟨_, I.solveStates s hvalid hok h m hm c hc⟩
      · exact ⟨_, (Solver.invariant_solve (τ := []) (I.master E) s hvalid hok h).2⟩

/-- It holds whenever an event is reported in a solve. -/
theorem solveTrace (I : Callback.Invariant ok K) (s : Solver α σ)
    (hvalid : s.master.session.settings.validate = .ok ())
    (hok : ∀ step ∈ s.trace E, ok step.2) (h : K s.freshSession s.master.store) :
    ∀ step ∈ s.trace E, K step.1.session step.1.store := by
  intro step hstep
  rcases List.mem_flatMap.1 hstep with ⟨r, hr, hround⟩
  rcases List.mem_flatMap.1 hround with ⟨m, hm, hsearch⟩
  have hmem : m ∈ s.searches E := List.mem_flatMap.2 ⟨r, hr, hm⟩
  exact I.solveStates s hvalid hok h m hmem _ (Search.mem_states_of_mem_trace _ _ hsearch)

end Callback.Invariant

/-- What survives an event, which extends the trace, and everything that is done between
    searches. -/
structure Trace.Invariant (K : Trace α → Session α → CutStore α → Prop) : Prop where
  /-- It survives an event. -/
  event : ∀ τ (c : Callback α) e, K τ c.session c.store →
    K (τ ++ [(c, e)]) (c.handle e).session (c.handle e).store
  /-- It survives a change of the counters. -/
  statistics : ∀ τ s st f, K τ s st → K τ (s.modifyStatistics f) st
  /-- It survives remarks. -/
  note : ∀ τ s st remarks, K τ s st → K τ (s.note remarks) st
  /-- It survives the offer of a bound. -/
  dual : ∀ τ s st d, K τ s st → K τ (s.offerDual d) st
  /-- It survives the mark of a repair on the live iteration. -/
  repaired : ∀ τ s st, K τ s st → K τ (s.modifyIteration fun it => { it with repaired := true }) st

namespace Trace.Invariant

variable {E : Engine α σ} {K : Trace α → Session α → CutStore α → Prop}

/-- It survives a search, event by event. -/
theorem run (I : Trace.Invariant K) (search : Search α σ) (c : Callback α) (τ : Trace α)
    (h : K τ c.session c.store) :
    K (τ ++ search.trace c) (search.run c).1.session (search.run c).1.store := by
  induction search generalizing c τ with
  | finish state result =>
      rw [Search.trace, List.append_nil]
      exact h
  | report e resume ih =>
      have hrest := ih (c.handle e).calls (c.handle e).callback _ (I.event τ c e h)
      rw [List.append_assoc] at hrest
      exact hrest

/-- Whatever the engine, it is an invariant of the master. -/
theorem master (I : Trace.Invariant K) (E : Engine α σ) :
    Master.Invariant E (fun _ => True) fun τ s st _ => K τ s st where
  search τ m _ h := I.run (E.search m.engine) m.callback τ
    (I.statistics _ _ _ (fun st => { st with lastLazyIteration := 0 }) h)
  bounds _ _ _ _ _ _ _ h := h
  rowUpper _ _ _ _ _ _ h := h
  elastic _ _ _ _ _ _ h := h
  note _ _ _ _ _ h := I.note _ _ _ _ h
  dual _ _ _ _ _ h := I.dual _ _ _ _ h
  repaired _ _ _ _ h := I.repaired _ _ _ h

end Trace.Invariant

end OuterApprox
