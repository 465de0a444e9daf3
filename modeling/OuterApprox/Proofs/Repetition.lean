import OuterApprox.Proofs.CutMirror
import OuterApprox.Proofs.FinalStatus
import OuterApprox.Proofs.Gist

/-!
# Solving twice

A solve starts with an empty session, but with the cut store and the engine that the last one
has left. Here two solves in a row are compared. The engine is one that repeats itself: whatever
state it is in, its searches report the same events and end the same way as long as the handler
does the same, and what else it answers does not depend on the state either. It need not react to
no-good rows.

The second solve then goes the way of the first one as far as the cut store allows, which outlives
a search. Three things in it make a difference: queued no-good cuts, the interior point, and what
the local solver was tried on and when. Time makes one as well, if there is a limit that is reached
in one of the solves. Without a change in the last two, and with time up at the same looks at the
clock, the reports differ in the number of no-good cuts at most, and without a change in the queue
they do not differ at all.

The comparison is between two masters with the same gist. What is done between searches changes
the journal and the engine only, or does the same to both sessions, so that it is enough to look
at searches, where it is the events that keep the gists the same.

## Main definitions

* `Search.SameCourse`, `Engine.Repeats`: Searches and engines that repeat themselves.
* `Master.Noted`: A change of the journal and the engine only.
* `Master.Alike`, `Master.SearchedAlike`: Masters with the same gist.
* `Solver.SameTrials`, `Solver.SameOutset`: Nothing has changed that the next solve would go by.
* `Solver.Poised`: A solver between two deeds.
* `Tabular.Shaped`: The states of an engine that plays one script.

## Theorems

* `Search.SameCourse.run`: A search keeps the gists of two callbacks the same.
* `Master.Alike.solve`, `Solver.alike_solve`: So do a round and a solve, with the same verdict.
* `Solver.alike_startMaster`: The masters that two solves start from.
* `Solver.Poised.performAll`: Whatever was done, the solver is ready for a solve.
* `Solver.integerCuts_solve_again`: When two solves count the same no-good cuts.
* `Solver.sameOutset_solve`: When a solve leaves nothing behind that the next one would go by.
* `Solver.solve_again`: When the second report is the same.
* `scriptedEngine_repeats`: An engine with one script repeats itself.
-/

namespace OuterApprox

variable {α σ : Type}

/-! ## Engines that repeat themselves -/

/-- Two searches that report the same events and end the same way, as long as their handlers
    do the same; no-good rows make no difference. -/
inductive Search.SameCourse (ends : σ → σ → Prop) : Search α σ → Search α σ → Prop
  /-- Both end, in states that go together. -/
  | finish {state state' : σ} (result : Answer Status) (h : ends state state') :
    SameCourse ends (.finish state result) (.finish state' result)
  /-- Both report an event, and go on alike if it is handled alike. -/
  | report (event : Event α) {resume resume' : List (Call α) → Search α σ}
    (h : ∀ calls calls' : List (Call α),
      calls.filter (fun c => !c.isNoGood) = calls'.filter (fun c => !c.isNoGood) →
      SameCourse ends (resume calls) (resume' calls')) :
    SameCourse ends (.report event resume) (.report event resume')

/-- An engine that answers alike in all states of a kind, which it never leaves. -/
structure Engine.Repeats (E : Engine α σ) (P : σ → Prop) : Prop where
  /-- Searches take the same course, to the same final bound. -/
  search : ∀ g g', P g → P g' → (E.search g).SameCourse
    (fun h h' => P h ∧ P h' ∧ E.finalBound h = E.finalBound h') (E.search g')
  /-- Rows may be refused, but change nothing else. -/
  addRow : ∀ g row name, P g → P (E.addRow g row name).1
  /-- Between searches the final bound is that of the last one. -/
  setColumnBounds : ∀ g column lower upper, P g →
    P (E.setColumnBounds g column lower upper).1 ∧
      E.finalBound (E.setColumnBounds g column lower upper).1 = E.finalBound g
  /-- The same holds of right-hand sides. -/
  setRowUpper : ∀ g row upper, P g → P (E.setRowUpper g row upper).1 ∧
    E.finalBound (E.setRowUpper g row upper).1 = E.finalBound g
  /-- An elastic solve does not end the repetition. -/
  elastic : ∀ g rows prices, P g → P (E.elastic g rows prices).1
  /-- The same bounds can be changed. -/
  boundsTaken : ∀ g g' column lower upper, P g → P g' →
    (E.setColumnBounds g column lower upper).2.taken =
      (E.setColumnBounds g' column lower upper).2.taken
  /-- Elastic solves of the same rows end alike. -/
  elasticStatus : ∀ g g' rows prices, P g → P g' →
    (E.elastic g rows prices).2.toOption.map (·.status) =
      (E.elastic g' rows prices).2.toOption.map (·.status)

namespace Search

variable [Scalar α]

theorem lasts_run (search : Search α σ) (c : Callback α) : c.Lasts (search.run c).1 := by
  induction search generalizing c with
  | finish state result => exact .refl c
  | report e resume ih => exact (c.lasts_handle e).trans (ih _ _)

/-- Searches of the same course lead callbacks with the same gist to the same gist. -/
theorem SameCourse.run {ends : σ → σ → Prop} {search search' : Search α σ}
    (h : search.SameCourse ends search') {r : Regard} {c c' : Callback α}
    (hgist : c.gist r = c'.gist r) (hsteady : c.Steady r) :
    (search.run c).1.gist r = (search'.run c').1.gist r ∧
      ends (search.run c).2.1 (search'.run c').2.1 ∧
      (search.run c).2.2 = (search'.run c').2.2 := by
  -- The two searches report the same events, as long as they are answered alike.
  induction h generalizing c c' with
  | finish result hends => exact ⟨hgist, hends, rfl⟩
  | report e _ ih =>
    have hturn := Callback.gist_handle hgist hsteady e
    have hcalls := congrArg (fun t => t.calls.filter fun c => !c.isNoGood) hturn
    -- Whatever is looked at, the calls are the same up to no-good rows.
    have hkept : ∀ calls : List (Call α),
        (calls.filter fun c => r.cuts || !c.isNoGood).filter (fun c => !c.isNoGood) =
          calls.filter fun c => !c.isNoGood := by
      intro calls
      rw [List.filter_filter]
      congr 1
      funext c
      cases c.isNoGood <;> simp
    simp only [Turn.gist, hkept] at hcalls
    exact ih _ _ hcalls (congrArg Turn.callback hturn) (hsteady.lasts (c.lasts_handle e))

theorem SameCourse.end_left {ends : σ → σ → Prop} {P : σ → Prop} {search search' : Search α σ}
    (h : search.SameCourse ends search') (hends : ∀ g g', ends g g' → P g) (c : Callback α) :
    P (search.run c).2.1 := by
  induction h generalizing c with
  | finish result hend => exact hends _ _ hend
  | report e _ ih => exact ih (c.handle e).calls (c.handle e).calls rfl _

end Search

/-! ## Masters -/

namespace Master

/-- A master that differs from another one in its journal and in its engine, where the final
    bound is the same. -/
structure Noted (E : Engine α σ) (P : σ → Prop) (m m' : Master α σ) : Prop where
  /-- The sessions differ in their journals at most. -/
  session : { m'.session with journal := #[] } = { m.session with journal := #[] }
  /-- The cut store stays. -/
  store : m'.store = m.store
  /-- The strategy stays. -/
  strategy : m'.strategy = m.strategy
  /-- The engine goes on repeating itself, and the final bound stays. -/
  engine : P m.engine → P m'.engine ∧ E.finalBound m'.engine = E.finalBound m.engine

/-- Two masters with the same gist, the first of which goes back to a callback. -/
structure Alike (P : σ → Prop) (r : Regard) (origin : Callback α) (m m' : Master α σ) :
    Prop where
  /-- The sessions have the same gist. -/
  session : m.session.gist r = m'.session.gist r
  /-- So have the cut stores. -/
  store : m.store.gist r = m'.store.gist r
  /-- The strategies are the same. -/
  strategy : m.strategy = m'.strategy
  /-- Both engines repeat themselves. -/
  engine : P m.engine ∧ P m'.engine
  /-- What lasts has lasted since the callback. -/
  lasts : origin.Lasts m.callback

/-- Besides, their last searches have ended with the same final bound. -/
structure SearchedAlike (E : Engine α σ) (P : σ → Prop) (r : Regard) (origin : Callback α)
    (m m' : Master α σ) : Prop extends Alike P r origin m m' where
  /-- The final bounds are the same. -/
  finalBound : E.finalBound m.engine = E.finalBound m'.engine

variable {E : Engine α σ} {P : σ → Prop}

namespace Noted

theorem refl (m : Master α σ) : m.Noted E P m := ⟨rfl, rfl, rfl, fun h => ⟨h, rfl⟩⟩

theorem trans {a b c : Master α σ} (h1 : a.Noted E P b) (h2 : b.Noted E P c) :
    a.Noted E P c where
  session := h2.session.trans h1.session
  store := h2.store.trans h1.store
  strategy := h2.strategy.trans h1.strategy
  engine h := ⟨(h2.engine (h1.engine h).1).1,
    (h2.engine (h1.engine h).1).2.trans (h1.engine h).2⟩

theorem lasts {m n : Master α σ} (h : m.Noted E P n) : m.callback.Lasts n.callback :=
  .of_eq (congrArg (fun s => s.problem) h.session) (congrArg (fun s => s.settings) h.session)
    (congrArg (fun s => s.clock) h.session) h.strategy
    (congrArg (fun s => s.statistics.integerCuts) h.session)
    (congrArg CutStore.ledger h.store) (congrArg CutStore.integerCuts h.store)
    (congrArg CutStore.interior h.store) (congrArg CutStore.fixedInteger h.store)

end Noted

theorem noted_note (m : Master α σ) (remarks : List (Diagnostic α)) :
    m.Noted E P (m.note remarks) := ⟨rfl, rfl, rfl, fun h => ⟨h, rfl⟩⟩

theorem noted_setBounds (hE : E.Repeats P) (m : Master α σ) (column : Nat) (lower upper : α) :
    m.Noted E P (m.setBounds E column lower upper).1 := by
  have hwrite := hE.setColumnBounds m.engine column lower upper
  simp only [setBounds]
  split <;> exact ⟨rfl, rfl, rfl, hwrite⟩

theorem setBounds_snd (m : Master α σ) (column : Nat) (lower upper : α) :
    (m.setBounds E column lower upper).2 =
      (E.setColumnBounds m.engine column lower upper).2.taken := by
  simp only [setBounds]
  split
  next h => rw [h]; rfl
  next h => rw [h]; rfl

theorem noted_setAllBounds (hE : E.Repeats P) (m : Master α σ)
    (targets : List (Nat × α × α)) : m.Noted E P (m.setAllBounds E targets) :=
  List.foldlRecOn targets _ (motive := fun u => m.Noted E P u) (.refl m)
    fun u hu _ _ => hu.trans (noted_setBounds hE u _ _ _)

theorem noted_readBounds (m : Master α σ) (columns : List Nat) :
    m.Noted E P (m.readBounds E columns).1 := by
  unfold readBounds
  refine List.foldlRecOn columns _ (motive := fun acc => m.Noted E P (Prod.fst acc)) (.refl m) ?_
  intro acc hacc column _
  dsimp only
  split
  · exact hacc
  · exact hacc.trans (noted_note _ _)

namespace Alike

variable {r : Regard} {origin : Callback α} {m m' n n' : Master α σ}

theorem problem (h : Alike P r origin m m') : m.session.problem = m'.session.problem := by
  have hproblem := congrArg Session.problem h.session
  exact hproblem

theorem settings (h : Alike P r origin m m') : m.session.settings = m'.session.settings := by
  have hsettings := congrArg Session.settings h.session
  exact hsettings

theorem iterations (h : Alike P r origin m m') :
    m.session.iterations = m'.session.iterations := by
  have hiterations := congrArg Session.iterations h.session
  exact hiterations

theorem noted (h : Alike P r origin m m') (hn : m.Noted E P n) (hn' : m'.Noted E P n') :
    Alike P r origin n n' where
  session := by
    have hgist := congrArg (Session.gist r) hn.session
    have hgist' := congrArg (Session.gist r) hn'.session
    exact (hgist.trans h.session).trans hgist'.symm
  store := by rw [hn.store, hn'.store, h.store]
  strategy := by rw [hn.strategy, hn'.strategy, h.strategy]
  engine := ⟨(hn.engine h.engine.1).1, (hn'.engine h.engine.2).1⟩
  lasts := h.lasts.trans hn.lasts

/-- The mark of a repair on the live iteration. -/
theorem repaired (h : Alike P r origin m m') :
    Alike P r origin
      { m with session := m.session.modifyIteration fun it => { it with repaired := true } }
      { m' with session := m'.session.modifyIteration fun it => { it with repaired := true } } where
  session := by
    rw [Session.coarse_modifyIteration r, h.session, ← Session.coarse_modifyIteration r]
  store := h.store
  strategy := h.strategy
  engine := h.engine
  lasts := h.lasts.trans (.of_eq rfl rfl rfl rfl rfl rfl rfl rfl rfl)

end Alike

theorem SearchedAlike.noted {r : Regard} {origin : Callback α} {m m' n n' : Master α σ}
    (h : SearchedAlike E P r origin m m') (hn : m.Noted E P n) (hn' : m'.Noted E P n') :
    SearchedAlike E P r origin n n' where
  toAlike := h.toAlike.noted hn hn'
  finalBound := by
    rw [(hn.engine h.engine.1).2, (hn'.engine h.engine.2).2, h.finalBound]

variable [Scalar α] {r : Regard} {origin : Callback α} {m m' : Master α σ}

/-- A search leaves masters alike, and ends with the same status. -/
theorem Alike.runSearch (hE : E.Repeats P) (hsteady : origin.Steady r)
    (h : Alike P r origin m m') :
    SearchedAlike E P r origin (m.runSearch E).1 (m'.runSearch E).1 ∧
      (m.runSearch E).2 = (m'.runSearch E).2 := by
  have hcallback : m.callback.gist r = m'.callback.gist r := by
    change Callback.start (m.session.gist r) (m.store.gist r) m.strategy =
      Callback.start (m'.session.gist r) (m'.store.gist r) m'.strategy
    rw [h.session, h.store, h.strategy]
  -- The searches take the same course, whatever the callbacks differ in.
  have hrun := (hE.search _ _ h.engine.1 h.engine.2).run hcallback (hsteady.lasts h.lasts)
  have hlasts := Search.lasts_run (E.search m.engine) m.callback
  have horigin := h.lasts
  unfold Master.callback at hrun hlasts horigin
  simp only [Master.runSearch]
  -- What follows is about the ends of the searches.
  generalize (E.search m.engine).run (Callback.start m.session m.store m.strategy) = out
    at hrun hlasts ⊢
  generalize (E.search m'.engine).run (Callback.start m'.session m'.store m'.strategy) = out'
    at hrun ⊢
  obtain ⟨c, g, result⟩ := out
  obtain ⟨c', g', result'⟩ := out'
  obtain ⟨hgist, ⟨hg, hg', hbound⟩, hresult⟩ := hrun
  obtain rfl : result = result' := hresult
  have hsearched : SearchedAlike E P r origin ⟨c.session, c.store, m.strategy, g⟩
      ⟨c'.session, c'.store, m'.strategy, g'⟩ :=
    ⟨⟨congrArg Callback.session hgist, congrArg Callback.store hgist, h.strategy, ⟨hg, hg'⟩,
      (horigin.trans hlasts).trans
        (.of_eq rfl rfl rfl hlasts.strategy.symm rfl rfl rfl rfl rfl)⟩, hbound⟩
  -- A search that failed leaves a remark and no status.
  cases result with
  | ok status => exact ⟨hsearched, rfl⟩
  | error e =>
    exact ⟨⟨hsearched.toAlike.noted (noted_note (E := E) _ _) (noted_note (E := E) _ _),
      hsearched.finalBound⟩, rfl⟩

theorem SearchedAlike.retryBoundedObjective (hE : E.Repeats P) (hsteady : origin.Steady r)
    (h : SearchedAlike E P r origin m m') (status : Status) :
    SearchedAlike E P r origin (m.retryBoundedObjective E status).1
        (m'.retryBoundedObjective E status).1 ∧
      (m.retryBoundedObjective E status).2 = (m'.retryBoundedObjective E status).2 := by
  have hsuspect : m.suspectObjective? status = m'.suspectObjective? status := by
    simp only [suspectObjective?, h.problem]
  simp only [Master.retryBoundedObjective, hsuspect, h.settings]
  split
  · exact ⟨h, rfl⟩
  next aux _ =>
    have hsettings := h.settings
    generalize m'.session.settings.dual.auxiliaryBound = bound
    have hbounded := h.noted
      ((noted_note m [.boundingObjective bound]).trans (noted_setBounds hE _ aux (-bound) bound))
      ((noted_note m' [.boundingObjective bound]).trans (noted_setBounds hE _ aux (-bound) bound))
    -- Whether the bounds could be written is the same, for the engines agree on that.
    have hdone : ((m.note [.boundingObjective bound]).setBounds E aux (-bound) bound).2 =
        ((m'.note [.boundingObjective bound]).setBounds E aux (-bound) bound).2 := by
      rw [setBounds_snd, setBounds_snd]
      exact hE.boundsTaken _ _ _ _ _ h.engine.1 h.engine.2
    generalize (m.note [.boundingObjective bound]).setBounds E aux (-bound) bound = b
      at hbounded hdone ⊢
    generalize (m'.note [.boundingObjective bound]).setBounds E aux (-bound) bound = b'
      at hbounded hdone ⊢
    rw [hdone]
    split
    · exact ⟨hbounded, rfl⟩
    · obtain ⟨hsearched, hstatus⟩ := hbounded.toAlike.runSearch hE hsteady
      exact ⟨hsearched.noted (noted_setBounds hE _ _ _ _) (noted_setBounds hE _ _ _ _), hstatus⟩

/-- Columns are bounded that can be given their bounds back. -/
theorem noted_boundColumns (hE : E.Repeats P) (m : Master α σ) (columns : List Nat)
    (bound : α) :
    let read := m.readBounds E columns
    m.Noted E P ((read.1.note [.boundingVariables read.2.length bound]).setAllBounds E
      (read.2.map fun t => (t.1, -bound, bound))) :=
  ((noted_readBounds m columns).trans (noted_note _ _)).trans (noted_setAllBounds hE _ _)

theorem SearchedAlike.retryBoundedColumns (hE : E.Repeats P) (hsteady : origin.Steady r)
    (h : SearchedAlike E P r origin m m') :
    SearchedAlike E P r origin (m.retryBoundedColumns E).1 (m'.retryBoundedColumns E).1 ∧
      (m.retryBoundedColumns E).2 = (m'.retryBoundedColumns E).2 := by
  have hsuspects : m.suspectColumns = m'.suspectColumns := by
    simp only [suspectColumns, h.problem, h.settings]
  simp only [Master.retryBoundedColumns, hsuspects, h.settings]
  split
  · exact ⟨h.noted (noted_note _ _) (noted_note _ _), rfl⟩
  · generalize m'.session.settings.dual.unboundedBound /
      m'.session.settings.dual.unboundedScaling = bound
    have hbounded := h.toAlike.noted (noted_boundColumns hE m m'.suspectColumns bound)
      (noted_boundColumns hE m' m'.suspectColumns bound)
    obtain ⟨hsearched, hstatus⟩ := hbounded.runSearch hE hsteady
    -- What was read may differ, but it only goes back to the engine.
    have hrestored := hsearched.noted
      (noted_setAllBounds hE _ (m.readBounds E m'.suspectColumns).2)
      (noted_setAllBounds hE _ (m'.readBounds E m'.suspectColumns).2)
    exact ⟨⟨hrestored.toAlike.repaired, hrestored.finalBound⟩, hstatus⟩

theorem SearchedAlike.recordFinalBound (h : SearchedAlike E P r origin m m') (status : Status) :
    Alike P r origin (m.recordFinalBound E status) (m'.recordFinalBound E status) := by
  simp only [Master.recordFinalBound, h.finalBound]
  split
  · exact h.toAlike
  · cases E.finalBound m'.engine with
    | error e => exact h.toAlike.noted (noted_note (E := E) _ _) (noted_note (E := E) _ _)
    | ok bound =>
      dsimp only
      split
      · rw [h.iterations]
        refine ⟨?_, h.store, h.strategy, h.engine,
          h.lasts.trans (.of_eq rfl rfl rfl rfl rfl rfl rfl rfl rfl)⟩
        rw [Session.coarse_offerDual r, h.session, ← Session.coarse_offerDual r]
      · exact h.toAlike

/-- So does a search with its remedies. -/
theorem Alike.solve (hE : E.Repeats P) (hsteady : origin.Steady r) (h : Alike P r origin m m') :
    Alike P r origin (m.solve E).1 (m'.solve E).1 ∧ (m.solve E).2 = (m'.solve E).2 := by
  obtain ⟨hfirst, hfirststatus⟩ := h.runSearch hE hsteady
  obtain ⟨hsecond, hstatus⟩ := hfirst.retryBoundedObjective hE hsteady (m.runSearch E).2
  -- The third search follows on a condition about the status, which is the same.
  have hthird : ∀ (st : Status) {u u' : Master α σ}, SearchedAlike E P r origin u u' →
      SearchedAlike E P r origin (if st = .unbounded then u.retryBoundedColumns E else (u, st)).1
          (if st = .unbounded then u'.retryBoundedColumns E else (u', st)).1 ∧
        (if st = .unbounded then u.retryBoundedColumns E else (u, st)).2 =
          (if st = .unbounded then u'.retryBoundedColumns E else (u', st)).2 := by
    intro st u u' hu
    split
    · exact hu.retryBoundedColumns hE hsteady
    · exact ⟨hu, rfl⟩
  rw [hfirststatus] at hsecond hstatus
  obtain ⟨hlast, hend⟩ := hthird
    ((m'.runSearch E).1.retryBoundedObjective E (m'.runSearch E).2).2 hsecond
  simp only [Master.solve, hfirststatus, hstatus, hend]
  exact ⟨hlast.recordFinalBound _, trivial⟩

/-! ### Repair -/

theorem noted_relaxRow (hE : E.Repeats P) (factor : α) (acc : Master α σ × Nat)
    (target : Nat × α) : acc.1.Noted E P (relaxRow E factor acc target).1 := by
  simp only [relaxRow]
  split
  · exact .refl _
  · split
    · exact noted_note _ _
    next upper _ =>
      have hwrite := hE.setRowUpper acc.1.engine target.1 (upper + factor * target.2)
      split <;> exact ⟨rfl, rfl, rfl, hwrite⟩

theorem Alike.relaxRows (hE : E.Repeats P) (h : Alike P r origin m m') (rows : List Nat)
    (slacks slacks' : List α) :
    Alike P r origin (m.relaxRows E rows slacks) (m'.relaxRows E rows slacks') := by
  have hrelaxed : ∀ (u : Master α σ) (factor : α) (targets : List (Nat × α)),
      u.Noted E P (targets.foldl (relaxRow E factor) (u, 0)).1 := fun u factor targets =>
    List.foldlRecOn targets _ (motive := fun acc => u.Noted E P (Prod.fst acc)) (.refl u)
      fun acc hacc target _ => hacc.trans (noted_relaxRow hE factor acc target)
  simp only [Master.relaxRows]
  exact (h.noted ((hrelaxed m _ _).trans (noted_note _ _))
    ((hrelaxed m' _ _).trans (noted_note _ _))).repaired

omit [Scalar α] in
/-- Rows to relax are rows of entries, so entries without one do not matter. -/
theorem Alike.repairRows (h : Alike P r origin m m') : m.repairRows = m'.repairRows := by
  -- Entries that are no rows of the model are passed over when the rows are listed.
  have hrows : ∀ entries : List (GeneratedCut α),
      (entries.filter fun e => !e.removed && !e.convex).filterMap (·.row) =
        ((entries.filter (·.row.isSome)).filter fun e => !e.removed && !e.convex).filterMap
          (·.row) := by
    intro entries
    induction entries with
    | nil => rfl
    | cons entry rest ih =>
      cases hrow : entry.row with
      | none =>
        rw [List.filter_cons, List.filter_cons, hrow]
        split
        · exact (List.filterMap_cons_none hrow).trans ih
        · exact ih
      | some row =>
        rw [List.filter_cons, List.filter_cons, hrow, Option.isSome_some, if_pos rfl,
          List.filter_cons]
        split
        · rw [List.filterMap_cons_some hrow, List.filterMap_cons_some hrow, ih]
        · exact ih
  have hledger := congrArg (fun st : CutStore α => st.ledger.entries) h.store
  simp only [CutStore.gist] at hledger
  simp only [Master.repairRows, h.settings]
  rw [hrows, hledger, ← hrows]

theorem repair_of_isEmpty (m : Master α σ) (h : m.repairRows.isEmpty = true) :
    m.Noted E P (m.repair E).1 ∧ (m.repair E).2 = false := by
  simp only [Master.repair, h, if_true]
  split
  · exact ⟨.refl m, rfl⟩
  · exact ⟨noted_note _ _, rfl⟩

theorem Alike.repair (hE : E.Repeats P) (h : Alike P r origin m m') :
    Alike P r origin (m.repair E).1 (m'.repair E).1 ∧ (m.repair E).2 = (m'.repair E).2 := by
  have hrows := h.repairRows
  -- Without rows to relax nothing is asked, and both leave a remark.
  by_cases hempty : m.repairRows.isEmpty = true
  · obtain ⟨hnoted, hfalse⟩ := repair_of_isEmpty m hempty
    obtain ⟨hnoted', hfalse'⟩ := repair_of_isEmpty m' (hrows ▸ hempty)
    exact ⟨h.noted hnoted hnoted', hfalse.trans hfalse'.symm⟩
  · have hentries : ∀ u : Master α σ, u.repairRows = m.repairRows →
        u.store.ledger.entries.isEmpty = false := by
      intro u hu
      cases hnil : u.store.ledger.entries with
      | nil =>
        rw [← hu] at hempty
        simp [Master.repairRows, hnil] at hempty
      | cons _ _ => rfl
    have hstatus := hE.elasticStatus _ _ m.repairRows (m.repairRows.map repairPrice)
      h.engine.1 h.engine.2
    -- Asked for the slacks, the engines stay of the kind that repeats itself.
    have hsolved : Alike P r origin
        { m with engine := (E.elastic m.engine m.repairRows (m.repairRows.map repairPrice)).1 }
        { m' with
          engine := (E.elastic m'.engine m.repairRows (m.repairRows.map repairPrice)).1 } :=
      ⟨h.session, h.store, h.strategy,
        ⟨hE.elastic _ _ _ h.engine.1, hE.elastic _ _ _ h.engine.2⟩, h.lasts⟩
    rcases hout : E.elastic m.engine m.repairRows (m.repairRows.map repairPrice) with ⟨g, answer⟩
    rcases hout' : E.elastic m'.engine m.repairRows (m.repairRows.map repairPrice) with
      ⟨g', answer'⟩
    rw [hout, hout'] at hstatus hsolved
    simp only [Master.repair, hentries m rfl, hentries m' hrows.symm, ← hrows, hempty, hout, hout',
      Bool.false_eq_true, if_false]
    cases answer with
    | error e =>
      cases answer' with
      | error e' => exact ⟨hsolved.noted (noted_note (E := E) _ _) (noted_note (E := E) _ _), rfl⟩
      | ok solution' => cases hstatus
    | ok solution =>
      cases answer' with
      | error e' => cases hstatus
      | ok solution' =>
        -- The slacks may differ: they change right-hand sides, which only the engine knows.
        have hsame : solution.status = solution'.status := Option.some.inj hstatus
        simp only [hsame]
        split
        · exact ⟨hsolved.relaxRows hE _ _ _, rfl⟩
        · exact ⟨hsolved.noted (noted_note (E := E) _ _) (noted_note (E := E) _ _), rfl⟩

end Master

namespace Solver

variable [Scalar α] {E : Engine α σ} {P : σ → Prop} {r : Regard} {origin : Callback α}

theorem alike_repairAndResolve (hE : E.Repeats P) (hsteady : origin.Steady r)
    {m m' : Master α σ} (h : Master.Alike P r origin m m') (status : Status) :
    Master.Alike P r origin (repairAndResolve E m status).1 (repairAndResolve E m' status).1 ∧
      (repairAndResolve E m status).2 = (repairAndResolve E m' status).2 := by
  obtain ⟨hrepaired, hdone⟩ := h.repair hE
  simp only [repairAndResolve]
  generalize m.repair E = out at hrepaired hdone ⊢
  generalize m'.repair E = out' at hrepaired hdone ⊢
  obtain ⟨u, done⟩ := out
  obtain ⟨u', done'⟩ := out'
  obtain rfl : done = done' := hdone
  split
  · exact ⟨h, rfl⟩
  -- Only after a repair is there a second round.
  · cases done with
    | false =>
      exact ⟨hrepaired.noted (Master.noted_note (E := E) _ _) (Master.noted_note (E := E) _ _), rfl⟩
    | true =>
      obtain ⟨hsolved, hagain⟩ := (hrepaired.noted (Master.noted_note (E := E) _ [.resolving])
        (Master.noted_note (E := E) _ [.resolving])).solve hE hsteady
      dsimp only
      rw [hagain]
      exact ⟨hsolved, rfl⟩

theorem noted_solve (s : Solver α σ) (hvalid : s.master.session.settings.validate = .ok ()) :
    (repairAndResolve E (s.startMaster.solve E).1 (s.startMaster.solve E).2).1.Noted E P
      (s.solve E).1.master := by
  simp only [solve, hvalid]
  exact (Master.noted_note _ _).trans (Master.noted_note _ _)

/-- Solves from masters that are alike leave them alike, with the same verdict. -/
theorem alike_solve (hE : E.Repeats P) {s s' : Solver α σ}
    (hvalid : s.master.session.settings.validate = .ok ())
    (hvalid' : s'.master.session.settings.validate = .ok ()) (hsteady : origin.Steady r)
    (h : Master.Alike P r origin s.startMaster s'.startMaster) :
    Master.Alike P r origin (s.solve E).1.master (s'.solve E).1.master ∧
      s.verdict E = s'.verdict E := by
  obtain ⟨hfirst, hstatus⟩ := h.solve hE hsteady
  obtain ⟨hsecond, hend⟩ := alike_repairAndResolve hE hsteady hfirst (s.startMaster.solve E).2
  rw [verdict_eq E s hvalid, verdict_eq E s' hvalid', ← hstatus]
  refine ⟨?_, hend⟩
  rw [hstatus] at hsecond
  exact hsecond.noted (hstatus ▸ noted_solve s hvalid) (noted_solve s' hvalid')

/-! ### A second solve -/

/-- What a verdict amounts to is told by the gist: the clock is asked whether time is up. -/
theorem finalStatus_gist (t : Session α) (verdict : Status) :
    finalStatus (t.gist r) verdict = finalStatus t verdict := by
  simp only [finalStatus, Session.timeLimitReached, Session.gist, Clock.reached_coarse]
  rfl

/-- The report of a session depends on its gist, but for the number of no-good cuts. -/
theorem report_congr {t t' : Session α} (h : t.gist r = t'.gist r) (verdict : Status) :
    report t' (finalStatus t' verdict) =
      { report t (finalStatus t verdict) with integerCuts := t'.statistics.integerCuts } := by
  have hstatus : finalStatus t verdict = finalStatus t' verdict := by
    rw [← finalStatus_gist (r := r), h, finalStatus_gist]
  have hreport := congrArg (fun u : Session α =>
    { report u (finalStatus t' verdict) with integerCuts := t'.statistics.integerCuts }) h
  rw [hstatus]
  exact hreport.symm

/-- The local solver was tried on the same, and last in the same iteration. -/
def SameTrials (s s' : Solver α σ) : Prop :=
  s'.master.store.fixedInteger.tried = s.master.store.fixedInteger.tried ∧
    s'.master.store.fixedInteger.lastIteration = s.master.store.fixedInteger.lastIteration

/-- One solver sets out from where another one did: they have the same interior point, and have
    tried the same with the local solver, unless the rule does not look at that. Nor does time
    make a difference to their next solves. -/
structure SameOutset (s s' : Solver α σ) : Prop where
  /-- The interior point is the same. -/
  interior : s'.master.store.interior = s.master.store.interior
  /-- The local solver was tried on the same, if that is looked at. -/
  memory : s.master.session.settings.primal.fixedInteger = .never ∨
    s.master.session.settings.primal.fixedInteger = .always ∨ s.SameTrials s'
  /-- With the clocks started anew, the same looks at them find time up. -/
  time : s.master.session.clock.restart.Agree
    s.master.session.settings.termination.timeLimit s'.master.session.clock.restart

/-- After a solve, the next one starts with the same gist. -/
theorem alike_startMaster {s s' : Solver α σ}
    (hlasts : s.startMaster.callback.Lasts s'.master.callback)
    (hhyperplanes : s'.initialHyperplanes = s.initialHyperplanes)
    (hinitial : s'.initialIntegerCuts = s.initialIntegerCuts)
    (hwaiting : s.master.store.waiting = []) (hwaiting' : s'.master.store.waiting = [])
    (hengine : P s.master.engine ∧ P s'.master.engine) (hsame : s.SameOutset s')
    (hunmarked : s'.master.store.fixedInteger.overflowed = false)
    (hmemory : r.memory = true → s.SameTrials s')
    (hcuts : r.cuts = true → s'.master.store.integerCuts = s.master.store.integerCuts) :
    Master.Alike P r s.startMaster.callback s.startMaster s'.startMaster where
  session := by
    have hproblem : s'.master.session.problem = s.master.session.problem := hlasts.problem
    have hsettings : s'.master.session.settings = s.master.session.settings := hlasts.settings
    have hclock := (Clock.coarse_eq_iff _ _ _).2 hsame.time
    simp only [startMaster, freshSession, Session.gist, Session.modifyStatistics,
      Session.modifyIteration, Session.openIteration, Session.note, Session.reset, hproblem,
      hsettings, hclock, hhyperplanes, hinitial]
  store := by
    have hsolver : s'.master.store.fixedInteger.solver = s.master.store.fixedInteger.solver :=
      hlasts.trials.solver
    -- A mark would have stayed.
    have hmark : s'.master.store.fixedInteger.overflowed =
        s.master.store.fixedInteger.overflowed :=
      hunmarked.trans (Bool.eq_false_iff.2 fun hmark =>
        Bool.noConfusion (hunmarked.symm.trans (hlasts.trials.mark hmark))).symm
    have hrows : s'.master.store.ledger.entries.filter (·.row.isSome) =
        s.master.store.ledger.entries.filter (·.row.isSome) := hlasts.rows
    have hqueue : s.master.store.fixedInteger.gist r = s'.master.store.fixedInteger.gist r := by
      cases hr : r.memory with
      | false => simp only [FixedIntegerQueue.gist, hr, hsolver, hmark, cond_false]
      | true =>
        simp only [FixedIntegerQueue.gist, hr, hsolver, hmark, cond_true, (hmemory hr).1,
          (hmemory hr).2]
    -- The queue of no-good cuts is compared only if it is looked at.
    cases hr : r.cuts with
    | false =>
      simp only [startMaster, CutStore.gist, hr, cond_false, hqueue, hrows, hwaiting, hwaiting',
        hsame.interior]
    | true =>
      simp only [startMaster, CutStore.gist, hr, cond_true, hqueue, hrows, hwaiting, hwaiting',
        hsame.interior, hcuts hr]
  strategy := hlasts.strategy.symm
  engine := hengine
  lasts := .refl _

/-- What lasts in a solve. -/
theorem lasts_solve (hE : E.Repeats P) (s : Solver α σ)
    (hvalid : s.master.session.settings.validate = .ok ())
    (hsteady : s.master.store.fixedInteger.Steady) (hengine : P s.master.engine) :
    s.startMaster.callback.Lasts (s.solve E).1.master.callback ∧
      P (s.solve E).1.master.engine := by
  -- What holds of two masters that are alike holds of a master and itself.
  have hself : Master.Alike P ⟨true, true, true⟩ s.startMaster.callback s.startMaster
      s.startMaster := ⟨rfl, rfl, rfl, ⟨hengine, hengine⟩, .refl _⟩
  have hsolved := (alike_solve hE hvalid hvalid ⟨hsteady, .inl rfl⟩ hself).1
  exact ⟨hsolved.lasts, hsolved.engine.1⟩

theorem interior_solve (hE : E.Repeats P) (s : Solver α σ)
    (hvalid : s.master.session.settings.validate = .ok ())
    (hsteady : s.master.store.fixedInteger.Steady) (hengine : P s.master.engine)
    (h : s.master.strategy.needsInterior = false ∨
      s.master.session.settings.boundary.interiorUpdate = .keep) :
    (s.solve E).1.master.store.interior = s.master.store.interior :=
  (lasts_solve hE s hvalid hsteady hengine).1.interior h

/-! ### The life of a solver -/

/-- The settings stay, and so does the kind of state that the engine is in. -/
theorem keeps_invariant (hE : E.Repeats P) (given : Settings α) :
    Master.Invariant E (fun _ => True) fun _ t _ g => t.settings = given ∧ P g where
  search _ m _ h := ⟨(Search.lasts_run _ m.callback).settings.trans h.1,
    (hE.search _ _ h.2 h.2).end_left (fun _ _ hends => hends.1) _⟩
  bounds _ _ _ _ _ _ _ h := ⟨h.1, (hE.setColumnBounds _ _ _ _ h.2).1⟩
  rowUpper _ _ _ _ _ _ h := ⟨h.1, (hE.setRowUpper _ _ _ h.2).1⟩
  elastic _ _ _ _ _ _ h := ⟨h.1, hE.elastic _ _ _ h.2⟩
  note _ _ _ _ _ h := h
  dual _ _ _ _ _ h := h
  repaired _ _ _ _ h := h

theorem engine_addRows (hE : E.Repeats P) (number : Nat) (hs : List (Hyperplane α))
    (acc : Master α σ × Nat) (h : P acc.1.engine) :
    P (hs.foldl (Master.addRow E number) acc).1.engine := by
  induction hs generalizing acc with
  | nil => exact h
  | cons x rest ih =>
    refine ih _ ?_
    obtain ⟨_, _, hengine, -⟩ | ⟨l, g, _, _, hanswer, hengine, -⟩ |
      ⟨l, g, _, _, hanswer, hengine, -⟩ := Master.addRow_cases E number acc x
    · rw [hengine]
      exact h
    -- The engine was asked for a row, and it is of the same kind whatever it answered.
    all_goals
      have hadded := hE.addRow _ l.row s!"h_{acc.1.store.ledger.size}" h
      rw [hanswer] at hadded
      rw [hengine]
      exact hadded

/-- Rows that are added change neither the settings nor the kind of state of the engine. -/
theorem keeps_addWaitingRows (hE : E.Repeats P) {m : Master α σ} (h : P m.engine) :
    (m.addWaitingRows E).1.session.settings = m.session.settings ∧
      P (m.addWaitingRows E).1.engine := by
  have hsettings := Master.session_addRows E m.session.iterations.lastNumber m.store.waiting
    ({ m with store := { m.store with waiting := [] } }, 0)
  have hengine := engine_addRows hE m.session.iterations.lastNumber m.store.waiting
    ({ m with store := { m.store with waiting := [] } }, 0) h
  simp only [Master.addWaitingRows]
  split <;> exact ⟨hsettings.2.1, hengine⟩

theorem engine_addIntegerCutRow (hE : E.Repeats P) {s : Solver α σ} (h : P s.master.engine)
    (indices : List Nat) : P (s.addIntegerCutRow E indices).1.master.engine := by
  simp only [addIntegerCutRow, Master.addIntegerCutRow]
  cases (noGoodRow s.master.session.problem.dimension indices : Option (Row α)) with
  | none => exact h
  | some row =>
    -- Whether the engine takes the row or refuses it, it has been asked.
    have hasked := hE.addRow _ row s!"ic_{s.master.session.statistics.integerCuts}" h
    cases hanswer : (E.addRow s.master.engine row
        s!"ic_{s.master.session.statistics.integerCuts}").2 <;>
    · simp only [hanswer]
      exact hasked

/-- So does a preparation, whichever it is. Only two of them ask the engine for anything. -/
theorem keeps_prepare (hE : E.Repeats P) {s : Solver α σ} (h : P s.master.engine)
    (preparation : Preparation α) :
    (s.prepare E preparation).master.session.settings = s.master.session.settings ∧
      P (s.prepare E preparation).master.engine := by
  obtain ⟨hs, rfl⟩ | ⟨hkept, -⟩ := s.prepare_cases (E := E) preparation
  · exact keeps_addWaitingRows (m := (s.mapStore (·.request hs)).master) hE h
  refine ⟨hkept.settings, ?_⟩
  cases preparation with
  | interior x =>
    -- A point that is refused leaves the solver as it was.
    simp only [prepare, setInterior]
    split
    · exact h
    · split
      · exact h
      · split <;> exact h
  | fixedInteger solver => exact h
  | queueIntegerCut indices => exact h
  | integerCutRow indices => exact engine_addIntegerCutRow hE h indices
  | hyperplanes hs =>
    exact (keeps_addWaitingRows (m := (s.mapStore (·.request hs)).master) hE h).2

/-- A solver between two deeds, with an engine that repeats itself. -/
structure Poised (P : σ → Prop) (given : Settings α) (s : Solver α σ) : Prop where
  /-- The settings are those that were given. -/
  settings : s.master.session.settings = given
  /-- The engine repeats itself. -/
  engine : P s.master.engine
  /-- The queue of the local search is marked only by the rule that can overflow. -/
  marked : s.master.store.fixedInteger.MarkedBy given.primal.fixedInteger
  /-- The cut ledger mirrors the engine, and nothing waits. -/
  faithful : ∃ p taken, s.Faithful p taken

theorem poised_create {p : Problem α} {given : Settings α} {engine : σ} {clock : Clock}
    {created : Solver α σ} (h : create E p given engine clock = .ok created)
    (hengine : P engine) : created.Poised P given := by
  have hfaithful := faithful_create h
  obtain ⟨-, rfl⟩ := create_eq_ok h
  exact ⟨rfl, hengine, nofun, p, [], hfaithful⟩

variable {given : Settings α} {s : Solver α σ}

theorem Poised.waiting (h : s.Poised P given) : s.master.store.waiting = [] := by
  obtain ⟨_, _, hfaithful⟩ := h.faithful
  exact hfaithful.2.waiting

theorem Poised.perform (hE : E.Repeats P) (hvalid : given.validate = .ok ())
    (h : s.Poised P given) (deed : Deed α) : (s.perform E deed).Poised P given := by
  obtain ⟨p, taken, hfaithful⟩ := h.faithful
  have hafter := (history_perform (E := E) hfaithful deed).1
  cases deed with
  | prepare preparation =>
    obtain ⟨hsettings, hengine⟩ := keeps_prepare hE h.engine preparation
    exact ⟨hsettings.trans h.settings, hengine, s.markedBy_prepare h.marked preparation, p, _,
      hafter⟩
  | solve =>
    obtain ⟨hsettings, hengine⟩ := (invariant_solve (τ := []) (keeps_invariant hE given) s
      (h.settings.symm ▸ hvalid) (fun _ _ => trivial) ⟨h.settings, h.engine⟩).2
    obtain ⟨-, hmarked⟩ := marked_solve E s (h.settings.symm ▸ hvalid) (h.settings.symm ▸ h.marked)
    exact ⟨hsettings, hengine, h.settings ▸ hmarked, p, _, hafter⟩

theorem Poised.performAll (hE : E.Repeats P) (hvalid : given.validate = .ok ())
    (h : s.Poised P given) (deeds : List (Deed α)) : (s.performAll E deeds).Poised P given := by
  induction deeds generalizing s with
  | nil => exact h
  | cons deed rest ih => exact ih (h.perform hE hvalid deed)

theorem initial_solve (s : Solver α σ) :
    (s.solve E).1.initialHyperplanes = s.initialHyperplanes ∧
      (s.solve E).1.initialIntegerCuts = s.initialIntegerCuts := by
  simp only [solve]
  split <;> exact ⟨rfl, rfl⟩

/-- The outset decides on what is looked at, and with it the session that a solve ends with and
    whether the queue of the local search has overflowed. -/
theorem exists_gist_solve (hE : E.Repeats P) (hvalid : given.validate = .ok ())
    (h : s.Poised P given) (hsteady : s.master.store.fixedInteger.Steady)
    (s' : Solver α σ) (hsolve : s' = (s.solve E).1) (hsame : s.SameOutset s')
    (hunmarked : s'.master.store.fixedInteger.overflowed = false) (cuts : Bool)
    (hcuts : cuts = true → s'.master.store.integerCuts = s.master.store.integerCuts) :
    ∃ r : Regard, r.cuts = cuts ∧
      s'.master.session.gist r = (s'.solve E).1.master.session.gist r ∧
      (s'.solve E).1.master.store.fixedInteger.overflowed = false ∧
      s.verdict E = s'.verdict E := by
  have hvalids : s.master.session.settings.validate = .ok () := h.settings.symm ▸ hvalid
  obtain ⟨hlasts, -⟩ := lasts_solve hE s hvalids hsteady h.engine
  obtain ⟨hhyperplanes, hinitial⟩ := initial_solve (E := E) s
  have h' : (s.solve E).1.Poised P given := h.perform hE hvalid .solve
  rw [← hsolve] at hlasts hhyperplanes hinitial h'
  have halike : ∀ memory : Bool,
      (memory = true ∨ s.master.session.settings.primal.fixedInteger = .never ∨
        s.master.session.settings.primal.fixedInteger = .always) →
      (memory = true → s.SameTrials s') →
      Master.Alike P ⟨cuts, memory, cuts⟩ s.startMaster.callback s'.master
          (s'.solve E).1.master ∧ s.verdict E = s'.verdict E := by
    intro memory hrule hmemory
    -- The two starts look alike, under this regard.
    have hstart : Master.Alike P ⟨cuts, memory, cuts⟩ s.startMaster.callback s.startMaster
        s'.startMaster :=
      alike_startMaster hlasts hhyperplanes hinitial h.waiting h'.waiting ⟨h.engine, h'.engine⟩
        hsame hunmarked hmemory hcuts
    have hsolved := alike_solve hE hvalids (h'.settings.symm ▸ hvalid) ⟨hsteady, hrule⟩ hstart
    rw [← hsolve] at hsolved
    exact hsolved
  -- What was tried is looked at only if the rule does so.
  obtain ⟨memory, hrule, hmemory⟩ : ∃ memory : Bool,
      (memory = true ∨ s.master.session.settings.primal.fixedInteger = .never ∨
        s.master.session.settings.primal.fixedInteger = .always) ∧
      (memory = true → s.SameTrials s') := by
    obtain hnever | halways | htried := hsame.memory
    · exact ⟨false, .inr (.inl hnever), nofun⟩
    · exact ⟨false, .inr (.inr halways), nofun⟩
    · exact ⟨true, .inl rfl, fun _ => htried⟩
  obtain ⟨hsolved, hverdict⟩ := halike memory hrule hmemory
  have hqueue := FixedIntegerQueue.overflowed_eq_of_gist
    (congrArg CutStore.fixedInteger hsolved.store)
  exact ⟨_, rfl, hsolved.session, hqueue.symm.trans hunmarked, hverdict⟩

/-- Both solves count the same no-good cuts if the first one leaves their queue as it was, or if
    they are not added at all. -/
theorem integerCuts_solve_again (hE : E.Repeats P) (hvalid : given.validate = .ok ())
    (h : s.Poised P given) (hsteady : s.master.store.fixedInteger.Steady)
    (s' : Solver α σ) (hsolve : s' = (s.solve E).1) (hsame : s.SameOutset s')
    (hunmarked : s'.master.store.fixedInteger.overflowed = false)
    (hcuts : s'.master.store.integerCuts = s.master.store.integerCuts ∨
      given.dual.useIntegerCuts = false) :
    (s'.solve E).1.master.session.statistics.integerCuts =
      s'.master.session.statistics.integerCuts := by
  obtain hqueue | hoff := hcuts
  · obtain ⟨r, hr, hlooked, -⟩ :=
      exists_gist_solve hE hvalid h hsteady s' hsolve hsame hunmarked true fun _ => hqueue
    have hnumber := congrArg (fun t : Session α => t.statistics.integerCuts) hlooked
    simp only [Session.gist, hr, cond_true] at hnumber
    exact hnumber.symm
  · -- Both count what was there before the search.
    have hcount : ∀ u : Solver α σ, u.Poised P given → u.master.store.fixedInteger.Steady →
        (u.solve E).1.master.session.statistics.integerCuts = u.initialIntegerCuts := by
      intro u hu hsteady
      have hsettings : u.startMaster.callback.session.settings = given := hu.settings
      have hlasts := (lasts_solve hE u (hu.settings.symm ▸ hvalid) hsteady hu.engine).1
      exact hlasts.count (hsettings.symm ▸ hoff)
    have hlasts := (lasts_solve hE s (h.settings.symm ▸ hvalid) hsteady h.engine).1
    have hsteady' : (s.solve E).1.master.store.fixedInteger.Steady := by
      unfold FixedIntegerQueue.Steady
      rw [show (s.solve E).1.master.store.fixedInteger.solver =
        s.master.store.fixedInteger.solver from hlasts.trials.solver]
      exact hsteady
    subst hsolve
    have hsecond := hcount (s.solve E).1 (h.perform hE hvalid .solve) hsteady'
    exact (hsecond.trans (initial_solve (E := E) s).2).trans (hcount s h hsteady).symm

/-- A solve leaves the outset of the next one as it was if nothing of what it may change is looked
    at: the interior point stays, what was tried does not matter, and there is no time limit. -/
theorem sameOutset_solve (hE : E.Repeats P) (hvalid : given.validate = .ok ())
    (h : s.Poised P given) (hsteady : s.master.store.fixedInteger.Steady)
    (hinterior : s.master.strategy.needsInterior = false ∨ given.boundary.interiorUpdate = .keep)
    (hmemory : s.master.store.fixedInteger.solver = none ∨ given.primal.fixedInteger = .never ∨
      given.primal.fixedInteger = .always)
    (hunlimited : given.termination.timeLimit = none) : s.SameOutset (s.solve E).1 := by
  have hvalids : s.master.session.settings.validate = .ok () := h.settings.symm ▸ hvalid
  have hlasts := (lasts_solve hE s hvalids hsteady h.engine).1
  refine ⟨interior_solve hE s hvalids hsteady h.engine (by rw [h.settings]; exact hinterior),
    ?_, ?_⟩
  · rw [h.settings]
    -- The memory is empty and stays so, or the rule does not read it.
    obtain hnone | hnever | halways := hmemory
    · have hqueue : (s.solve E).1.master.store.fixedInteger = s.master.store.fixedInteger :=
        hlasts.trials.memory hnone
      exact .inr (.inr ⟨by rw [hqueue], by rw [hqueue]⟩)
    · exact .inl hnever
    · exact .inr (.inl halways)
  · rw [h.settings, hunlimited]
    exact Clock.agree_none _ _

/-- A solver that is solved twice in a row, by an engine that repeats itself and with a local
    solver that does. Both solves end with a report, unless there is a local solver and the rule
    for it is the one that can overflow.

    If the first one does so and leaves the interior point as it was, and what the local solver
    was tried on unless its rule does not look at that, and if time is up for both at the same
    looks at the clock, then the second one ends with a report that says the same, but perhaps
    for the number of no-good cuts: those that the first search takes from the queue are there
    for one solve only. It says all the same if the queue is left as it was, or if no-good cuts
    are not added at all.

    Interior points stay if the strategy needs none or the settings keep them, what was tried
    does not matter without a local solver or if it is always or never asked, and time does not
    without a limit. No cut is left in a queue that was empty. -/
theorem solve_again {p : Problem α} {given : Settings α} {engine : σ} {clock : Clock}
    {created : Solver α σ} (hcreate : create E p given engine clock = .ok created)
    (hE : E.Repeats P) (hengine : P engine) (deeds : List (Deed α))
    (hsteady : (created.performAll E deeds).master.store.fixedInteger.Steady) :
    let s := created.performAll E deeds
    let s' := (s.solve E).1
    ∃ first second, (s.solve E).2 = answer s'.master.store first ∧
      (s'.solve E).2 = answer (s'.solve E).1.master.store second ∧
      ((s.master.store.fixedInteger.solver = none ∨
          ∀ n, given.primal.fixedInteger ≠ .every n) →
        (s.solve E).2 = .ok first ∧ (s'.solve E).2 = .ok second) ∧
      ((s.solve E).2 = .ok first → s.SameOutset s' → (s'.solve E).2 = .ok second ∧
        second = { first with integerCuts := second.integerCuts } ∧
        (s'.master.store.integerCuts = s.master.store.integerCuts ∨
          given.dual.useIntegerCuts = false → second = first)) ∧
      ((s.master.strategy.needsInterior = false ∨ given.boundary.interiorUpdate = .keep) →
        (s.master.store.fixedInteger.solver = none ∨ given.primal.fixedInteger = .never ∨
          given.primal.fixedInteger = .always) →
        given.termination.timeLimit = none → s.SameOutset s') ∧
      (given.dual.useIntegerCuts = true → s.master.store.integerCuts = [] →
        s'.master.store.integerCuts = []) := by
  intro s s'
  have hvalid : given.validate = .ok () := (create_eq_ok hcreate).1
  have h : s.Poised P given := (poised_create hcreate hengine).performAll hE hvalid deeds
  have h' : s'.Poised P given := h.perform hE hvalid .solve
  have hvalids : s.master.session.settings.validate = .ok () := h.settings.symm ▸ hvalid
  have hvalids' : s'.master.session.settings.validate = .ok () := h'.settings.symm ▸ hvalid
  have hstart : s.startMaster.callback.session.settings = given := h.settings
  have hlasts := (lasts_solve hE s hvalids hsteady h.engine).1
  -- Both solves answer with their report, or with an overflow.
  refine ⟨_, _, s.solve_eq_report E hvalids, s'.solve_eq_report E hvalids', ?_, ?_, ?_, ?_⟩
  · intro hsafe
    refine ⟨s.solve_eq_ok E hvalids ?_ ?_, s'.solve_eq_ok E hvalids' ?_ ?_⟩
    · rw [h.settings]
      exact h.marked
    · rw [h.settings]
      exact hsafe
    · rw [h'.settings]
      exact h'.marked
    · rw [h'.settings, show s'.master.store.fixedInteger.solver =
        s.master.store.fixedInteger.solver from hlasts.trials.solver]
      exact hsafe
  -- The second report is that of the same session, up to the number of no-good cuts.
  · intro hfirst hsame
    rw [s.solve_eq_report E hvalids] at hfirst
    have hunmarked := (answer_eq_ok_iff.1 hfirst).1
    obtain ⟨_, -, hsession, hunmarked', hverdict⟩ :=
      exists_gist_solve hE hvalid h hsteady s' rfl hsame hunmarked false nofun
    have hreport := report_congr hsession (s.verdict E)
    rw [s'.solve_eq_report E hvalids', ← hverdict]
    refine ⟨answer_eq_ok_iff.2 ⟨hunmarked', rfl⟩, hreport, fun hcuts => hreport.trans ?_⟩
    rw [integerCuts_solve_again hE hvalid h hsteady s' rfl hsame hunmarked hcuts]
    rfl
  · exact sameOutset_solve hE hvalid h hsteady
  · intro huse hnone
    exact hlasts.queue (by rw [hstart]; exact huse) hnone

end Solver

/-! ## Engines with one script -/

/-- Tables with so many columns, some of which cannot be written. -/
def Tabular.Shaped (columns : Nat) (failing : List Nat) (m : Tabular α) : Prop :=
  m.bounds.length = columns ∧ m.failures.boundsWrite = failing

theorem Tabular.taken_access {β : Type} (failing : List Nat) (table : List β) (i : Nat) :
    (access failing table i).taken = (!failing.contains i && decide (i < table.length)) := by
  unfold access
  split
  next h => rw [h]; rfl
  next h =>
    rw [Bool.not_eq_true] at h
    rw [h]
    by_cases hi : i < table.length
    · rw [List.getElem?_eq_getElem hi, decide_eq_true hi]
      rfl
    · rw [List.getElem?_eq_none (Nat.not_lt.1 hi), decide_eq_false hi]
      rfl

/-- Whatever the handler does but to ask for a stop, the script is played. -/
theorem sameCourse_playEvents {columns : Nat} {failing : List Nat} (script : ScriptedSearch α)
    (events : List (Event α)) {m m' : Tabular α} (h : m.Shaped columns failing)
    (h' : m'.Shaped columns failing) (hbound : m.finalBound = m'.finalBound) :
    (playEvents script events m).SameCourse
      (fun g g' => g.Shaped columns failing ∧ g'.Shaped columns failing ∧
        g.finalBound = g'.finalBound) (playEvents script events m') := by
  induction events generalizing m m' with
  | nil => exact .finish _ ⟨h, h', hbound⟩
  | cons e rest ih =>
    refine .report e fun calls calls' hcalls => ?_
    -- Whether a stop was requested can be told without the no-good rows.
    have hasked : ∀ calls : List (Call α), calls.any Call.isAbort =
        (calls.filter fun c => !c.isNoGood).any Call.isAbort := by
      intro calls
      rw [List.any_filter]
      congr 1
      funext c
      cases c with
      | row kind => cases kind <;> rfl
      | _ => rfl
    dsimp only
    rw [hasked calls, hasked calls', hcalls]
    split
    · exact .finish _ ⟨h, h', hbound⟩
    · exact ih h h' hbound

/-- An engine with one script for all searches repeats itself. -/
theorem scriptedEngine_repeats (script : ScriptedSearch α)
    (elastic : Answer (ElasticSolution α)) (columns : Nat) (failing : List Nat) :
    (scriptedEngine [script] elastic).Repeats (Tabular.Shaped columns failing) where
  search g g' h h' := by
    -- Every search follows the same script, the last one being used again.
    have hscript : ∀ n : Nat, [script][n]?.or [script].getLast? = some script := by
      rintro (_ | n) <;> rfl
    simp only [scriptedEngine, Tabular.engine, hscript]
    exact sameCourse_playEvents script script.events h h' rfl
  addRow g row name h := by
    change (g.addRow row name).1.Shaped columns failing
    unfold Tabular.addRow
    split <;> exact h
  setColumnBounds g column lower upper h := by
    change (g.setColumnBounds column lower upper).1.Shaped columns failing ∧
      (g.setColumnBounds column lower upper).1.finalBound = g.finalBound
    simp only [Tabular.setColumnBounds]
    split
    · exact ⟨h, rfl⟩
    · exact ⟨⟨List.length_set.trans h.1, h.2⟩, rfl⟩
  setRowUpper g row upper h := by
    change (g.setRowUpper row upper).1.Shaped columns failing ∧
      (g.setRowUpper row upper).1.finalBound = g.finalBound
    simp only [Tabular.setRowUpper]
    split <;> exact ⟨h, rfl⟩
  elastic g rows prices h := h
  boundsTaken g g' column lower upper h h' := by
    -- Whether a write succeeds depends on the column and on what fails, not on the bounds.
    have htaken : ∀ m : Tabular α, m.Shaped columns failing →
        (m.setColumnBounds column lower upper).2.taken =
          (!failing.contains column && decide (column < columns)) := by
      intro m hm
      have haccess := Tabular.taken_access m.failures.boundsWrite m.bounds column
      rw [← hm.1, ← hm.2, ← haccess]
      cases hanswer : Tabular.access m.failures.boundsWrite m.bounds column <;>
      · simp only [Tabular.setColumnBounds, Tabular.remember, hanswer]
        rfl
    exact (htaken g h).trans (htaken g' h').symm
  elasticStatus g g' rows prices h h' := rfl

namespace TwoCaps

open Solver

/-- Two variables, neither of which may be above one; the first one is to be large. -/
def problem : Problem Float :=
  ((((Problem.ofObjective (.affine ⟨[(0, -1.0)], 0.0⟩ .minimize)).addVariable
    "x" 0.0 3.0 .real).addVariable "y" 0.0 3.0 .real).addConstraint
      ⟨"left", Affine.toFunction ⟨[(0, 1.0)], 0.0⟩, 1.0, true⟩).addConstraint
        ⟨"right", Affine.toFunction ⟨[(1, 1.0)], 0.0⟩, 1.0, true⟩

def solution (x y : Float) : Event Float :=
  { Event.blank .integerSolution with objective := .ok (-x), values := .ok [x, y] }

def script : ScriptedSearch Float where
  events := [solution 2.0 0.0, solution 0.5 0.0, solution 0.5 2.0]
  status := .ok .optimal
  finalBound := .ok (-3.0)
  ignoreAbort := false

/-- An engine that reports a solution beyond the first cap, then one within both, then one beyond
    the second cap. -/
def engine : Engine Float (Tabular Float) :=
  scriptedEngine [script] (.error (.notAvailable "elastic"))

def tables : Tabular Float := .fresh [(0.0, 3.0), (0.0, 3.0)] [] {}

/-- A new solver. -/
def solver (given : Settings Float) (clock : Clock) : Solver Float (Tabular Float) where
  master := .start
    { problem
      settings := given
      bounds := .fresh .minimize given.termination
      iterations := .empty
      statistics := {}
      clock
      journal := #[] } tables given.dual.strategy
  initialHyperplanes := 0
  initialIntegerCuts := 0

theorem create_eq_solver {given : Settings Float} (hvalid : given.validate = .ok ())
    (clock : Clock) : create engine problem given tables clock = .ok (solver given clock) := by
  simp only [create, Session.start, hvalid]
  rfl

theorem engine_repeats : engine.Repeats (Tabular.Shaped 2 []) :=
  scriptedEngine_repeats script _ 2 []

/-- A no-good cut that is a row from the beginning counts in both solves. -/
theorem solve_again_twoCaps :
    let s := (solver Settings.withCuttingPlanes (.still .zero)).performAll engine
      [.prepare (.integerCutRow [0])]
    ∃ first second, (s.solve engine).2 = .ok first ∧
      ((s.solve engine).1.solve engine).2 = .ok second ∧ second = first ∧
      first.integerCuts = 1 := by
  intro s
  have hvalid : (Settings.withCuttingPlanes : Settings Float).validate = .ok () :=
    (Settings.validate_eq_ok_iff _).2 (List.all_eq_true.1 (by decide +kernel))
  have hsteady : s.master.store.fixedInteger.Steady := fun _ hsolver => nomatch hsolver
  obtain ⟨first, second, -, -, hreports, hsame, houtset, hqueue⟩ := solve_again
    (create_eq_solver hvalid (.still .zero)) engine_repeats ⟨rfl, rfl⟩
    [.prepare (.integerCutRow [0])] hsteady
  obtain ⟨hfirst, hsecond⟩ := hreports (.inl rfl)
  -- The one cut that is counted was added as a row before.
  have hcount : (s.solve engine).2.toOption.map (·.integerCuts) = some 1 := by decide +kernel
  rw [hfirst] at hcount
  refine ⟨first, second, hfirst, hsecond, ?_, Option.some.inj hcount⟩
  obtain ⟨-, -, hequal⟩ := hsame hfirst (houtset (.inl rfl) (.inl rfl) rfl)
  exact hequal (.inl (hqueue rfl rfl))

/-- Solved twice in a row, every solver that meets a condition reports the same both times. The
    condition may speak of the solver before and after the first solve. -/
def SolvesAgain
    (condition : Solver Float (Tabular Float) → Solver Float (Tabular Float) → Prop) : Prop :=
  ∀ (E : Engine Float (Tabular Float)) (P : Tabular Float → Prop) (p : Problem Float)
    (given : Settings Float) (g : Tabular Float) (clock : Clock)
    (created : Solver Float (Tabular Float)) (deeds : List (Deed Float)),
    create E p given g clock = .ok created → E.Repeats P → P g →
    let s := created.performAll E deeds
    s.master.store.fixedInteger.Steady → condition s (s.solve E).1 →
      ((s.solve E).1.solve E).2 = (s.solve E).2

/-- What a report is told apart by. -/
def figures (answer : Except (SolverError Float) (Report Float)) : Option (UInt64 × Nat) :=
  answer.toOption.map fun r => (r.primalBound.toBits, r.integerCuts)

theorem not_solvesAgain (given : Settings Float) (clock : Clock) (deeds : List (Deed Float))
    {condition : Solver Float (Tabular Float) → Solver Float (Tabular Float) → Prop}
    (hvalid : given.validate = .ok ())
    (hsteady : ((solver given clock).performAll engine deeds).master.store.fixedInteger.Steady)
    (hcondition : condition ((solver given clock).performAll engine deeds)
      (((solver given clock).performAll engine deeds).solve engine).1)
    (hfigures : figures
        (((((solver given clock).performAll engine deeds).solve engine).1.solve engine).2) ≠
      figures (((solver given clock).performAll engine deeds).solve engine).2) :
    ¬ SolvesAgain condition := fun h =>
  hfigures (congrArg figures (h engine _ problem given tables clock _ deeds
    (create_eq_solver hvalid clock) engine_repeats ⟨rfl, rfl⟩ hsteady hcondition))

/-- Settings under which the local solver is asked about new assignments only. -/
def choosy : Settings Float :=
  { Settings.withCuttingPlanes with primal := ⟨true, .newAssignment⟩ }

/-- A local solver whose answer is always the same. -/
def advice : List (Deed Float) := [.prepare (.fixedInteger fun _ _ _ => some [1.0, 0.0])]

/-- Settings under which a line search takes one step. -/
def hasty : Settings Float :=
  { Settings.standard with boundary := { Settings.standard.boundary with maxIterations := 1 } }

/-- Settings with a time limit. -/
def limited : Settings Float :=
  { Settings.withCuttingPlanes with
    termination := { Settings.withCuttingPlanes.termination with timeLimit := some ⟨1000⟩ } }

/-- A clock that stands still during the first solve, and then strikes. -/
def striking : Clock := ⟨.zero, fun i => if i < 12 then .zero else ⟨1000⟩⟩

/-- A second solve may report something else: a queued no-good cut is added in the first solve
    only. The other conditions are needed as well. With nothing in the queue and no time limit, a
    local solver that is asked about new assignments only has found a solution in the first solve
    that it does not find again; and without one, a search along a line starts from an interior
    point that only the first solve has led to. With a time limit and nothing of all this, the
    second solve may be stopped before it has found what the first one did. -/
theorem solve_again_not_always :
    ¬ SolvesAgain (fun _ _ => True) ∧
    ¬ SolvesAgain (fun s s' => s.master.store.integerCuts = [] ∧
      s'.master.store.interior = s.master.store.interior ∧
      s.master.session.settings.termination.timeLimit = none) ∧
    ¬ SolvesAgain (fun s _ => s.master.store.integerCuts = [] ∧
      s.master.store.fixedInteger.solver = none ∧
      s.master.session.settings.termination.timeLimit = none) ∧
    ¬ SolvesAgain (fun s s' => s.master.store.integerCuts = [] ∧
      s'.master.store.interior = s.master.store.interior ∧
      s.master.store.fixedInteger.solver = none) := by
  -- A cut that waits, a local solver that has been asked, an interior point that is new, and time.
  refine ⟨?_, ?_, ?_, ?_⟩
  · have hvalid : (Settings.withCuttingPlanes : Settings Float).validate = .ok () :=
      (Settings.validate_eq_ok_iff _).2 (List.all_eq_true.1 (by decide +kernel))
    exact not_solvesAgain _ (.still .zero) [.prepare (.queueIntegerCut [0])] hvalid
      (fun _ hsolver => nomatch hsolver) trivial (by decide +kernel)
  · have hvalid : choosy.validate = .ok () :=
      (Settings.validate_eq_ok_iff _).2 (List.all_eq_true.1 (by decide +kernel))
    have hsteady : ((solver choosy (.still .zero)).performAll engine
        advice).master.store.fixedInteger.Steady := by
      rintro _ ⟨⟩ _ _ _ _
      rfl
    -- Cutting planes need no interior point.
    have hinterior := interior_solve engine_repeats
      ((solver choosy (.still .zero)).performAll engine advice) hvalid hsteady ⟨rfl, rfl⟩
      (.inl rfl)
    exact not_solvesAgain choosy _ advice hvalid hsteady ⟨rfl, hinterior, rfl⟩ (by decide +kernel)
  · have hvalid : hasty.validate = .ok () :=
      (Settings.validate_eq_ok_iff _).2 (List.all_eq_true.1 (by decide +kernel))
    exact not_solvesAgain _ (.still .zero) [] hvalid (fun _ hsolver => nomatch hsolver)
      ⟨rfl, rfl, rfl⟩ (by decide +kernel)
  · have hvalid : limited.validate = .ok () :=
      (Settings.validate_eq_ok_iff _).2 (List.all_eq_true.1 (by decide +kernel))
    have hsteady : ((solver limited striking).performAll engine
        []).master.store.fixedInteger.Steady := fun _ hsolver => nomatch hsolver
    have hinterior := interior_solve engine_repeats ((solver limited striking).performAll engine [])
      hvalid hsteady ⟨rfl, rfl⟩ (.inl rfl)
    exact not_solvesAgain limited striking [] hvalid hsteady ⟨rfl, hinterior, rfl⟩
      (by decide +kernel)

end TwoCaps

end OuterApprox
