import OuterApprox.Proofs.Recording
import OuterApprox.Proofs.Repetition

/-!
# Bounds are given back

The remedies of a round change column bounds for the length of a search. An engine that stores
what is written to it has its old bounds again when the round is over, whatever its searches
answer, with one exception: the epigraph variable, once it was bounded because the problem
seemed infeasible, keeps wide bounds.

The second remedy reads the bounds it gives back, and it reads them after the first one has
written the wide ones. So the bounds of an engine are followed as one function of the column,
which every write updates in one place, and the two remedies are two updates of it.

## Main definitions

* `Problem.Built`: A problem put together by the operations there are.
* `Engine.StoresBounds`: Column bounds are stored as they are written.
* `Engine.ShowsBounds`, `Master.Bounded`: The bounds of all columns, as a function.

## Theorems

* `Problem.Built.auxiliary_lt`: The epigraph variable is a variable.
* `foldl_update_eq_ite`: A list of writes, seen at one column.
* `Master.Bounded.retryBoundedObjective`, `Master.Bounded.retryBoundedColumns`: What the
  remedies leave behind.
* `Master.solve_restores_bounds`: A round leaves bounds as they were.
* `scriptedEngine_storesBounds`: Tables are such an engine.
-/

namespace OuterApprox

variable {α σ : Type} [Scalar α]

/-- A problem put together by the operations there are. -/
inductive Problem.Built : Problem α → Prop
  /-- A problem starts from its objective. -/
  | ofObjective (objective : Objective α) : Built (.ofObjective objective)
  /-- A variable is added. -/
  | addVariable {p : Problem α} (name : String) (lower upper : α) (domain : Domain)
    (h : Built p) : Built (p.addVariable name lower upper domain)
  /-- A nonlinear constraint is added. -/
  | addConstraint {p : Problem α} (c : Constraint α) (h : Built p) : Built (p.addConstraint c)
  /-- A variable is declared to be the epigraph variable. -/
  | setAuxiliary {p q : Problem α} (i : Nat) (h : Built p) (hset : p.setAuxiliary i = .ok q) :
    Built q
  /-- A variable is marked as unbounded in the dual, or the mark is taken off. -/
  | setDualUnbounded {p q : Problem α} (i : Nat) (flag : Bool) (h : Built p)
    (hset : p.setDualUnbounded i flag = .ok q) : Built q

namespace Problem

theorem dimension_addVariable (p : Problem α) (name : String) (lower upper : α)
    (domain : Domain) : (p.addVariable name lower upper domain).dimension = p.dimension + 1 :=
  List.length_append

/-- The epigraph variable is one of the variables. -/
theorem Built.auxiliary_lt {p : Problem α} (h : p.Built) :
    ∀ aux ∈ p.auxiliary, aux < p.dimension := by
  induction h with
  | ofObjective => exact fun _ haux => nomatch haux
  -- Variables are only added, so an index stays valid.
  | addVariable name lower upper domain _ ih =>
    intro aux haux
    rw [dimension_addVariable]
    exact Nat.lt_succ_of_lt (ih aux haux)
  | addConstraint c _ ih => exact ih
  | setAuxiliary i _ hset =>
    simp only [Problem.setAuxiliary] at hset
    split at hset
    next hi =>
      cases hset
      rintro _ ⟨⟩
      exact hi
    · simp only [reduceCtorEq] at hset
  | setDualUnbounded i flag _ hset ih =>
    simp only [Problem.setDualUnbounded] at hset
    split at hset
    · cases hset
      intro aux haux
      rw [dimension, List.length_modify]
      exact ih aux haux
    · simp only [reduceCtorEq] at hset

theorem lt_of_mem_dualUnboundedIndices {p : Problem α} {threshold : α} {j : Nat}
    (h : j ∈ p.dualUnboundedIndices threshold) : j < p.dimension := by
  simp only [dualUnboundedIndices, indicesWhere, List.mem_map, List.mem_filter] at h
  obtain ⟨⟨v, i⟩, ⟨hmem, -⟩, rfl⟩ := h
  exact (List.getElem?_eq_some_iff.1 (List.mk_mem_zipIdx_iff_getElem?.1 hmem)).1

end Problem

/-! ## Engines that store bounds -/

/-- After a list of writes a column has what was written to it, if anything was. -/
theorem foldl_update_eq_ite {β : Type} (g b : Nat → β) (columns : List Nat) :
    (columns.map fun j => (j, g j)).foldl (fun b t => Function.update b t.1 t.2) b =
      fun j => if j ∈ columns then g j else b j := by
  induction columns generalizing b with
  | nil => simp only [List.map_nil, List.foldl_nil, List.not_mem_nil, if_false]
  | cons i rest ih =>
    rw [List.map_cons, List.foldl_cons, ih]
    funext j
    by_cases hrest : j ∈ rest
    · simp only [hrest, if_true, List.mem_cons, or_true]
    · rcases eq_or_ne j i with rfl | hne
      · simp only [hrest, if_false, Function.update_self, List.mem_cons, true_or, if_true]
      · simp only [hrest, if_false, Function.update_of_ne hne, List.mem_cons, hne, or_self]

/-- Column bounds are stored as they are written, in all states of a kind: they can be read and
    written, a write sets its own column, and a search sets none. -/
structure Engine.StoresBounds (E : Engine α σ) (P : σ → Prop) : Prop where
  /-- The bounds of every column can be read. -/
  read : ∀ g, P g → ∀ j < E.columns g, ∃ bounds, E.columnBounds g j = .ok bounds
  /-- Every write succeeds. -/
  taken : ∀ g, P g → ∀ j < E.columns g, ∀ lower upper,
    (E.setColumnBounds g j lower upper).2 = .ok ()
  /-- A write sets its own column and no other. -/
  write : ∀ g, P g → ∀ j < E.columns g, ∀ lower upper,
    let g' := (E.setColumnBounds g j lower upper).1
    P g' ∧ E.columns g' = E.columns g ∧
      ∀ k < E.columns g, E.columnBounds g' k =
        if k = j then .ok (lower, upper) else E.columnBounds g k
  /-- A search leaves all bounds as they are. -/
  search : ∀ g, P g → ∀ c : Callback α,
    let g' := ((E.search g).run c).2.1
    P g' ∧ E.columns g' = E.columns g ∧
      ∀ k < E.columns g, E.columnBounds g' k = E.columnBounds g k

/-- A state of a kind with so many columns, which have these bounds. -/
structure Engine.ShowsBounds (E : Engine α σ) (P : σ → Prop) (count : Nat) (b : Nat → α × α)
    (g : σ) : Prop where
  /-- The state is of the kind. -/
  kind : P g
  /-- It has so many columns. -/
  columns : E.columns g = count
  /-- Reading a column gives its bounds. -/
  bounds : ∀ j < count, E.columnBounds g j = .ok (b j)

variable {E : Engine α σ} {P : σ → Prop}

namespace Engine.StoresBounds

variable (hE : E.StoresBounds P) {g : σ} {count : Nat} {b : Nat → α × α}
include hE

/-- All bounds can be read. -/
theorem exists_showsBounds (h : P g) : ∃ b, E.ShowsBounds P (E.columns g) b g := by
  have hread : ∀ j, ∃ bounds, j < E.columns g → E.columnBounds g j = .ok bounds := by
    intro j
    by_cases hj : j < E.columns g
    · exact (hE.read g h j hj).imp fun _ hb _ => hb
    · exact ⟨(0.0, 0.0), fun hlt => absurd hlt hj⟩
  choose b hb using hread
  exact ⟨b, h, rfl, hb⟩

/-- A write updates one column. -/
theorem showsBounds_write (h : E.ShowsBounds P count b g) {j : Nat} (hj : j < count)
    (lower upper : α) :
    E.ShowsBounds P count (Function.update b j (lower, upper))
      (E.setColumnBounds g j lower upper).1 := by
  obtain ⟨hkind, hcolumns, hbounds⟩ := hE.write g h.kind j (h.columns ▸ hj) lower upper
  refine ⟨hkind, hcolumns.trans h.columns, fun k hk => ?_⟩
  rw [hbounds k (h.columns ▸ hk), Function.update_apply]
  split
  · rfl
  · exact h.bounds k hk

theorem showsBounds_search (h : E.ShowsBounds P count b g) (c : Callback α) :
    E.ShowsBounds P count b ((E.search g).run c).2.1 := by
  obtain ⟨hkind, hcolumns, hbounds⟩ := hE.search g h.kind c
  exact ⟨hkind, hcolumns.trans h.columns, fun k hk =>
    (hbounds k (h.columns ▸ hk)).trans (h.bounds k hk)⟩

end Engine.StoresBounds

namespace Master

omit [Scalar α] in
/-- Reading one more column. -/
theorem readBounds_concat {m : Master α σ} {columns : List Nat} {j : Nat} {bounds : α × α}
    (h : E.columnBounds (m.readBounds E columns).1.engine j = .ok bounds) :
    m.readBounds E (columns ++ [j]) =
      ((m.readBounds E columns).1, (m.readBounds E columns).2 ++ [(j, bounds)]) := by
  unfold readBounds at h ⊢
  rw [List.foldl_append, List.foldl_cons, List.foldl_nil]
  dsimp only
  rw [h]

/-- A master for a problem under some settings, whose columns have these bounds. -/
structure Bounded (E : Engine α σ) (P : σ → Prop) (p : Problem α) (given : Settings α)
    (b : Nat → α × α) (m : Master α σ) : Prop where
  /-- The session is about the problem. -/
  problem : m.session.problem = p
  /-- The settings are the ones given. -/
  settings : m.session.settings = given
  /-- The engine has one column per variable, with these bounds. -/
  engine : E.ShowsBounds P p.dimension b m.engine

namespace Bounded

variable {p : Problem α} {given : Settings α} {b : Nat → α × α} {m : Master α σ}

omit [Scalar α] in
theorem noted (h : m.Bounded E P p given b) (remarks : List (Diagnostic α)) :
    (m.note remarks).Bounded E P p given b := ⟨h.problem, h.settings, h.engine⟩

omit [Scalar α] in
/-- Reading gives the bounds of all columns that are asked for. -/
theorem readBounds (h : m.Bounded E P p given b) {columns : List Nat}
    (hcolumns : ∀ j ∈ columns, j < p.dimension) :
    m.readBounds E columns = (m, columns.map fun j => (j, b j)) := by
  induction columns using List.reverseRecOn with
  | nil => rfl
  | append_singleton columns j ih =>
    have hread := ih fun i hi => hcolumns i (List.mem_append_left _ hi)
    have hbounds := h.engine.bounds j (hcolumns j List.mem_concat_self)
    rw [readBounds_concat ((congrArg (fun r => E.columnBounds r.1.engine j) hread).trans hbounds),
      hread, List.map_append]
    rfl

/-- Columns that are suspected are columns. -/
theorem lt_of_mem_suspectColumns (hp : p.Built) (h : m.Bounded E P p given b) :
    ∀ j ∈ m.suspectColumns, j < p.dimension := by
  intro j hj
  simp only [suspectColumns, h.problem] at hj
  split at hj
  · exact hp.auxiliary_lt j (Option.mem_toList.1 hj)
  · exact Problem.lt_of_mem_dualUnboundedIndices hj

theorem recordFinalBound (h : m.Bounded E P p given b) (status : Status) :
    (m.recordFinalBound E status).Bounded E P p given b := by
  simp only [Master.recordFinalBound]
  split
  · exact h
  · split
    · exact h.noted _
    · split
      · exact ⟨h.problem, h.settings, h.engine⟩
      · exact h

variable (hE : E.StoresBounds P)
include hE

theorem setBounds (h : m.Bounded E P p given b) {j : Nat} (hj : j < p.dimension)
    (lower upper : α) :
    (m.setBounds E j lower upper).2 = true ∧
      (m.setBounds E j lower upper).1.Bounded E P p given
        (Function.update b j (lower, upper)) := by
  have htaken := hE.taken m.engine h.engine.kind j (h.engine.columns ▸ hj) lower upper
  have hwrite := hE.showsBounds_write h.engine hj lower upper
  simp only [Master.setBounds, htaken]
  exact ⟨trivial, h.problem, h.settings, hwrite⟩

theorem setAllBounds (h : m.Bounded E P p given b) {targets : List (Nat × α × α)}
    (htargets : ∀ t ∈ targets, t.1 < p.dimension) :
    (m.setAllBounds E targets).Bounded E P p given
      (targets.foldl (fun b t => Function.update b t.1 t.2) b) := by
  unfold Master.setAllBounds
  induction targets generalizing m b with
  | nil => exact h
  | cons t rest ih =>
    exact ih (h.setBounds hE (htargets t List.mem_cons_self) _ _).2 fun t' ht' =>
      htargets t' (List.mem_cons_of_mem _ ht')

/-- Writing to each of some columns. -/
theorem setColumns (h : m.Bounded E P p given b) {columns : List Nat}
    (hcolumns : ∀ j ∈ columns, j < p.dimension) (g : Nat → α × α) :
    (m.setAllBounds E (columns.map fun j => (j, g j))).Bounded E P p given
      fun j => if j ∈ columns then g j else b j := by
  rw [← foldl_update_eq_ite]
  refine h.setAllBounds hE fun t ht => ?_
  obtain ⟨j, hj, rfl⟩ := List.mem_map.1 ht
  exact hcolumns j hj

theorem runSearch (h : m.Bounded E P p given b) :
    (m.runSearch E).1.Bounded E P p given b := by
  have hlasts := Search.lasts_run (E.search m.engine) m.callback
  have hengine := hE.showsBounds_search h.engine m.callback
  have hsearched : Bounded E P p given b ⟨((E.search m.engine).run m.callback).1.session,
      ((E.search m.engine).run m.callback).1.store, m.strategy,
      ((E.search m.engine).run m.callback).2.1⟩ :=
    ⟨hlasts.problem.trans h.problem, hlasts.settings.trans h.settings, hengine⟩
  simp only [Master.runSearch]
  split
  · exact hsearched
  · exact hsearched.noted _

/-- If the epigraph variable was suspected, it has wide bounds afterwards. -/
theorem retryBoundedObjective (hp : p.Built) (h : m.Bounded E P p given b) (status : Status) :
    (m.retryBoundedObjective E status).1.Bounded E P p given
      ((m.suspectObjective? status).elim b fun aux =>
        Function.update b aux (-given.dual.unboundedBound, given.dual.unboundedBound)) := by
  rw [retryBoundedObjective_eq]
  cases hsuspect : m.suspectObjective? status with
  | none => exact h
  | some aux =>
    have haux : aux < p.dimension := by
      simp only [suspectObjective?, h.problem] at hsuspect
      split at hsuspect
      · exact hp.auxiliary_lt aux hsuspect
      · simp only [reduceCtorEq] at hsuspect
    obtain ⟨hdone, hbounded⟩ := (h.noted [.boundingObjective
      m.session.settings.dual.auxiliaryBound]).setBounds hE haux
        (-m.session.settings.dual.auxiliaryBound) m.session.settings.dual.auxiliaryBound
    -- A search leaves the bounds, and the wide ones are written over the tight ones.
    have hsearched := hbounded.runSearch hE
    have hwide := (hsearched.setBounds hE haux (-given.dual.unboundedBound)
      given.dual.unboundedBound).2
    rw [Function.update_idem] at hwide
    dsimp only [Option.elim_some]
    rw [if_pos hdone, hsearched.settings]
    exact hwide

/-- Whichever columns are bounded for a search, they get their bounds back. -/
theorem retryBoundedColumns (hp : p.Built) (h : m.Bounded E P p given b) :
    (m.retryBoundedColumns E).1.Bounded E P p given b := by
  have hcolumns := h.lt_of_mem_suspectColumns hp
  rw [retryBoundedColumns_eq]
  split
  · exact h.noted _
  · dsimp only
    rw [h.readBounds hcolumns, List.map_map]
    generalize m.session.settings.dual.unboundedBound /
      m.session.settings.dual.unboundedScaling = bound
    -- What is read are the bounds at this moment, so writing it back undoes the search's.
    have hbounded := (h.noted [.boundingVariables (m.suspectColumns.map fun j =>
      (j, b j)).length bound]).setColumns hE hcolumns fun _ => (-bound, bound)
    have hrestored := (hbounded.runSearch hE).setColumns hE hcolumns b
    have hsame : (fun j => if j ∈ m.suspectColumns then b j
        else if j ∈ m.suspectColumns then (-bound, bound) else b j) = b := by
      funext j
      split <;> rfl
    rw [hsame] at hrestored
    exact ⟨hrestored.problem, hrestored.settings, hrestored.engine⟩

/-- A round leaves all bounds as they were, but for the wide bounds of the epigraph variable
    if that was suspected after the first search. -/
theorem solve (hp : p.Built) (h : m.Bounded E P p given b) :
    (m.solve E).1.Bounded E P p given
      (((m.runSearch E).1.suspectObjective? (m.runSearch E).2).elim b fun aux =>
        Function.update b aux (-given.dual.unboundedBound, given.dual.unboundedBound)) := by
  have hsecond := (h.runSearch hE).retryBoundedObjective hE hp (m.runSearch E).2
  have hthird := hsecond.retryBoundedColumns hE hp
  rw [solve_eq]
  refine recordFinalBound ?_ _
  split
  · exact hthird
  · exact hsecond

end Bounded

/-- In a round there are at most three searches, whatever they answer. Afterwards all columns
    have the bounds they had before, except that the epigraph variable has wide bounds if the
    first search ended infeasible and a quadratic objective was made nonlinear. -/
theorem solve_restores_bounds (hE : E.StoresBounds P) (m : Master α σ)
    (hp : m.session.problem.Built) (hkind : P m.engine)
    (hcolumns : E.columns m.engine = m.session.problem.dimension) :
    let p := m.session.problem
    let wide := m.session.settings.dual.unboundedBound
    let m' := (m.solve E).1
    let recorded := m.recorded.solve E.recording
    (recorded.1.unrecorded, recorded.2) = m.solve E ∧ recorded.1.searchCount ≤ 3 ∧
      E.columns m'.engine = p.dimension ∧
      (∀ j < p.dimension, p.auxiliary ≠ some j →
        E.columnBounds m'.engine j = E.columnBounds m.engine j) ∧
      ∀ aux ∈ p.auxiliary, E.columnBounds m'.engine aux =
        if (m.runSearch E).2 = .infeasible ∧
            p.objective.classification = .quadraticAsNonlinear then .ok (-wide, wide)
        else E.columnBounds m.engine aux := by
  intro p wide m' recorded
  obtain ⟨b, hb⟩ := hE.exists_showsBounds hkind
  rw [hcolumns] at hb
  have hround := Bounded.solve hE hp ⟨rfl, rfl, hb⟩
  have hsuspect : (m.runSearch E).1.suspectObjective? (m.runSearch E).2 =
      if (m.runSearch E).2 = .infeasible ∧ p.objective.classification = .quadraticAsNonlinear
      then p.auxiliary else none := by
    simp only [suspectObjective?, (Bounded.runSearch hE ⟨rfl, rfl, hb⟩).problem,
      Bool.and_eq_true, decide_eq_true_eq]
    rfl
  rw [hsuspect] at hround
  refine ⟨unrecorded_solve m.recorded, searchCount_solve_le m.recorded,
    hround.engine.columns, fun j hj hne => ?_, fun aux haux => ?_⟩
  · rw [hround.engine.bounds j hj, hb.bounds j hj]
    split
    · cases haux : p.auxiliary with
      | none => rfl
      | some aux =>
        have hother : j ≠ aux := fun heq => hne (heq ▸ haux)
        rw [Option.elim_some, Function.update_of_ne hother]
    · rfl
  · have hlt := hp.auxiliary_lt aux haux
    rw [hround.engine.bounds aux hlt, hb.bounds aux hlt]
    split
    · rw [Option.mem_def.1 haux, Option.elim_some, Function.update_self]
    · rfl

end Master

/-! ## Tables store bounds -/

/-- No access to bounds is made to fail. -/
def Tabular.Open (m : Tabular α) : Prop :=
  m.failures.boundsRead = [] ∧ m.failures.boundsWrite = []

theorem playEvents_bounds (script : ScriptedSearch α) (events : List (Event α)) (m : Tabular α)
    (c : Callback α) :
    ((playEvents script events m).run c).2.1.bounds = m.bounds ∧
      ((playEvents script events m).run c).2.1.failures = m.failures := by
  induction events generalizing m c with
  | nil => exact ⟨rfl, rfl⟩
  | cons e rest ih =>
    simp only [playEvents, Tabular.reporting, Search.run]
    split
    · exact ⟨rfl, rfl⟩
    · exact ih _ _

/-- A scripted engine stores bounds if no access to them is made to fail. -/
theorem scriptedEngine_storesBounds (scripts : List (ScriptedSearch α))
    (elastic : Answer (ElasticSolution α)) :
    (scriptedEngine scripts elastic).StoresBounds Tabular.Open where
  read g h j hj := by
    refine ⟨g.bounds[j], ?_⟩
    simp only [scriptedEngine, Tabular.engine, h.1]
    exact Tabular.access_nil hj
  taken g h j hj lower upper := by
    simp only [scriptedEngine, Tabular.engine, Tabular.setColumnBounds, Tabular.remember, h.2,
      Tabular.access_nil hj]
  write g h j hj lower upper := by
    simp only [scriptedEngine, Tabular.engine, Tabular.setColumnBounds, Tabular.remember, h.2,
      Tabular.access_nil hj]
    refine ⟨⟨h.1, h.2⟩, List.length_set, fun k hk => ?_⟩
    rw [h.1, Tabular.access_nil (List.length_set.symm ▸ hk), Tabular.access_nil hk,
      List.getElem_set]
    simp only [eq_comm (a := j)]
    split <;> rfl
  search g h c := by
    have hsame : (((scriptedEngine scripts elastic).search g).run c).2.1.bounds = g.bounds ∧
        (((scriptedEngine scripts elastic).search g).run c).2.1.failures = g.failures := by
      simp only [scriptedEngine, Tabular.engine]
      split
      · exact ⟨rfl, rfl⟩
      · exact playEvents_bounds _ _ _ c
    refine ⟨?_, congrArg List.length hsame.1, fun k _ => ?_⟩
    · unfold Tabular.Open
      rw [hsame.2]
      exact h
    · change Tabular.access _ _ k = Tabular.access _ _ k
      rw [hsame.1, hsame.2]

namespace FreeEpigraph

/-- An objective that counts as quadratic, carried by an epigraph variable. -/
def problem : Problem Float :=
  { ((Problem.ofObjective ⟨Affine.toFunction ⟨[(0, 1.0)], 0.0⟩, .quadraticAsNonlinear,
      .minimize⟩).addVariable "x" 0.0 3.0 .real).addVariable "level" (-1e30) 1e30 .real with
    auxiliary := some 1 }

theorem problem_built : problem.Built :=
  .setAuxiliary 1 (.addVariable _ _ _ _ (.addVariable _ _ _ _ (.ofObjective _))) rfl

/-- A search without events. -/
def silent (status : Status) : ScriptedSearch Float where
  events := []
  status := .ok status
  finalBound := .ok 0.0
  ignoreAbort := false

/-- An engine that needs both remedies. -/
def engine : Engine Float (Tabular Float) :=
  scriptedEngine [silent .infeasible, silent .unbounded, silent .optimal]
    (.error (.notAvailable "elastic"))

def master : Master Float (Tabular Float) :=
  .start
    { problem
      settings := .standard
      bounds := .fresh .minimize Settings.standard.termination
      iterations := .empty
      statistics := {}
      clock := .still ⟨0⟩
      journal := #[] } (.fresh [(0.0, 3.0), (-1e30, 1e30)] [] {}) .cuttingPlane

/-- Both remedies change the bounds of the epigraph variable, which has wide bounds after three
    searches; the other variable has its own. -/
theorem solve_restores_bounds_free :
    (master.recorded.solve engine.recording).1.searchCount = 3 ∧
    engine.columnBounds (master.solve engine).1.engine 0 = .ok (0.0, 3.0) ∧
    engine.columnBounds (master.solve engine).1.engine 1 =
      .ok (-master.session.settings.dual.unboundedBound,
        master.session.settings.dual.unboundedBound) := by
  obtain ⟨-, -, -, hothers, haux⟩ := Master.solve_restores_bounds
    (scriptedEngine_storesBounds _ _) master problem_built ⟨rfl, rfl⟩ rfl
  refine ⟨by decide +kernel, (hothers 0 (by decide) (by decide)).trans rfl, ?_⟩
  exact (haux 1 rfl).trans (if_pos ⟨by decide +kernel, rfl⟩)

end FreeEpigraph

end OuterApprox
