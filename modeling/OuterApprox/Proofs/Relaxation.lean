import OuterApprox.Engine.Scripted
import OuterApprox.Proofs.ExactArithmetic
import OuterApprox.Proofs.NumberOrder
import OuterApprox.Proofs.Recording

/-!
# Relaxing rows

What a repair does to the rows of an engine. A target is a row with the slack that an elastic
solution gave it. There is one way to relax it and three ways to leave it alone: the slack is
not positive, the right-hand side cannot be read, or the new one is refused; and a row without
a slack is no target at all. So the targets are followed as a relation between the states of the
engine before and after, which lists the changes that the engine confirmed, and nothing has to
be assumed about which accesses fail.

If none fails and no row is a target twice, the relation determines all rows: each is relaxed by
its own slack, from the right-hand side it had at the start. A point that the slack makes
feasible is then feasible, because the factor is at least one.

The answer of a repair follows the elastic solution, not the changes. If there were none, a
solve searches again although the model is the same.

## Main definitions

* `Engine.HoldsRows`: Right-hand sides belong to rows, and change as far as the engine confirms.
* `Engine.AnswersRows`: Accesses to rows do not fail, and touch no bounds.
* `Engine.Relaxes`: Going through the targets.
* `Engine.Admits`: A point within the bounds that satisfies all rows.

## Theorems

* `Engine.Relaxes.view_eq`: Rows change as confirmed.
* `Engine.Relaxes.getElem?_view`: Rows after all targets, if no access fails.
* `Master.exists_relaxes_relaxRow`, `Master.exists_relaxes_foldl`: Relaxing goes through targets.
* `Exact.le_mul_of_one_le`, `Exact.finite_add_le`: More slack than needed.
* `Row.satisfied_raised`: A row that was raised by as much is satisfied.
* `Master.repair_of_optimal`, `Master.repair_of_not_optimal`: A repair relaxes rows, or it
  changes none.
* `Master.exists_record_repair`: What a repair asks of an engine.
* `Master.view_repair`: What it leaves behind.
* `Master.repair_restores_feasibility`: A repair makes the model feasible.
* `Master.repair_answer`: What the answer of a repair means.
* `CutAway.repair_answer_not_truthful`: It does not mean that a row was relaxed.
-/

namespace OuterApprox

variable {α σ : Type}

/-- A row with another right-hand side. -/
def Row.withUpper (row : Row α) (upper : α) : Row α := { row with upper }

/-- An engine whose right-hand sides are those of rows that it holds. What it reads is right, a
    change it confirms is the change of that row, and what it refuses, or solves elastically,
    changes nothing. -/
structure Engine.HoldsRows (E : Engine α σ) (view : σ → List (Row α)) : Prop where
  /-- What is read is the right-hand side of a row. -/
  read : ∀ {g i upper}, E.rowUpper g i = .ok upper →
    ∃ row, (view g)[i]? = some row ∧ row.upper = upper
  /-- A change that is confirmed is made. -/
  taken : ∀ {g i upper}, (E.setRowUpper g i upper).2 = .ok () →
    view (E.setRowUpper g i upper).1 = (view g).modify i (·.withUpper upper)
  /-- A change that is refused is not made. -/
  refused : ∀ {g i upper e}, (E.setRowUpper g i upper).2 = .error e →
    view (E.setRowUpper g i upper).1 = view g
  /-- Elastic solves leave the rows as they are. -/
  elastic : ∀ g rows prices, view (E.elastic g rows prices).1 = view g

/-- In all states of a kind the rows can be read and changed, and the bounds of the columns
    stay as they are meanwhile. -/
structure Engine.AnswersRows (E : Engine α σ) (P : σ → Prop) (view : σ → List (Row α)) :
    Prop where
  /-- Every right-hand side can be read. -/
  read : ∀ {g i}, P g → i < (view g).length → ∃ upper, E.rowUpper g i = .ok upper
  /-- Every right-hand side can be changed. -/
  write : ∀ {g i}, P g → i < (view g).length → ∀ upper, (E.setRowUpper g i upper).2 = .ok ()
  /-- A change keeps the kind of state, and the bounds. -/
  kept : ∀ {g}, P g → ∀ i upper, P (E.setRowUpper g i upper).1 ∧
    ∀ j, E.columnBounds (E.setRowUpper g i upper).1 j = E.columnBounds g j
  /-- So does an elastic solve. -/
  elastic : ∀ {g}, P g → ∀ rows prices, P (E.elastic g rows prices).1 ∧
    ∀ j, E.columnBounds (E.elastic g rows prices).1 j = E.columnBounds g j

variable [Scalar α]

/-- Going through targets, rows with their slacks, leads an engine from one state to another,
    and these are the right-hand sides that it confirmed. -/
inductive Engine.Relaxes (E : Engine α σ) (factor : α) :
    σ → List (Nat × α) → List (Nat × α) → σ → Prop
  /-- There are no targets. -/
  | done (g : σ) : Relaxes E factor g [] [] g
  /-- The row needed no slack. -/
  | tight {g g' : σ} {targets changes : List (Nat × α)} {row : Nat} {slack : α}
    (hslack : slack ≤ 0.0) (rest : Relaxes E factor g targets changes g') :
    Relaxes E factor g ((row, slack) :: targets) changes g'
  /-- The right-hand side cannot be read. -/
  | unread {g g' : σ} {targets changes : List (Nat × α)} {row : Nat} {slack : α} {e : EngineError}
    (hslack : ¬ slack ≤ 0.0) (hread : E.rowUpper g row = .error e)
    (rest : Relaxes E factor g targets changes g') :
    Relaxes E factor g ((row, slack) :: targets) changes g'
  /-- The new right-hand side is refused. -/
  | refused {g g' : σ} {targets changes : List (Nat × α)} {row : Nat} {slack upper : α}
    {e : EngineError} (hslack : ¬ slack ≤ 0.0) (hread : E.rowUpper g row = .ok upper)
    (hwrite : (E.setRowUpper g row (upper + factor * slack)).2 = .error e)
    (rest : Relaxes E factor (E.setRowUpper g row (upper + factor * slack)).1 targets changes g') :
    Relaxes E factor g ((row, slack) :: targets) changes g'
  /-- The row is relaxed. -/
  | relaxed {g g' : σ} {targets changes : List (Nat × α)} {row : Nat} {slack upper : α}
    (hslack : ¬ slack ≤ 0.0) (hread : E.rowUpper g row = .ok upper)
    (hwrite : (E.setRowUpper g row (upper + factor * slack)).2 = .ok ())
    (rest : Relaxes E factor (E.setRowUpper g row (upper + factor * slack)).1 targets changes g') :
    Relaxes E factor g ((row, slack) :: targets) ((row, upper + factor * slack) :: changes) g'

variable {E : Engine α σ} {P : σ → Prop} {view : σ → List (Row α)}

namespace Engine.Relaxes

variable {factor : α} {g g' : σ} {targets changes : List (Nat × α)}

/-- The rows change as the engine confirms. -/
theorem view_eq (hE : E.HoldsRows view) (h : E.Relaxes factor g targets changes g') :
    view g' =
      changes.foldl (fun rows change => rows.modify change.1 (·.withUpper change.2)) (view g) := by
  induction h with
  | done => rfl
  | tight _ _ ih => exact ih
  | unread _ _ _ ih => exact ih
  | refused _ _ hwrite _ ih => rw [ih, hE.refused hwrite]
  | relaxed _ _ hwrite _ ih => rw [List.foldl_cons, ih, hE.taken hwrite]

/-- If no access fails and no row is a target twice, the targets with positive slack are relaxed
    from the right-hand sides they had, and all other rows stay as they are. -/
theorem getElem?_view (hE : E.HoldsRows view) (hanswers : E.AnswersRows P view)
    (h : E.Relaxes factor g targets changes g') (hkind : P g)
    (hrange : ∀ t ∈ targets, t.1 < (view g).length) (hnodup : (targets.map (·.1)).Nodup) :
    (∀ i, i ∉ targets.map (·.1) → (view g')[i]? = (view g)[i]?) ∧
    (∀ t ∈ targets, (view g')[t.1]? = ((view g)[t.1]?).map fun row =>
      if t.2 ≤ 0.0 then row else row.withUpper (row.upper + factor * t.2)) ∧
    ∀ j, E.columnBounds g' j = E.columnBounds g j := by
  -- The targets are gone through one by one, and each row is listed once.
  induction h with
  | done => exact ⟨fun _ _ => rfl, fun t ht => absurd ht List.not_mem_nil, fun _ => rfl⟩
  -- A row without slack is left as it is.
  | tight hslack _ ih =>
    obtain ⟨hnew, hnodup⟩ := List.nodup_cons.1 hnodup
    obtain ⟨hothers, htargets, hbounds⟩ := ih hkind
      (fun t ht => hrange t (List.mem_cons_of_mem _ ht)) hnodup
    refine ⟨fun i hi => hothers i (List.not_mem_of_not_mem_cons hi), ?_, hbounds⟩
    refine List.forall_mem_cons.2 ⟨?_, htargets⟩
    simp only [hothers _ hnew, hslack, if_true, Option.map_id']
  | unread hslack hread _ ih =>
    obtain ⟨upper, hupper⟩ := hanswers.read hkind (hrange _ List.mem_cons_self)
    rw [hread] at hupper
    exact nomatch hupper
  | refused hslack hread hwrite _ ih =>
    rw [hanswers.write hkind (hrange _ List.mem_cons_self)] at hwrite
    exact nomatch hwrite
  | @relaxed _ _ _ _ i _ _ hslack hread hwrite _ ih =>
    obtain ⟨hnew, hnodup⟩ := List.nodup_cons.1 hnodup
    have hview := hE.taken hwrite
    obtain ⟨hkept, hsame⟩ := hanswers.kept hkind _ _
    obtain ⟨hothers, htargets, hbounds⟩ := ih hkept (fun t ht => by
      rw [hview, List.length_modify]
      exact hrange t (List.mem_cons_of_mem _ ht)) hnodup
    obtain ⟨row, hrow, rfl⟩ := hE.read hread
    rw [hview] at hothers htargets
    -- The change of this row is not seen at any of the rows that follow.
    refine ⟨fun k hk => ?_, List.forall_mem_cons.2 ⟨?_, fun t ht => ?_⟩,
      fun j => (hbounds j).trans (hsame j)⟩
    · rw [hothers k (List.not_mem_of_not_mem_cons hk),
        List.getElem?_modify_ne _ _ (List.ne_of_not_mem_cons hk).symm]
    · simp only [hothers _ hnew, List.getElem?_modify_eq, hrow, hslack, if_false, Option.map_some]
      rfl
    · have hother : i ≠ t.1 := fun heq => hnew (List.mem_map.2 ⟨t, ht, heq.symm⟩)
      rw [htargets t ht, List.getElem?_modify_ne _ _ hother]

end Engine.Relaxes

/-- On record are attempts to change the right-hand sides of targets. -/
theorem Engine.Relaxes.exists_writes {factor : α} {g g' : σ × List (EngineAction α)}
    {targets changes : List (Nat × α)} (h : E.recording.Relaxes factor g targets changes g') :
    ∃ writes, g'.2 = g.2 ++ writes ∧
      ∀ a ∈ writes, ∃ i ∈ targets.map (·.1), ∃ upper, a = .rowUpper i upper := by
  induction h with
  | done => exact ⟨[], (List.append_nil _).symm, fun a ha => absurd ha List.not_mem_nil⟩
  | tight _ _ ih | unread _ _ _ ih =>
    obtain ⟨writes, hwrites, hall⟩ := ih
    refine ⟨writes, hwrites, fun a ha => ?_⟩
    exact (hall a ha).imp fun i hi => ⟨List.mem_cons_of_mem _ hi.1, hi.2⟩
  -- A write is on record, refused or taken.
  | refused _ _ _ _ ih | relaxed _ _ _ _ ih =>
    obtain ⟨writes, hwrites, hall⟩ := ih
    refine ⟨.rowUpper _ _ :: writes, hwrites.trans (List.append_assoc _ [_] _), ?_⟩
    refine List.forall_mem_cons.2 ⟨⟨_, List.mem_cons_self, _, rfl⟩, fun a ha => ?_⟩
    exact (hall a ha).imp fun i hi => ⟨List.mem_cons_of_mem _ hi.1, hi.2⟩

namespace Master

/-- Relaxing one row is a first step through targets, and counts if it is confirmed. -/
theorem exists_relaxes_relaxRow (factor : α) (acc : Master α σ × Nat) (t : Nat × α) :
    let r := relaxRow E factor acc t
    r.1.store = acc.1.store ∧ ∀ {targets changes g'},
      E.Relaxes factor r.1.engine targets changes g' →
      ∃ changes', E.Relaxes factor acc.1.engine (t :: targets) changes' g' ∧
        acc.2 + changes'.length = r.2 + changes.length := by
  obtain ⟨row, slack⟩ := t
  obtain ⟨m, count⟩ := acc
  simp only [relaxRow]
  -- No slack, no right-hand side to read, a refused write, or a change that is counted.
  split
  next hslack => exact ⟨rfl, fun hrest => ⟨_, .tight hslack hrest, rfl⟩⟩
  next hslack =>
    split
    next e hread => exact ⟨rfl, fun hrest => ⟨_, .unread hslack hread hrest, rfl⟩⟩
    next upper hread =>
      split
      next hwrite =>
        refine ⟨rfl, fun hrest => ⟨_, .relaxed hslack hread hwrite hrest, ?_⟩⟩
        rw [List.length_cons]
        exact (Nat.add_right_comm count 1 _).symm
      next e hwrite => exact ⟨rfl, fun hrest => ⟨_, .refused hslack hread hwrite hrest, rfl⟩⟩

/-- Relaxing goes through the targets, counts what is confirmed, and changes nothing but the
    engine and the journal. -/
theorem exists_relaxes_foldl (factor : α) (targets : List (Nat × α))
    (acc : Master α σ × Nat) :
    let r := targets.foldl (relaxRow E factor) acc
    r.1.store = acc.1.store ∧ ∃ changes,
      E.Relaxes factor acc.1.engine targets changes r.1.engine ∧
      r.2 = acc.2 + changes.length := by
  induction targets generalizing acc with
  | nil => exact ⟨rfl, [], .done _, rfl⟩
  | cons t rest ih =>
    obtain ⟨hstore, changes, hrest, hcount⟩ := ih (relaxRow E factor acc t)
    obtain ⟨hkept, hfirst⟩ := exists_relaxes_relaxRow (E := E) factor acc t
    obtain ⟨changes', hrelaxes, hlength⟩ := hfirst hrest
    exact ⟨hstore.trans hkept, changes', hrelaxes, hcount.trans hlength.symm⟩

omit [Scalar α] in
theorem repairRows_eq_nil {m : Master α σ} (h : m.store.ledger.entries.isEmpty = true) :
    m.repairRows = [] := by
  rw [repairRows, List.isEmpty_iff.1 h, List.filter_nil, List.filterMap_nil, List.take_nil]

/-- With an elastic optimum a repair goes through the rows it may relax. -/
theorem repair_of_optimal {m : Master α σ} {slacks : List α} (hrows : m.repairRows ≠ [])
    (hoptimal : (E.elastic m.engine m.repairRows (m.repairRows.map repairPrice)).2 =
      .ok ⟨.optimal, slacks⟩) :
    m.repair E = (relaxRows E
      { m with engine := (E.elastic m.engine m.repairRows (m.repairRows.map repairPrice)).1 }
      m.repairRows slacks, true) := by
  have hledger : m.store.ledger.entries.isEmpty = false :=
    Bool.eq_false_iff.2 (mt repairRows_eq_nil hrows)
  simp only [repair, hledger, List.isEmpty_eq_false_iff.2 hrows, hoptimal, Bool.false_eq_true,
    if_false, if_true]

/-- Without one it changes no row. -/
theorem repair_of_not_optimal {m : Master α σ} (h : m.repairRows = [] ∨ ∀ slacks,
      (E.elastic m.engine m.repairRows (m.repairRows.map repairPrice)).2 ≠
        .ok ⟨.optimal, slacks⟩) :
    (m.repair E).2 = false ∧ (m.repair E).1.store = m.store ∧
      (m.repair E).1.engine = if m.repairRows = [] then m.engine
        else (E.elastic m.engine m.repairRows (m.repairRows.map repairPrice)).1 := by
  simp only [repair]
  split
  next hledger =>
    rw [if_pos (repairRows_eq_nil hledger)]
    exact ⟨rfl, rfl, rfl⟩
  · split
    next hrows =>
      rw [if_pos (List.isEmpty_iff.1 hrows)]
      exact ⟨rfl, rfl, rfl⟩
    next hrows =>
      rw [if_neg (mt List.isEmpty_iff.2 hrows)]
      split
      · exact ⟨rfl, rfl, rfl⟩
      next solution hsolution =>
        split
        next hoptimal =>
          -- Rows are there and the answer is optimal, against both cases.
          rcases h with hnil | hnone
          · exact absurd (List.isEmpty_iff.2 hnil) hrows
          · exact absurd (hoptimal ▸ hsolution) (hnone solution.slacks)
        · exact ⟨rfl, rfl, rfl⟩

/-- What a repair with an elastic optimum does. -/
theorem exists_relaxes_relaxRows (m : Master α σ) (rows : List Nat) (slacks : List α) :
    (m.relaxRows E rows slacks).store = m.store ∧ ∃ changes,
      E.Relaxes m.session.settings.dual.repairSlackFactor m.engine (rows.zip slacks) changes
        (m.relaxRows E rows slacks).engine ∧
      (m.relaxRows E rows slacks).session.journal.back? = some (.repaired changes.length) := by
  obtain ⟨hstore, changes, hchanges, hcount⟩ := exists_relaxes_foldl (E := E)
    m.session.settings.dual.repairSlackFactor (rows.zip slacks) (m, 0)
  refine ⟨hstore, changes, hchanges, ?_⟩
  simp only [relaxRows, hcount, Nat.zero_add, note, Session.note, Session.modifyIteration,
    Array.appendList_cons, Array.appendList_nil, Array.back?_push]

/-- A repair that has nothing to go through, or an elastic optimum to go by. -/
theorem exists_relaxes_repair {m : Master α σ} {slacks : List α}
    (hoptimal : (E.elastic m.engine m.repairRows (m.repairRows.map repairPrice)).2 =
      .ok ⟨.optimal, slacks⟩) :
    (m.repair E).1.store = m.store ∧ ∃ changes,
      E.Relaxes m.session.settings.dual.repairSlackFactor
        (if m.repairRows = [] then m.engine
          else (E.elastic m.engine m.repairRows (m.repairRows.map repairPrice)).1)
        (m.repairRows.zip slacks) changes (m.repair E).1.engine := by
  -- Without rows nothing is asked and nothing is relaxed.
  by_cases hrows : m.repairRows = []
  · obtain ⟨-, hstore, hengine⟩ := repair_of_not_optimal (E := E) (m := m) (.inl hrows)
    rw [hengine, if_pos hrows, hrows]
    exact ⟨hstore, [], .done _⟩
  · rw [repair_of_optimal hrows hoptimal, if_neg hrows]
    obtain ⟨hstore, changes, hchanges, -⟩ := exists_relaxes_relaxRows (E := E)
      { m with engine := (E.elastic m.engine m.repairRows (m.repairRows.map repairPrice)).1 }
      m.repairRows slacks
    exact ⟨hstore, changes, hchanges⟩

end Master

/-! ## Tables hold rows -/

omit [Scalar α] in
/-- Engines with tables hold the rows of their tables. -/
theorem Tabular.engine_holdsRows (search : Tabular α → Search α (Tabular α))
    (elastic : Tabular α → List Nat → List α → Answer (ElasticSolution α)) :
    (Tabular.engine search elastic).HoldsRows fun m => m.rows.map (·.2) where
  read := by
    intro g i upper h
    simp only [engine] at h
    cases haccess : access g.failures.rowRead g.rows i with
    | error e => rw [haccess] at h; exact nomatch h
    | ok entry =>
      rw [haccess] at h
      refine ⟨entry.2, ?_, Except.ok.inj h⟩
      rw [List.getElem?_map, getElem?_of_access haccess, Option.map_some]
  taken := by
    intro g i upper h
    simp only [engine, setRowUpper, remember] at h ⊢
    cases haccess : access g.failures.rowWrite g.rows i with
    | error e => rw [haccess] at h; exact nomatch h
    | ok entry =>
      have hentry := getElem?_of_access haccess
      -- The written row and the others, place by place.
      apply List.ext_getElem?
      intro k
      rw [List.map_set]
      rcases eq_or_ne i k with rfl | hne
      · rw [List.getElem?_set_self', List.getElem?_modify_eq, List.getElem?_map, hentry]
        rfl
      · rw [List.getElem?_set_ne hne, List.getElem?_modify_ne _ _ hne]
  refused := by
    intro g i upper e h
    simp only [engine, setRowUpper, remember] at h ⊢
    cases haccess : access g.failures.rowWrite g.rows i with
    | error e => rfl
    | ok entry => rw [haccess] at h; exact nomatch h
  elastic _ _ _ := rfl

omit [Scalar α] in
/-- They answer unless an access is made to fail. -/
theorem Tabular.engine_answersRows (search : Tabular α → Search α (Tabular α))
    (elastic : Tabular α → List Nat → List α → Answer (ElasticSolution α)) :
    (Tabular.engine search elastic).AnswersRows
      (fun m => m.failures.rowRead = [] ∧ m.failures.rowWrite = []) fun m => m.rows.map (·.2) where
  read := by
    intro g i h hi
    rw [List.length_map] at hi
    simp only [engine, h.1, access_nil hi]
    exact ⟨_, rfl⟩
  write := by
    intro g i h hi upper
    rw [List.length_map] at hi
    simp only [engine, setRowUpper, remember, h.2, access_nil hi]
  -- A refused write changes no more than one that is taken.
  kept := by
    intro g h i upper
    simp only [engine, setRowUpper, remember]
    split <;> exact ⟨h, fun _ => rfl⟩
  elastic h _ _ := ⟨h, fun _ => rfl⟩

namespace CutAway

/-- One variable without nonlinear constraints. -/
def problem : Problem α :=
  (Problem.ofObjective (.affine ⟨[(0, 1.0)], 0.0⟩ .minimize)).addVariable "x" (-5.0) 5.0 .real

/-- A cut that does not hold everywhere, and one that does, of which the first leaves nothing. -/
def rows : List (String × Row α) :=
  [("wrong", ⟨1, [(0, 1.0)], 1.0⟩), ("right", ⟨1, [(0, -1.0)], -2.0⟩)]

def ledger : CutLedger α :=
  (CutLedger.empty.record ⟨.objective, [1.0], .interiorSearch⟩ 1 false false (some 0)).record
    ⟨.objective, [2.0], .interiorSearch⟩ 1 false true (some 1)

/-- The cuts are rows already. -/
def master (failures : AccessFailures) : Master α (Tabular α) :=
  { Master.start
      { problem
        settings := .standard
        bounds := .fresh .minimize (Settings.standard (α := α)).termination
        iterations := .empty
        statistics := {}
        clock := .still ⟨0⟩
        journal := #[] } (.fresh [(-5.0, 5.0)] rows failures) .cuttingPlane with
    store := { CutStore.empty with ledger } }

/-- An engine whose elastic solves end with these slacks. -/
def engine (slacks : List α) : Engine α (Tabular α) := scriptedEngine [] (.ok ⟨.optimal, slacks⟩)

omit [Scalar α] in
theorem engine_holdsRows (slacks : List α) :
    (engine slacks).HoldsRows fun m => m.rows.map (·.2) := by
  unfold engine scriptedEngine
  exact Tabular.engine_holdsRows _ _

omit [Scalar α] in
theorem engine_answersRows (slacks : List α) : (engine slacks).AnswersRows
    (fun m => m.failures.rowRead = [] ∧ m.failures.rowWrite = []) fun m => m.rows.map (·.2) := by
  unfold engine scriptedEngine
  exact Tabular.engine_answersRows _ _

end CutAway

/-! ## Feasible points -/

namespace Exact

/-- What is not negative is positive unless it is at most zero. -/
theorem zero_lt_iff {s : Exact} (hs : (0.0 : Exact) ≤ s) : (0.0 : Exact) < s ↔ ¬ s ≤ 0.0 := by
  rw [Scalar.NumberOrder.lt_iff]
  exact and_iff_right hs

/-- What is positive is a positive number, or infinite. -/
theorem eq_of_zero_lt {s : Exact} (h : (0.0 : Exact) < s) :
    s = infinite false ∨ ∃ r : ℚ, s = finite r ∧ 0 < r := by
  rw [zero_eq] at h
  cases s with
  | finite r => exact .inr ⟨r, rfl, (finite_lt _ _).1 h⟩
  | infinite t =>
    cases t with
    | false => exact .inl rfl
    | true => exact absurd h Bool.false_ne_true
  | undefined => exact absurd h Bool.false_ne_true

/-- A multiple of what is positive by at least one. -/
theorem le_mul_of_one_le {s f : Exact} (hs : (0.0 : Exact) < s) (hf : (1.0 : Exact) ≤ f) :
    s ≤ f * s := by
  have hpos : (0.0 : Exact) < f := by
    refine Scalar.NumberOrder.lt_of_lt_of_le ?_ hf
    rw [zero_eq, one_eq, finite_lt]
    exact zero_lt_one
  -- What is positive is infinity or a positive number.
  rcases eq_of_zero_lt hs with rfl | ⟨r, rfl, hr⟩ <;>
    rcases eq_of_zero_lt hpos with rfl | ⟨w, rfl, hw⟩
  · rfl
  · have hmul : finite w * infinite false = infinite (decide (w < 0) != false) := if_neg hw.ne'
    rw [hmul, decide_eq_false hw.not_gt]
    rfl
  · have hmul : infinite false * finite r = infinite (false != decide (r < 0)) := if_neg hr.ne'
    rw [hmul, decide_eq_false hr.not_gt]
    rfl
  · rw [one_eq, finite_le] at hf
    rw [finite_mul, finite_le]
    exact le_mul_of_one_le_left hr.le hf

/-- Adding a number keeps the order. -/
theorem finite_add_le (u : ℚ) {a b : Exact} (h : a ≤ b) : finite u + a ≤ finite u + b := by
  cases a with
  | finite q =>
    cases b with
    | finite r =>
      rw [finite_add, finite_add, finite_le]
      exact add_le_add_right ((finite_le q r).1 h) u
    | infinite t => cases t <;> exact h
    | undefined => exact h
  -- An infinity on the left: the sums are the summands.
  | infinite s =>
    cases b with
    | finite r => cases s <;> exact h
    | infinite t => exact h
    | undefined => exact h
  | undefined => exact absurd h (not_undefined_le b)

end Exact

/-- A row that slack would make a point satisfy is satisfied once it is raised by the slack times
    a factor of at least one. If there is no slack, it need not be raised. -/
theorem Row.satisfied_raised {row : Row Exact} {x : Point Exact} {slack factor : Exact}
    (hfinite : Scalar.isFinite row.upper = true) (hfactor : 1.0 ≤ factor) (hslack : 0.0 ≤ slack)
    (hroom : (row.withUpper (row.upper + slack)).Satisfied x) :
    (if 0.0 < slack then row.withUpper (row.upper + factor * slack) else row).Satisfied x := by
  have hupper := Exact.eq_finite hfinite
  unfold Row.Satisfied at hroom ⊢
  simp only [Row.withUpper] at hroom
  rw [hupper] at hroom
  split
  next hpos =>
    change Row.activity _ x ≤ row.upper + factor * slack
    rw [hupper]
    -- The right-hand side is raised by at least the slack, and the slack made room.
    have hmore := Exact.le_mul_of_one_le hpos hfactor
    exact Scalar.NumberOrder.le_trans hroom (Exact.finite_add_le _ hmore)
  next hzero =>
    -- A slack that is not positive is zero at most, so the row holds as it stands.
    have hnone : slack ≤ 0.0 := Decidable.not_not.1 (mt (Exact.zero_lt_iff hslack).2 hzero)
    rw [Exact.zero_eq] at hnone
    have hsum := Scalar.NumberOrder.le_trans hroom (Exact.finite_add_le _ hnone)
    rw [hupper]
    rwa [Exact.finite_add, add_zero] at hsum

/-- A point within the bounds of all columns that satisfies all rows. -/
structure Engine.Admits (E : Engine α σ) (view : σ → List (Row α)) (g : σ) (x : Point α) :
    Prop where
  /-- Every coordinate is within the bounds of its column. -/
  bounds : ∀ j lower upper, E.columnBounds g j = .ok (lower, upper) →
    lower ≤ x.coord j ∧ x.coord j ≤ upper
  /-- Every row is satisfied. -/
  rows : ∀ row ∈ view g, row.Satisfied x

namespace Master

omit [Scalar α] in
/-- Rows that may be relaxed are rows of the ledger, in its order. -/
theorem repairRows_sublist (m : Master α σ) :
    m.repairRows.Sublist (m.store.ledger.entries.filterMap (·.row)) :=
  (List.take_sublist _ _).trans (List.filter_sublist.filterMap _)

theorem one_le_repairSlackFactor {given : Settings α} (h : given.validate = .ok ()) :
    1.0 ≤ given.dual.repairSlackFactor := by
  have hall := (Settings.validate_eq_ok_iff given).1 h
  simp only [Settings.requirements, List.forall_mem_cons, decide_eq_true_eq] at hall
  exact hall.2.2.2.2.1

/-- On the record of a repair is what it asks for, and then attempts to change those rows. -/
theorem exists_record_repair {m : Master α σ} {slacks : List α}
    (hoptimal : (E.elastic m.engine m.repairRows (m.repairRows.map repairPrice)).2 =
      .ok ⟨.optimal, slacks⟩) :
    ∃ writes, (m.recorded.repair E.recording).1.engine.2 = (if m.repairRows = [] then []
        else [.elastic m.repairRows (m.repairRows.map repairPrice)]) ++ writes ∧
      ∀ a ∈ writes, ∃ i ∈ m.repairRows, ∃ upper, a = .rowUpper i upper := by
  obtain ⟨-, changes, hchanges⟩ := exists_relaxes_repair (E := E.recording) (m := m.recorded)
    hoptimal
  obtain ⟨writes, hrecord, hwrites⟩ := hchanges.exists_writes
  -- The record begins with the question, and what follows are the writes.
  refine ⟨writes, hrecord.trans (congrArg (· ++ writes) ?_), fun a ha => ?_⟩
  · rw [show m.recorded.repairRows = m.repairRows from rfl]
    split <;> rfl
  · obtain ⟨i, hi, hupper⟩ := hwrites a ha
    obtain ⟨t, ht, rfl⟩ := List.mem_map.1 hi
    exact ⟨t.1, (List.of_mem_zip ht).1, hupper⟩

/-- What a repair with an elastic optimum leaves behind: each row that it may relax is raised by
    its slack times the factor of the settings if it needed any, and the other rows and the
    bounds are what they were. -/
theorem view_repair {E : Engine Exact σ} {P : σ → Prop} {view : σ → List (Row Exact)}
    (hE : E.HoldsRows view) (hanswers : E.AnswersRows P view) {m : Master Exact σ}
    (hkind : P m.engine) (hdistinct : m.repairRows.Nodup)
    (hrange : ∀ i ∈ m.repairRows, i < (view m.engine).length) {slacks : List Exact}
    (hoptimal : (E.elastic m.engine m.repairRows (m.repairRows.map repairPrice)).2 =
      .ok ⟨.optimal, slacks⟩)
    (hlength : slacks.length = m.repairRows.length) (hslacks : ∀ s ∈ slacks, 0.0 ≤ s) :
    let g := (m.repair E).1.engine
    (∀ t ∈ m.repairRows.zip slacks, (view g)[t.1]? = ((view m.engine)[t.1]?).map fun row =>
      if 0.0 < t.2 then
        row.withUpper (row.upper + m.session.settings.dual.repairSlackFactor * t.2)
      else row) ∧
    (∀ i, i ∉ m.repairRows → (view g)[i]? = (view m.engine)[i]?) ∧
    ∀ j, E.columnBounds g j = E.columnBounds m.engine j := by
  obtain ⟨-, changes, hrelaxes⟩ := exists_relaxes_repair hoptimal
  -- Asking for slack changes neither rows nor bounds.
  have hasked : ∀ g, g = (if m.repairRows = [] then m.engine
      else (E.elastic m.engine m.repairRows (m.repairRows.map repairPrice)).1) →
      P g ∧ view g = view m.engine ∧ ∀ j, E.columnBounds g j = E.columnBounds m.engine j := by
    rintro g rfl
    split
    · exact ⟨hkind, rfl, fun _ => rfl⟩
    · exact ⟨(hanswers.elastic hkind _ _).1, hE.elastic _ _ _, (hanswers.elastic hkind _ _).2⟩
  obtain ⟨hkept, hview, hsame⟩ := hasked _ rfl
  -- There is a slack for every row, so the targets are the rows.
  have hfst : (m.repairRows.zip slacks).map (·.1) = m.repairRows :=
    List.map_fst_zip hlength.ge
  obtain ⟨hothers, htargets, hbounds⟩ := hrelaxes.getElem?_view hE hanswers hkept
    (fun t ht => hview ▸ hrange _ (List.of_mem_zip ht).1) (by rw [hfst]; exact hdistinct)
  rw [hview, hfst] at hothers
  rw [hview] at htargets
  refine ⟨fun t ht => ?_, hothers, fun j => (hbounds j).trans (hsame j)⟩
  rw [htargets t ht]
  congr 1
  funext row
  simp only [Exact.zero_lt_iff (hslacks _ (List.of_mem_zip ht).2), ite_not]

/-- If elastic slack on the rows that may be relaxed makes a point feasible, a repair makes it
    feasible. It asks the engine for that slack, and relaxes each of these rows that needed it
    by the slack times the factor of the settings; all other rows, the bounds and the cut store
    stay as they are. -/
theorem repair_restores_feasibility {E : Engine Exact σ} {P : σ → Prop}
    {view : σ → List (Row Exact)} (hE : E.HoldsRows view) (hanswers : E.AnswersRows P view)
    (m : Master Exact σ) (hkind : P m.engine)
    (hvalid : m.session.settings.validate = .ok ())
    (hdistinct : (m.store.ledger.entries.filterMap (·.row)).Nodup)
    (hrange : ∀ i ∈ m.store.ledger.entries.filterMap (·.row), i < (view m.engine).length)
    {slacks : List Exact}
    (hoptimal : (E.elastic m.engine m.repairRows (m.repairRows.map repairPrice)).2 =
      .ok ⟨.optimal, slacks⟩)
    (hlength : slacks.length = m.repairRows.length) (hslacks : ∀ s ∈ slacks, 0.0 ≤ s)
    (hnumbers : ∀ i ∈ m.repairRows, ∀ row, (view m.engine)[i]? = some row →
      Scalar.isFinite row.upper = true) :
    let requested := ((m.store.ledger.entries.filter fun e =>
      !e.removed && !e.convex).filterMap (·.row)).take m.session.settings.dual.repairMaxRows
    let factor := m.session.settings.dual.repairSlackFactor
    let r := m.repair E
    let recorded := m.recorded.repair E.recording
    (∀ x, (∀ j lower upper, E.columnBounds m.engine j = .ok (lower, upper) →
          lower ≤ x.coord j ∧ x.coord j ≤ upper) →
        (∀ i row, (view m.engine)[i]? = some row → i ∉ requested → row.Satisfied x) →
        (∀ t ∈ requested.zip slacks, ∀ row, (view m.engine)[t.1]? = some row →
          (row.withUpper (row.upper + t.2)).Satisfied x) →
        E.Admits view r.1.engine x) ∧
      ((recorded.1.unrecorded, recorded.2) = r ∧ ∃ writes,
        recorded.1.engine.2 = (if requested = [] then []
          else [.elastic requested (requested.map repairPrice)]) ++ writes ∧
        ∀ a ∈ writes, ∃ i ∈ requested, ∃ upper, a = .rowUpper i upper) ∧
      (∀ t ∈ requested.zip slacks, (view r.1.engine)[t.1]? =
        ((view m.engine)[t.1]?).map fun row =>
          if 0.0 < t.2 then row.withUpper (row.upper + factor * t.2) else row) ∧
      (∀ i, i ∉ requested → (view r.1.engine)[i]? = (view m.engine)[i]?) ∧
      (∀ j, E.columnBounds r.1.engine j = E.columnBounds m.engine j) ∧
      r.1.store = m.store := by
  intro requested factor r recorded
  have hsublist := m.repairRows_sublist
  obtain ⟨hrelaxed, hothers, hbounds⟩ := view_repair hE hanswers hkind
    (hdistinct.sublist hsublist) (fun i hi => hrange i (hsublist.subset hi)) hoptimal hlength
    hslacks
  refine ⟨fun x hx hfree hslack => ⟨fun j lower upper h => ?_, fun row hmem => ?_⟩,
    ⟨unrecorded_repair m.recorded, exists_record_repair hoptimal⟩, hrelaxed, hothers, hbounds,
    (exists_relaxes_repair hoptimal).1⟩
  · exact hx j lower upper ((hbounds j).symm.trans h)
  · obtain ⟨i, hi⟩ := List.mem_iff_getElem?.1 hmem
    by_cases hrequested : i ∈ m.repairRows
    · -- A requested row has a slack, which is zero or made room enough.
      have hfst : (m.repairRows.zip slacks).map (·.1) = m.repairRows :=
        List.map_fst_zip hlength.ge
      rw [← hfst] at hrequested
      obtain ⟨t, ht, rfl⟩ := List.mem_map.1 hrequested
      rw [hrelaxed t ht] at hi
      obtain ⟨before, hbefore, rfl⟩ := Option.map_eq_some_iff.1 hi
      exact Row.satisfied_raised (hnumbers t.1 (List.of_mem_zip ht).1 before hbefore)
        (one_le_repairSlackFactor hvalid) (hslacks t.2 (List.of_mem_zip ht).2)
        (hslack t ht before hbefore)
    · exact hfree i row ((hothers i hrequested).symm.trans hi) hrequested

end Master

namespace CutAway

/-- With the slack it needs, and half as much again, the wrong cut leaves a point of the right
    one, which stays as it is. -/
theorem repair_restores_feasibility_cutAway :
    let m : Master Exact (Tabular Exact) := master {}
    let m' := (m.repair (engine [1.0])).1
    (engine [1.0]).Admits (fun m => m.rows.map (·.2)) m'.engine [2.0] ∧
      (m'.engine.rows.map (·.2))[0]? = some ⟨1, [(0, 1.0)], 1.0 + 1.5 * 1.0⟩ ∧
      (m'.engine.rows.map (·.2))[1]? = some ⟨1, [(0, -1.0)], -2.0⟩ := by
  intro m m'
  have hnumbers : ∀ i ∈ m.repairRows, ∀ row : Row Exact,
      (rows.map (·.2))[i]? = some row → Scalar.isFinite row.upper = true := by
    intro i hi row hrow
    have hzero : i = 0 := List.mem_singleton.1 hi
    subst hzero
    cases hrow
    rfl
  have hoptimal : ((engine [1.0]).elastic m.engine m.repairRows
      (m.repairRows.map Master.repairPrice)).2 = .ok ⟨.optimal, [1.0]⟩ := rfl
  obtain ⟨hfeasible, -, hrelaxed, hothers, -⟩ := Master.repair_restores_feasibility
    (engine_holdsRows _) (engine_answersRows _) m ⟨rfl, rfl⟩
    ((Settings.validate_eq_ok_iff _).2 (List.all_eq_true.1 (by decide +kernel)))
    (by decide) (by decide) hoptimal rfl (by decide +kernel) hnumbers
  -- The point is within its bounds, satisfies the other row, and has room in the raised one.
  refine ⟨hfeasible [2.0] ?_ ?_ ?_, ?_, ?_⟩
  · intro j lower upper h
    change Tabular.access [] [((-5.0 : Exact), (5.0 : Exact))] j = _ at h
    have hbounds := Tabular.getElem?_of_access h
    rcases j with _ | j
    · cases hbounds
      decide +kernel
    · exact nomatch hbounds
  · rintro (_ | _ | i) row hrow hfree
    · exact absurd List.mem_cons_self hfree
    · cases hrow
      decide +kernel
    · exact nomatch hrow
  · intro t ht row hrow
    rw [show t = (0, 1.0) from List.mem_singleton.1 ht] at hrow ⊢
    cases hrow
    decide +kernel
  · have hpositive : (0.0 : Exact) < 1.0 := by decide +kernel
    exact (hrelaxed (0, 1.0) (List.mem_singleton.2 rfl)).trans (congrArg some (if_pos hpositive))
  · rw [hothers 1 (by decide)]
    rfl

end CutAway

/-! ## What the answer means -/

/-- A repair answers whether there was an elastic optimum to go by. If not, it changes no row.
    If so, it changes those rows whose slack is positive and whose right-hand side can be read
    and written, which may be none of them, and the solve searches again in any case. -/
theorem Master.repair_answer (hE : E.HoldsRows view) (m : Master α σ) :
    let requested := m.repairRows
    let consulted := E.elastic m.engine requested (requested.map repairPrice)
    let r := m.repair E
    (r.2 = true ↔ requested ≠ [] ∧ ∃ slacks, consulted.2 = .ok ⟨.optimal, slacks⟩) ∧
      (r.2 = false → view r.1.engine = view m.engine) ∧
      (∀ slacks, requested ≠ [] → consulted.2 = .ok ⟨.optimal, slacks⟩ → ∃ changes,
        E.Relaxes m.session.settings.dual.repairSlackFactor consulted.1 (requested.zip slacks)
          changes r.1.engine ∧
        r.1.session.journal.back? = some (.repaired changes.length) ∧
        view r.1.engine =
          changes.foldl (fun rows change => rows.modify change.1 (·.withUpper change.2))
            (view m.engine)) ∧
      ∀ status, (Solver.repaired? E m status).isSome = true ↔
        status = .infeasible ∧ requested ≠ [] ∧ ∃ slacks, consulted.2 = .ok ⟨.optimal, slacks⟩ := by
  intro requested consulted r
  -- Nothing but an optimal answer to a question that was asked makes it true.
  have hanswer : r.2 = true ↔
      requested ≠ [] ∧ ∃ slacks, consulted.2 = .ok ⟨.optimal, slacks⟩ := by
    constructor
    · intro htrue
      by_contra hnot
      have hfalse := (repair_of_not_optimal (E := E) (m := m)
        (or_iff_not_imp_left.2 fun hrows slacks h => hnot ⟨hrows, slacks, h⟩)).1
      exact Bool.false_ne_true (hfalse.symm.trans htrue)
    · rintro ⟨hrows, slacks, hoptimal⟩
      exact congrArg Prod.snd (repair_of_optimal hrows hoptimal)
  refine ⟨hanswer, fun hfalse => ?_, fun slacks hrows hoptimal => ?_, fun status => ?_⟩
  · have hnot := mt hanswer.2 (ne_true_of_eq_false hfalse)
    obtain ⟨-, -, hengine⟩ := repair_of_not_optimal (E := E) (m := m)
      (or_iff_not_imp_left.2 fun hrows slacks h => hnot ⟨hrows, slacks, h⟩)
    rw [hengine]
    split
    · rfl
    · exact hE.elastic _ _ _
  -- The rows are relaxed one after the other; the remark tells how many.
  · have hr : r = _ := repair_of_optimal hrows hoptimal
    obtain ⟨-, changes, hchanges, hcount⟩ := exists_relaxes_relaxRows (E := E)
      { m with engine := consulted.1 } requested slacks
    rw [hr]
    refine ⟨changes, hchanges, hcount, ?_⟩
    rw [hchanges.view_eq hE, hE.elastic]
  · rw [← hanswer, Solver.repaired?]
    split
    next h =>
      rw [Bool.and_eq_true, decide_eq_true_eq] at h
      exact iff_of_true rfl h
    next h =>
      rw [Bool.and_eq_true, decide_eq_true_eq] at h
      exact iff_of_false Bool.false_ne_true h

namespace CutAway

/-- The answer is right if the row needs slack and can be relaxed. -/
theorem repair_answer_one :
    let m : Master Float (Tabular Float) := master {}
    let r := m.repair (engine [1.0])
    r.2 = true ∧ (∃ changes : List (Nat × Float),
        r.1.session.journal.back? = some (.repaired changes.length) ∧
        r.1.engine.rows.map (·.2) =
          changes.foldl (fun rows change => rows.modify change.1 (·.withUpper change.2))
            (rows.map (·.2))) ∧
      r.1.engine.rows.map (fun entry => entry.2.upper.toBits) =
        [(2.5 : Float).toBits, (-2.0 : Float).toBits] := by
  intro m r
  obtain ⟨hanswer, -, hchanges, -⟩ := Master.repair_answer (engine_holdsRows [1.0]) m
  have hrequested : m.repairRows ≠ [] := by decide
  obtain ⟨changes, -, hcount, hrows⟩ := hchanges [1.0] hrequested rfl
  exact ⟨hanswer.2 ⟨hrequested, [1.0], rfl⟩, ⟨changes, hcount, hrows⟩, by decide +kernel⟩

/-- It does not mean that a row was changed: if the slack is zero or missing, or the row cannot
    be read or written, nothing changes, and the solve still searches again. -/
theorem repair_answer_not_truthful :
    (∀ way ∈ ([([0.0], {}), ([], {}), ([1.0], { rowRead := [0] }), ([1.0], { rowWrite := [0] })] :
        List (List Float × AccessFailures)),
      ((master way.2).repair (engine way.1)).2 = true ∧
      ((master way.2).repair (engine way.1)).1.engine.rows = rows ∧
      (Solver.repaired? (engine way.1) (master way.2) .infeasible).isSome = true) ∧
    ¬ ∀ (E : Engine Float (Tabular Float)) (view : Tabular Float → List (Row Float)),
      E.HoldsRows view → ∀ m : Master Float (Tabular Float),
        (m.repair E).2 = true ↔ view (m.repair E).1.engine ≠ view m.engine := by
  constructor
  · simp only [List.forall_mem_cons]
    exact ⟨⟨rfl, rfl, rfl⟩, ⟨rfl, rfl, rfl⟩, ⟨rfl, rfl, rfl⟩, ⟨rfl, rfl, rfl⟩,
      fun _ h => absurd h List.not_mem_nil⟩
  -- A slack of zero: the answer is true, and no row is changed.
  · intro hall
    have hrows : ((master {}).repair (engine [0.0])).1.engine.rows =
        (master {} : Master Float (Tabular Float)).engine.rows := rfl
    exact (hall _ _ (engine_holdsRows [0.0]) (master {})).1 rfl
      (congrArg (List.map (·.2)) hrows)

end CutAway

end OuterApprox
