import OuterApprox.Proofs.Course
import OuterApprox.Engine.Tabular

/-!
# Keeping a record

An engine that remembers what it was asked for between events. It does what the engine it is
made from does, answer for answer, so what its record says of a round or of a repair is true of
any engine: how often it is searched, which rows it is asked to relax and at what price, and
what is changed in between.

## Main definitions

* `Engine.recording`: The engine with a record.
* `Master.recorded`, `Master.unrecorded`: Beginning a record, and leaving it out.
* `Master.record`: What is on record.
* `Master.searchCount`: How many searches are on record.

## Theorems

* `Search.run_mapState`: A search that keeps a record takes the same course.
* `Master.retryBoundedObjective_eq`, `Master.retryBoundedColumns_eq`, `Master.solve_eq`: A round
  as a composition.
* `Master.unrecorded_solve`, `Master.unrecorded_repair`: The record makes no difference.
* `Master.searchCount_solve_le`: A round has at most three searches.
-/

namespace OuterApprox

variable {α σ τ : Type}

/-- A search whose final state is seen through a function. -/
def Search.mapState (f : σ → τ) : Search α σ → Search α τ
  | .finish g result => .finish (f g) result
  | .report e resume => .report e fun calls => (resume calls).mapState f

/-- The callback sees the same events, for the function is applied to the last state only. -/
theorem Search.run_mapState [Scalar α] (f : σ → τ) (search : Search α σ) (c : Callback α) :
    (search.mapState f).run c = ((search.run c).1, f (search.run c).2.1, (search.run c).2.2) := by
  -- The search is a tree of events, each with an answer that the callback gives.
  induction search generalizing c with
  | finish g result => rfl
  | report e resume ih => exact ih _ _

/-- The engine that does what another one does, and keeps a record of what it was asked
    for between events. -/
def Engine.recording (E : Engine α σ) : Engine α (σ × List (EngineAction α)) where
  columns g := E.columns g.1
  rows g := E.rows g.1
  addRow g row name := let r := E.addRow g.1 row name; ((r.1, g.2), r.2)
  columnBounds g j := E.columnBounds g.1 j
  setColumnBounds g j lower upper :=
    let r := E.setColumnBounds g.1 j lower upper
    ((r.1, g.2 ++ [.bounds j lower upper]), r.2)
  rowUpper g i := E.rowUpper g.1 i
  setRowUpper g i upper :=
    let r := E.setRowUpper g.1 i upper
    ((r.1, g.2 ++ [.rowUpper i upper]), r.2)
  search g := (E.search g.1).mapState fun h => (h, g.2 ++ [.search])
  elastic g rows prices :=
    let r := E.elastic g.1 rows prices
    ((r.1, g.2 ++ [.elastic rows prices]), r.2)
  finalBound g := E.finalBound g.1

/-- Whether a search was asked for. -/
def EngineAction.isSearch : EngineAction α → Bool
  | .search => true
  | _ => false

/-- One more action counts if it is a search. -/
theorem EngineAction.countP_snoc (record : List (EngineAction α)) (a : EngineAction α) :
    (record ++ [a]).countP isSearch = record.countP isSearch + if a.isSearch then 1 else 0 := by
  rw [List.countP_append, List.countP_singleton]

namespace Master

/-- A master whose engine begins a record. -/
def recorded (m : Master α σ) : Master α (σ × List (EngineAction α)) :=
  ⟨m.session, m.store, m.strategy, (m.engine, [])⟩

/-- A master whose engine's record is left out. -/
def unrecorded (m : Master α (σ × List (EngineAction α))) : Master α σ :=
  ⟨m.session, m.store, m.strategy, m.engine.1⟩

/-- What an operation gives, its master without the record. -/
abbrev unrecordedAnswer {β : Type} (r : Master α (σ × List (EngineAction α)) × β) :
    Master α σ × β :=
  (r.1.unrecorded, r.2)

/-- What is on record. -/
def record (m : Master α (σ × List (EngineAction α))) : List (EngineAction α) := m.engine.2

/-- How many searches are on record. -/
def searchCount (m : Master α (σ × List (EngineAction α))) : Nat := m.engine.2.countP (·.isSearch)

/-! ## A round in one step -/

section Rounds

variable [Scalar α] {E : Engine α σ}

/-- If the epigraph variable is suspected, it is bounded. If that worked, a search follows, and
    wide bounds for the variable. -/
theorem retryBoundedObjective_eq (m : Master α σ) (status : Status) :
    m.retryBoundedObjective E status =
      (m.suspectObjective? status).elim (m, status) fun aux =>
        let bound := m.session.settings.dual.auxiliaryBound
        let bounded := (m.note [.boundingObjective bound]).setBounds E aux (-bound) bound
        let searched := bounded.1.runSearch E
        let wide := searched.1.session.settings.dual.unboundedBound
        if bounded.2 then ((searched.1.setBounds E aux (-wide) wide).1, searched.2)
        else (bounded.1, status) := by
  simp only [retryBoundedObjective]
  cases m.suspectObjective? status with
  | none => rfl
  | some aux =>
    simp only [Option.elim_some]
    generalize (m.note [.boundingObjective m.session.settings.dual.auxiliaryBound]).setBounds E aux
      (-m.session.settings.dual.auxiliaryBound) m.session.settings.dual.auxiliaryBound = bounded
    obtain ⟨m', _ | _⟩ := bounded <;> rfl

/-- If columns are suspected, those whose bounds can be read are bounded for a search, and get
    their bounds back. -/
theorem retryBoundedColumns_eq (m : Master α σ) :
    m.retryBoundedColumns E =
      if m.suspectColumns.isEmpty then (m.note [.nothingToBound], .unbounded)
      else
        let bound :=
          m.session.settings.dual.unboundedBound / m.session.settings.dual.unboundedScaling
        let read := m.readBounds E m.suspectColumns
        let bounded := (read.1.note [.boundingVariables read.2.length bound]).setAllBounds E
          (read.2.map fun t => (t.1, -bound, bound))
        let searched := bounded.runSearch E
        let restored := searched.1.setAllBounds E read.2
        ({ restored with session := restored.session.modifyIteration fun it =>
            { it with repaired := true } }, searched.2) := rfl

/-- A round is a search and its remedies. -/
theorem solve_eq (m : Master α σ) :
    m.solve E =
      let first := m.runSearch E
      let second := first.1.retryBoundedObjective E first.2
      let third := if second.2 = .unbounded then second.1.retryBoundedColumns E else second
      (third.1.recordFinalBound E third.2, third.2) := rfl

end Rounds

variable {E : Engine α σ} (m : Master α (σ × List (EngineAction α)))

/-! ## The record makes no difference -/

/-- Remarks are not made by the engine. -/
theorem unrecorded_note (remarks : List (Diagnostic α)) :
    (m.note remarks).unrecorded = m.unrecorded.note remarks := rfl

/-- Bounds are written to the engine below, and its answer is passed on. -/
theorem unrecorded_setBounds (j : Nat) (lower upper : α) :
    unrecordedAnswer (m.setBounds E.recording j lower upper) =
      m.unrecorded.setBounds E j lower upper := by
  simp only [setBounds, Engine.recording, unrecorded]
  cases (E.setColumnBounds m.engine.1 j lower upper).2 <;> rfl

/-- The same for many columns, one after the other. -/
theorem unrecorded_setAllBounds (targets : List (Nat × α × α)) :
    (m.setAllBounds E.recording targets).unrecorded = m.unrecorded.setAllBounds E targets := by
  unfold setAllBounds
  refine (List.foldl_hom unrecorded fun m t => ?_).symm
  rw [← unrecorded_setBounds]

/-- What is read is read from the engine below. -/
theorem unrecorded_readBounds (columns : List Nat) :
    unrecordedAnswer (m.readBounds E.recording columns) = m.unrecorded.readBounds E columns := by
  unfold readBounds
  refine (List.foldl_hom unrecordedAnswer fun acc column => ?_).symm
  simp only [unrecordedAnswer, unrecorded, Engine.recording]
  cases E.columnBounds acc.1.engine.1 column <;> rfl

/-- A write is on record, whether it succeeds or not. -/
theorem record_setBounds (j : Nat) (lower upper : α) :
    (m.setBounds E.recording j lower upper).1.record =
      m.record ++ [.bounds j lower upper] := by
  simp only [setBounds, Engine.recording, record]
  split <;> rfl

/-- So are all writes, in their order. -/
theorem record_setAllBounds (targets : List (Nat × α × α)) :
    (m.setAllBounds E.recording targets).record =
      m.record ++ targets.map fun t => .bounds t.1 t.2.1 t.2.2 := by
  unfold setAllBounds
  induction targets generalizing m with
  | nil => exact (List.append_nil _).symm
  | cons t rest ih =>
      rw [List.foldl_cons, ih, record_setBounds, List.append_assoc]
      rfl

/-- Reading does not touch the engine. -/
theorem engine_readBounds {E : Engine α τ} (m : Master α τ) (columns : List Nat) :
    (m.readBounds E columns).1.engine = m.engine := by
  unfold readBounds
  refine List.foldlRecOn columns _
    (motive := fun acc => Master.engine (Prod.fst acc) = m.engine) rfl ?_
  intro acc hacc column _
  dsimp only
  split <;> exact hacc

/-- Reading is not on record. -/
theorem record_readBounds (columns : List Nat) :
    (m.readBounds E.recording columns).1.record = m.record :=
  congrArg Prod.snd (engine_readBounds m columns)

/-- The searches are counted on the record. -/
theorem searchCount_eq : m.searchCount = m.record.countP (·.isSearch) := rfl

/-- Writing bounds is no search. -/
theorem searchCount_setBounds (j : Nat) (lower upper : α) :
    (m.setBounds E.recording j lower upper).1.searchCount = m.searchCount := by
  rw [searchCount_eq, record_setBounds, EngineAction.countP_snoc]
  rfl

/-- Writing many is none either. -/
theorem searchCount_setAllBounds (targets : List (Nat × α × α)) :
    (m.setAllBounds E.recording targets).searchCount = m.searchCount := by
  have hnone : (targets.map fun t : Nat × α × α => EngineAction.bounds t.1 t.2.1 t.2.2).countP
      (·.isSearch) = 0 := by
    rw [List.countP_map]
    exact List.countP_eq_zero.2 fun _ _ => Bool.false_ne_true
  rw [searchCount_eq, record_setAllBounds, List.countP_append, hnone]
  rfl

section Rounds

variable [Scalar α]

/-- A search takes the same course and ends with the same answer. -/
theorem unrecorded_runSearch :
    unrecordedAnswer (m.runSearch E.recording) = m.unrecorded.runSearch E := by
  simp only [runSearch, Engine.recording, Search.run_mapState, unrecorded]
  -- The end of a search is an answer of the engine, or the failure to give one.
  cases ((E.search m.engine.1).run (Callback.start m.session m.store m.strategy)).2.2 <;> rfl

/-- The first remedy: both suspect the same column. -/
theorem unrecorded_retryBoundedObjective (status : Status) :
    unrecordedAnswer (m.retryBoundedObjective E.recording status) =
      m.unrecorded.retryBoundedObjective E status := by
  have hsuspect : m.unrecorded.suspectObjective? status = m.suspectObjective? status := rfl
  rw [retryBoundedObjective_eq, retryBoundedObjective_eq, hsuspect]
  cases m.suspectObjective? status with
  | none => rfl
  | some aux =>
    dsimp only [Option.elim_some]
    -- From the inside out, each step is seen without the record.
    rw [show m.unrecorded.session = m.session from rfl, ← unrecorded_note, ← unrecorded_setBounds]
    generalize Master.setBounds E.recording (m.note _) aux _ _ = bounded
    rw [← unrecorded_runSearch]
    generalize bounded.1.runSearch E.recording = searched
    rw [← unrecorded_setBounds, apply_ite unrecordedAnswer]
    rfl

/-- The second remedy: both suspect the same columns. -/
theorem unrecorded_retryBoundedColumns :
    unrecordedAnswer (m.retryBoundedColumns E.recording) =
      m.unrecorded.retryBoundedColumns E := by
  have hsuspect : m.unrecorded.suspectColumns = m.suspectColumns := rfl
  rw [retryBoundedColumns_eq, retryBoundedColumns_eq, hsuspect]
  split
  · rfl
  · dsimp only
    rw [← unrecorded_readBounds]
    generalize m.readBounds E.recording m.suspectColumns = read
    rw [← unrecorded_note, ← unrecorded_setAllBounds, ← unrecorded_runSearch,
      ← unrecorded_setAllBounds]
    rfl

/-- The last bound is that of the engine below. -/
theorem unrecorded_recordFinalBound (status : Status) :
    (m.recordFinalBound E.recording status).unrecorded =
      m.unrecorded.recordFinalBound E status := by
  simp only [recordFinalBound, Engine.recording, unrecorded]
  split
  · rfl
  · cases E.finalBound m.engine.1 with
    | error e => rfl
    | ok bound =>
      dsimp only
      split <;> rfl

/-- The record makes no difference to a round. -/
theorem unrecorded_solve :
    unrecordedAnswer (m.solve E.recording) = m.unrecorded.solve E := by
  -- The second remedy is tried on a condition, which is one about the status.
  have hcolumns : ∀ r : Master α (σ × List (EngineAction α)) × Status,
      unrecordedAnswer (if r.2 = .unbounded then r.1.retryBoundedColumns E.recording else r) =
        if r.2 = .unbounded then r.1.unrecorded.retryBoundedColumns E else unrecordedAnswer r := by
    intro r
    rw [apply_ite unrecordedAnswer, unrecorded_retryBoundedColumns]
  rw [solve_eq, solve_eq, ← unrecorded_runSearch]
  dsimp only
  rw [← unrecorded_retryBoundedObjective]
  dsimp only
  rw [← hcolumns]
  dsimp only
  rw [← unrecorded_recordFinalBound]

/-- One row: both read the same right-hand side and write the same one. -/
theorem unrecorded_relaxRow (factor : α)
    (acc : Master α (σ × List (EngineAction α)) × Nat) (target : Nat × α) :
    unrecordedAnswer (relaxRow E.recording factor acc target) =
      relaxRow E factor (unrecordedAnswer acc) target := by
  simp only [relaxRow, Engine.recording, unrecorded]
  split
  · rfl
  · cases E.rowUpper acc.1.engine.1 target.1 with
    | error e => rfl
    | ok upper =>
      dsimp only
      cases (E.setRowUpper acc.1.engine.1 target.1 (upper + factor * target.2)).2 <;> rfl

/-- All rows, and the count of those that were relaxed. -/
theorem unrecorded_relaxRows (rows : List Nat) (slacks : List α) :
    (m.relaxRows E.recording rows slacks).unrecorded = m.unrecorded.relaxRows E rows slacks := by
  have hfold : ∀ factor, (rows.zip slacks).foldl (relaxRow E factor) (unrecordedAnswer (m, 0)) =
      unrecordedAnswer ((rows.zip slacks).foldl (relaxRow E.recording factor) (m, 0)) :=
    fun factor => List.foldl_hom unrecordedAnswer fun acc target =>
      (unrecorded_relaxRow factor acc target).symm
  simp only [relaxRows]
  rw [show m.unrecorded.session = m.session from rfl,
    show (m.unrecorded, 0) = unrecordedAnswer (m, 0) from rfl, hfold]
  rfl

/-- The record makes no difference to a repair. -/
theorem unrecorded_repair :
    unrecordedAnswer (m.repair E.recording) = m.unrecorded.repair E := by
  have hrows : m.unrecorded.repairRows = m.repairRows := rfl
  have hledger : m.unrecorded.store.ledger = m.store.ledger := rfl
  simp only [repair, hrows, hledger]
  split
  · rfl
  · split
    · rfl
    -- The engine below is asked for the slacks, at the same prices.
    · simp only [Engine.recording, unrecorded]
      cases (E.elastic m.engine.1 m.repairRows (m.repairRows.map repairPrice)).2 with
      | error e => rfl
      | ok solution =>
        dsimp only
        rw [apply_ite unrecordedAnswer]
        congr 1
        exact congrArg (·, true) (unrecorded_relaxRows _ _ _)

/-! ## Counting searches -/

/-- A search is on record once, however it ends. -/
theorem record_runSearch : (m.runSearch E.recording).1.record = m.record ++ [.search] := by
  simp only [runSearch, Engine.recording, Search.run_mapState, record]
  split <;> rfl

/-- Asking for the last bound is not on record. -/
theorem record_recordFinalBound (status : Status) :
    (m.recordFinalBound E.recording status).record = m.record := by
  simp only [recordFinalBound]
  split
  · rfl
  · split
    · rfl
    · split <;> rfl

/-- A search is one search. -/
theorem searchCount_runSearch :
    (m.runSearch E.recording).1.searchCount = m.searchCount + 1 := by
  rw [searchCount_eq, record_runSearch, EngineAction.countP_snoc]
  rfl

/-- The first remedy searches once, and only after the bounds were set. -/
theorem searchCount_retryBoundedObjective_le (status : Status) :
    (m.retryBoundedObjective E.recording status).1.searchCount ≤ m.searchCount + 1 := by
  rw [retryBoundedObjective_eq]
  cases m.suspectObjective? status with
  | none => exact Nat.le_succ _
  | some aux =>
    dsimp only [Option.elim_some]
    -- Where the bounds could not be set, there is no search.
    split
    · rw [searchCount_setBounds, searchCount_runSearch, searchCount_setBounds]
      exact Nat.le_refl _
    · rw [searchCount_setBounds]
      exact Nat.le_succ _

/-- The second remedy searches once, if there is anything to bound. -/
theorem searchCount_retryBoundedColumns_le :
    (m.retryBoundedColumns E.recording).1.searchCount ≤ m.searchCount + 1 := by
  rw [retryBoundedColumns_eq]
  split
  · exact Nat.le_succ _
  · have hread : ∀ remarks, ((m.readBounds E.recording m.suspectColumns).1.note
        remarks).searchCount = m.searchCount := fun _ =>
      congrArg (fun g => g.2.countP (·.isSearch)) (engine_readBounds m m.suspectColumns)
    refine Nat.le_of_eq ((searchCount_setAllBounds _ _).trans ?_)
    rw [searchCount_runSearch, searchCount_setAllBounds, hread]

/-- The last bound is asked for without a search. -/
theorem searchCount_recordFinalBound (status : Status) :
    (m.recordFinalBound E.recording status).searchCount = m.searchCount :=
  congrArg (List.countP EngineAction.isSearch) (record_recordFinalBound m status)

/-- A round has at most three searches. -/
theorem searchCount_solve_le : (m.solve E.recording).1.searchCount ≤ m.searchCount + 3 := by
  -- The first search, and one for each of the two remedies.
  have hfirst := searchCount_runSearch (E := E) m
  have hsecond := searchCount_retryBoundedObjective_le (E := E) (m.runSearch E.recording).1
    (m.runSearch E.recording).2
  have hthird := searchCount_retryBoundedColumns_le (E := E)
    ((m.runSearch E.recording).1.retryBoundedObjective E.recording (m.runSearch E.recording).2).1
  rw [solve_eq]
  dsimp only
  rw [searchCount_recordFinalBound]
  split <;> omega

end Rounds

end Master

end OuterApprox
