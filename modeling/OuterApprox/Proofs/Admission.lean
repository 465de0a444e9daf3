import OuterApprox.Proofs.IncumbentHandover
import OuterApprox.Proofs.Margins
import OuterApprox.Proofs.Restoration

/-!
# What validation lets through

Settings are validated before a solve and used far from there. Two kinds of values that an
engine is given are computed from them. In a round that has to be helped, columns get
intervals around zero for the length of a search: the epigraph variable gets one that is a
setting by itself and then a wide one, and the columns that may make the problem unbounded
get one whose size is a quotient of two settings. And a cutoff is the primal bound made worse
by a tolerance.

The wide interval is the only one that validation takes care of. The others are intervals, and
the cutoff admits the incumbent, under conditions that valid settings need not meet: a bound
and a tolerance that are not negative, and a quotient that is not one of infinities. Each of
these conditions is necessary, but for tolerances so small that rounding loses them.

## Main definitions

* `Remedies`, `Master.remedies`: What a round does to the bounds of columns.
* `DualSettings.epigraphBounds`, `DualSettings.narrowBounds`, `Remedies.temporary`: The bounds
  that are written without having been read.
* `Master.writes`: The bounds that are on record.
* `Turn.cutoffs`: The cutoffs of a turn.

## Theorems

* `Remedies.temporary_iff`: When all that is written are intervals.
* `Master.writes_retryBoundedObjective`, `Master.writes_retryBoundedColumns`,
  `Master.writes_solve`: What is written in a round.
* `Callback.cutoff_handle`: Every cutoff is behind the primal bound.
* `Master.sends_proper_iff`: What an engine is given in a round under valid settings.
-/

namespace OuterApprox

variable {α σ : Type}

/-! ## Intervals -/

/-- What a round does to the bounds of columns. -/
structure Remedies (α : Type) where
  /-- The epigraph variable, if it is suspected. -/
  suspect : Option Nat
  /-- Whether it was bounded for a search. -/
  retried : Bool
  /-- The columns that were bounded for a search, with the bounds they had. -/
  columns : List (Nat × α × α)

namespace DualSettings

variable [Scalar α]

/-- The bounds written to an epigraph variable that is suspected: narrow ones for a search, and
then wide ones. -/
def epigraphBounds (dual : DualSettings α) (suspect : Option Nat) (retried : Bool) :
    List (Nat × α × α) :=
  suspect.elim [] fun aux =>
    (aux, -dual.auxiliaryBound, dual.auxiliaryBound) ::
      if retried then [(aux, -dual.unboundedBound, dual.unboundedBound)] else []

/-- The bounds written to columns that may make the problem unbounded. -/
def narrowBounds (dual : DualSettings α) (columns : List (Nat × α × α)) : List (Nat × α × α) :=
  let narrow := dual.unboundedBound / dual.unboundedScaling
  columns.map fun t => (t.1, -narrow, narrow)

variable [Scalar.MarginOrder α] {dual : DualSettings α}

theorem epigraphBounds_iff (hbound : 0.0 < dual.unboundedBound) (suspect : Option Nat)
    (retried : Bool) :
    (∀ t ∈ dual.epigraphBounds suspect retried, t.2.1 ≤ t.2.2) ↔
      (suspect.isSome = true → 0.0 ≤ dual.auxiliaryBound) := by
  have hwide : -dual.unboundedBound ≤ dual.unboundedBound :=
    (Scalar.MarginOrder.neg_le_self_iff _).2 (Scalar.NumberOrder.le_of_lt hbound)
  cases suspect with
  | none => exact iff_of_true (List.forall_mem_nil _) fun h => absurd h Bool.false_ne_true
  | some aux =>
      rw [epigraphBounds, Option.elim_some, List.forall_mem_cons,
        Scalar.MarginOrder.neg_le_self_iff]
      refine ⟨fun h _ => h.1, fun h => ⟨h rfl, ?_⟩⟩
      split
      · exact List.forall_mem_singleton.2 hwide
      · exact List.forall_mem_nil _

theorem narrowBounds_iff (hscaling : 1.0 ≤ dual.unboundedScaling)
    (hbound : 0.0 < dual.unboundedBound) (columns : List (Nat × α × α)) :
    (∀ t ∈ dual.narrowBounds columns, t.2.1 ≤ t.2.2) ↔
      (columns ≠ [] → Scalar.isFinite dual.unboundedBound = true ∨
        Scalar.isFinite dual.unboundedScaling = true) := by
  rw [narrowBounds, List.forall_mem_map, ← Scalar.MarginOrder.nonneg_div_iff hbound hscaling]
  simp only [Scalar.MarginOrder.neg_le_self_iff]
  constructor
  · intro h hsome
    exact h _ (List.head_mem hsome)
  · exact fun h t ht => h (List.ne_nil_of_mem ht)

end DualSettings

/-- The bounds that are written in a round, without those that are given back. -/
def Remedies.temporary [Scalar α] (r : Remedies α) (dual : DualSettings α) :
    List (Nat × α × α) :=
  dual.epigraphBounds r.suspect r.retried ++ dual.narrowBounds r.columns

/-- What is written are intervals if what they are made of is not negative. -/
theorem Remedies.temporary_iff [Scalar α] [Scalar.MarginOrder α] (r : Remedies α)
    {dual : DualSettings α} (hscaling : 1.0 ≤ dual.unboundedScaling)
    (hbound : 0.0 < dual.unboundedBound) :
    (∀ t ∈ r.temporary dual, t.2.1 ≤ t.2.2) ↔
      (r.suspect.isSome = true → 0.0 ≤ dual.auxiliaryBound) ∧
        (r.columns ≠ [] → Scalar.isFinite dual.unboundedBound = true ∨
          Scalar.isFinite dual.unboundedScaling = true) := by
  rw [temporary, List.forall_mem_append, DualSettings.epigraphBounds_iff hbound,
    DualSettings.narrowBounds_iff hscaling hbound]

/-- The bounds that were to be written, if any. -/
def EngineAction.write? : EngineAction α → Option (Nat × α × α)
  | .bounds j lower upper => some (j, lower, upper)
  | _ => none

namespace Master

/-- The bounds that are on record. -/
def writes (m : Master α (σ × List (EngineAction α))) : List (Nat × α × α) :=
  m.record.filterMap (·.write?)

section Writes

variable {E : Engine α σ} (m : Master α (σ × List (EngineAction α)))

theorem writes_setBounds (j : Nat) (lower upper : α) :
    (m.setBounds E.recording j lower upper).1.writes = m.writes ++ [(j, lower, upper)] := by
  rw [writes, record_setBounds, List.filterMap_append]
  rfl

theorem writes_setAllBounds (targets : List (Nat × α × α)) :
    (m.setAllBounds E.recording targets).writes = m.writes ++ targets := by
  rw [writes, record_setAllBounds, List.filterMap_append, List.filterMap_map]
  exact congrArg (m.writes ++ ·) List.filterMap_some

theorem writes_readBounds (columns : List Nat) :
    (m.readBounds E.recording columns).1.writes = m.writes :=
  congrArg (List.filterMap EngineAction.write?) (record_readBounds m columns)

variable [Scalar α]

theorem writes_runSearch : (m.runSearch E.recording).1.writes = m.writes := by
  rw [writes, record_runSearch, List.filterMap_append]
  exact List.append_nil _

theorem writes_recordFinalBound (status : Status) :
    (m.recordFinalBound E.recording status).writes = m.writes :=
  congrArg (List.filterMap EngineAction.write?) (record_recordFinalBound m status)

end Writes

variable [Scalar α]

/-- What the round from here does to bounds. -/
def remedies (E : Engine α σ) (m : Master α σ) : Remedies α :=
  let first := m.runSearch E
  let second := first.1.retryBoundedObjective E first.2
  { suspect := first.1.suspectObjective? first.2
    retried := (first.1.boundedObjective? E first.2).isSome
    columns := if second.2 = .unbounded
      then (second.1.readBounds E second.1.suspectColumns).2 else [] }

end Master

/-- No event changes the problem or the settings, and nothing else in a round does. -/
theorem Session.given_invariant [Scalar α] (p : Problem α) (given : Settings α) :
    Callback.Invariant (fun _ : Event α => True) fun s _ => s.problem = p ∧ s.settings = given where
  event c e _ h := ⟨(c.steps_handle e).problem.trans h.1, (c.steps_handle e).settings.trans h.2⟩
  statistics _ _ _ h := h
  note _ _ _ h := h
  dual _ _ _ h := h
  repaired _ _ h := h

namespace Master

variable [Scalar α] {E : Engine α σ}

theorem settings_runSearch (m : Master α σ) :
    (m.runSearch E).1.session.settings = m.session.settings :=
  (((Session.given_invariant m.session.problem m.session.settings).master E).runSearch (τ := []) m
    (fun _ _ => trivial) ⟨rfl, rfl⟩).2

theorem settings_retryBoundedObjective (m : Master α σ) (status : Status) :
    (m.retryBoundedObjective E status).1.session.settings = m.session.settings :=
  (((Session.given_invariant m.session.problem m.session.settings).master
    E).retryBoundedObjective (τ := []) m status (fun _ _ _ _ => trivial) ⟨rfl, rfl⟩).2

theorem settings_setBounds (m : Master α σ) (j : Nat) (lower upper : α) :
    (m.setBounds E j lower upper).1.session.settings = m.session.settings :=
  (((Session.given_invariant m.session.problem m.session.settings).master E).setBounds (τ := []) m
    j lower upper ⟨rfl, rfl⟩).2

section Writes

variable (m : Master α (σ × List (EngineAction α)))

/-- A suspected epigraph variable is bounded, and gets wide bounds if a search followed. -/
theorem writes_retryBoundedObjective (status : Status) :
    let dual := m.session.settings.dual
    (m.retryBoundedObjective E.recording status).1.writes = m.writes ++ dual.epigraphBounds
      (m.suspectObjective? status) (m.boundedObjective? E.recording status).isSome := by
  intro dual
  rw [retryBoundedObjective_eq, boundedObjective?]
  cases m.suspectObjective? status with
  | none => exact (List.append_nil _).symm
  | some aux =>
      have hbounded := writes_setBounds (E := E) (m.note [.boundingObjective dual.auxiliaryBound])
        aux (-dual.auxiliaryBound) dual.auxiliaryBound
      have hsettings := (settings_runSearch (E := E.recording) _).trans (settings_setBounds
        (E := E.recording) (m.note [.boundingObjective dual.auxiliaryBound]) aux
        (-dual.auxiliaryBound) dual.auxiliaryBound)
      dsimp only [Option.elim_some, Option.bind_some]
      split
      · rw [writes_setBounds, writes_runSearch, hbounded, List.append_assoc, hsettings]
        rfl
      · exact hbounded

/-- Suspected columns that can be read are bounded, and get back what was read. -/
theorem writes_retryBoundedColumns :
    let read := (m.readBounds E.recording m.suspectColumns).2
    (m.retryBoundedColumns E.recording).1.writes =
      m.writes ++ (m.session.settings.dual.narrowBounds read ++ read) := by
  intro read
  rw [retryBoundedColumns_eq]
  split
  next hnone =>
    have hread : read = [] := by
      change (m.readBounds E.recording m.suspectColumns).2 = []
      rw [List.isEmpty_iff.1 hnone]
      rfl
    rw [hread]
    exact (List.append_nil _).symm
  · have hnarrow : ∀ remarks, (((m.readBounds E.recording m.suspectColumns).1.note
        remarks).setAllBounds E.recording (m.session.settings.dual.narrowBounds read)).writes =
          m.writes ++ m.session.settings.dual.narrowBounds read :=
      fun remarks => (writes_setAllBounds _ _).trans
        (congrArg (· ++ _) (writes_readBounds m m.suspectColumns))
    -- After the search what was read is written back.
    refine (writes_setAllBounds _ read).trans ?_
    rw [writes_runSearch]
    exact (congrArg (· ++ read) (hnarrow _)).trans (List.append_assoc _ _ _)

/-- The record makes no difference to what a round does to bounds. -/
theorem remedies_unrecorded : m.unrecorded.remedies E = m.remedies E.recording := by
  have hretried : ∀ (m : Master α (σ × List (EngineAction α))) status,
      (m.unrecorded.boundedObjective? E status).isSome =
        (m.boundedObjective? E.recording status).isSome := by
    intro m status
    have hsuspect : m.unrecorded.suspectObjective? status = m.suspectObjective? status := rfl
    rw [boundedObjective?, boundedObjective?, hsuspect]
    cases m.suspectObjective? status with
    | none => rfl
    | some aux =>
        dsimp only [Option.bind_some]
        rw [show m.unrecorded.session = m.session from rfl, ← unrecorded_note,
          ← unrecorded_setBounds]
        dsimp only
        split <;> rfl
  have hread : ∀ m : Master α (σ × List (EngineAction α)),
      (m.unrecorded.readBounds E m.unrecorded.suspectColumns).2 =
        (m.readBounds E.recording m.suspectColumns).2 :=
    fun m => congrArg Prod.snd (unrecorded_readBounds m m.suspectColumns).symm
  -- The record is dropped step by step: after the first search, and then after the retry.
  rw [remedies, remedies, ← unrecorded_runSearch]
  dsimp only
  rw [hretried, ← unrecorded_retryBoundedObjective]
  dsimp only
  rw [hread]
  rfl

/-- What a round writes to columns: what is not given back, and then what is. -/
theorem writes_solve :
    (m.solve E.recording).1.writes = m.writes ++
      ((m.remedies E.recording).temporary m.session.settings.dual ++
        (m.remedies E.recording).columns) := by
  have hfirst := settings_runSearch (E := E.recording) m
  have hobjective := writes_retryBoundedObjective (E := E) (m.runSearch E.recording).1
    (m.runSearch E.recording).2
  have hsecond := settings_retryBoundedObjective (E := E.recording) (m.runSearch E.recording).1
    (m.runSearch E.recording).2
  have hcolumns := writes_retryBoundedColumns (E := E)
    ((m.runSearch E.recording).1.retryBoundedObjective E.recording (m.runSearch E.recording).2).1
  rw [solve_eq]
  dsimp only at hobjective hcolumns ⊢
  rw [writes_recordFinalBound]
  rw [writes_runSearch, hfirst] at hobjective
  rw [hsecond, hfirst, hobjective] at hcolumns
  simp only [remedies, Remedies.temporary]
  -- Columns are bounded only if the search after the first remedy is unbounded.
  split
  · rw [hcolumns]
    simp only [List.append_assoc]
  · rw [hobjective]
    exact congrArg (m.writes ++ ·) ((List.append_nil _).trans (List.append_nil _)).symm

end Writes

/-- The problem and the settings are the same whenever an event is reported. -/
theorem given_of_mem_trace (m : Master α σ) :
    ∀ step ∈ m.trace E, step.1.session.problem = m.session.problem ∧
      step.1.session.settings = m.session.settings := by
  have I := Session.given_invariant m.session.problem m.session.settings
  intro step hstep
  obtain ⟨m', hm', hsearch⟩ := List.mem_flatMap.1 hstep
  obtain ⟨_, hkept⟩ := ((I.master E).solve (τ := []) m (fun _ _ => trivial) ⟨rfl, rfl⟩).1 m' hm'
  exact I.searchStates m' (fun _ _ => trivial) hkept _ (Search.mem_states_of_mem_trace _ _ hsearch)

end Master

/-! ## Cutoffs -/

/-- The value of a cutoff. -/
def Call.cutoff? : Call α → Option α
  | .cutoff value _ => some value
  | _ => none

/-- The cutoffs that an engine is told in a turn. -/
def Turn.cutoffs (t : Turn α) : List α := t.calls.filterMap (·.cutoff?)

theorem Turn.mem_cutoffs {t : Turn α} {cutoff : α} :
    cutoff ∈ t.cutoffs ↔ ∃ set, .cutoff cutoff set ∈ t.calls := by
  rw [cutoffs, List.mem_filterMap]
  constructor
  · rintro ⟨call, hcall, hvalue⟩
    cases call with
    | cutoff value set => exact ⟨set, Option.some.inj hvalue ▸ hcall⟩
    | row | solution | abort => simp only [Call.cutoff?, reduceCtorEq] at hvalue
  · rintro ⟨set, hcall⟩
    exact ⟨_, hcall, rfl⟩

/-- Handing over a solution sets no cutoff. -/
theorem Turn.cutoff_submitIncumbent [Scalar α] (t : Turn α) (e : Event α) (primal : α) {cutoff : α}
    {set : Bool} (h : .cutoff cutoff set ∈ (t.submitIncumbent e primal).calls) :
    .cutoff cutoff set ∈ t.calls := by
  simp only [submitIncumbent] at h
  split at h
  · exact h
  · have hcall : ∀ values taken, .cutoff cutoff set ∈ t.calls ++ [.solution values taken] →
        .cutoff cutoff set ∈ t.calls := by
      intro values taken hmem
      simpa only [List.mem_append, List.mem_singleton, reduceCtorEq, or_false] using hmem
    split at h <;> exact hcall _ _ h

/-- When the incumbent is handed over, the only new cutoff is the one behind the primal bound. -/
theorem Turn.cutoff_injectIncumbent [Scalar α] (t : Turn α) (e : Event α) {cutoff : α}
    {set : Bool} (h : .cutoff cutoff set ∈ (t.injectIncumbent e).calls) :
    .cutoff cutoff set ∈ t.calls ∨
      Scalar.isFinite t.session.bounds.primalBound = true ∧
        cutoff = t.problem.sense.worsen t.session.bounds.primalBound
          t.session.settings.dual.cutoffTolerance := by
  simp only [injectIncumbent] at h
  split at h
  · exact .inl h
  next hnews =>
    rw [Bool.or_eq_true, not_or, Bool.not_eq_true', Bool.not_eq_false] at hnews
    generalize t.session.bounds.primalBound = primal at h hnews ⊢
    have hquiet := quiet_submitIncumbent t e primal
    -- The solution is handed over and the bound remembered, and then the cutoff is set.
    generalize hu : ({ t.submitIncumbent e primal with
      callback := { (t.submitIncumbent e primal).callback with injected := some primal } } :
        Turn α) = u at h
    have hproblem : u.problem = t.problem := hu ▸ hquiet.problem
    have hsettings : u.session.settings = t.session.settings := hu ▸ hquiet.settings
    have hcalls : u.calls = (t.submitIncumbent e primal).calls := hu ▸ rfl
    obtain ⟨-, set', hcutoff⟩ := exists_calls_submitCutoff u e primal
    rw [hcutoff, List.mem_append, List.mem_singleton, hcalls, hproblem, hsettings] at h
    rcases h with hbefore | hlast
    · exact .inl (t.cutoff_submitIncumbent e primal hbefore)
    · exact .inr ⟨hnews.1, (Call.cutoff.inj hlast).1⟩

/-- Every cutoff is behind the primal bound that the event leaves. -/
theorem Callback.cutoff_handle [Scalar α] (c : Callback α) (e : Event α) {cutoff : α}
    (h : cutoff ∈ (c.handle e).cutoffs) :
    Scalar.isFinite (c.handle e).session.bounds.primalBound = true ∧
      cutoff = c.session.problem.sense.worsen (c.handle e).session.bounds.primalBound
        c.session.settings.dual.cutoffTolerance := by
  obtain ⟨set, h⟩ := Turn.mem_cutoffs.1 h
  have hsteps := steps_handle c e
  have hproblem : (c.handle e).session.problem = c.session.problem := hsteps.problem
  have hsettings : (c.handle e).session.settings = c.session.settings := hsteps.settings
  have hsilent : ∀ {t : Turn α}, Turn.Silent ⟨c, []⟩ t → .cutoff cutoff set ∉ t.calls := by
    rintro t ⟨-, more, hcalls, hmore⟩ hmem
    rw [hcalls] at hmem
    exact Bool.false_ne_true (hmore _ hmem).symm
  -- An event hands over the incumbent once at most, and is silent before and after that.
  rcases handover_handle c e with hnone | ⟨u, hbefore, hafter, hquiet⟩
  · exact absurd h (hsilent hnone)
  -- The bounds, the problem and the settings of the moment are those of the turn.
  have hmoment := (Turn.quiet_injectIncumbent u e).trans hquiet
  rw [hmoment.bounds, ← hproblem, ← hsettings, hmoment.problem, hmoment.settings]
  obtain ⟨more, hcalls, hmore⟩ := hafter.calls
  rw [hcalls, List.mem_append] at h
  have hhanded := h.resolve_right fun hmem => Bool.false_ne_true (hmore _ hmem).symm
  exact (u.cutoff_injectIncumbent e hhanded).resolve_left (hsilent hbefore)

/-- Validation requires the bound for unbounded columns to be positive and its divisor to be at
least one. -/
theorem Settings.unbounded_of_validate [Scalar α] {s : Settings α} (h : s.validate = .ok ()) :
    1.0 ≤ s.dual.unboundedScaling ∧ 0.0 < s.dual.unboundedBound := by
  have hall := (validate_eq_ok_iff s).1 h
  simp only [requirements, List.forall_mem_cons, decide_eq_true_eq] at hall
  exact ⟨hall.2.2.1, hall.2.2.2.1⟩

/-- What an engine is given in a round under valid settings. The bounds written to columns are
those of the remedies, and what was read of columns is given back. All of the former are
intervals exactly if the bound of the epigraph variable is not negative, should that variable be
suspected, and not both settings of the quotient are infinite, should columns be bounded for it.
A cutoff is behind a primal bound that is finite, and admits it exactly if the tolerance is not
negative or lost in rounding. -/
theorem Master.sends_proper_iff [Scalar α] [Scalar.MarginOrder α] (E : Engine α σ)
    (m : Master α σ) (hvalid : m.session.settings.validate = .ok ()) :
    let dual := m.session.settings.dual
    let sense := m.session.problem.sense
    let r := m.remedies E
    let recorded := m.recorded.solve E.recording
    (recorded.1.unrecorded, recorded.2) = m.solve E ∧
    recorded.1.writes = r.temporary dual ++ r.columns ∧
    ((∀ t ∈ r.temporary dual, t.2.1 ≤ t.2.2) ↔
      (r.suspect.isSome = true → 0.0 ≤ dual.auxiliaryBound) ∧
        (r.columns ≠ [] → Scalar.isFinite dual.unboundedBound = true ∨
          Scalar.isFinite dual.unboundedScaling = true)) ∧
    ∀ step ∈ m.trace E, ∀ cutoff ∈ (step.1.handle step.2).cutoffs,
      let primal := (step.1.handle step.2).session.bounds.primalBound
      Scalar.isFinite primal = true ∧ cutoff = sense.worsen primal dual.cutoffTolerance ∧
        (sense.asGood primal cutoff = true ↔
          0.0 ≤ dual.cutoffTolerance ∨ (cutoff == primal) = true) := by
  intro dual sense r recorded
  obtain ⟨hscaling, hbound⟩ := Settings.unbounded_of_validate hvalid
  have hwrites := writes_solve (E := E) m.recorded
  rw [← remedies_unrecorded] at hwrites
  refine ⟨unrecorded_solve m.recorded, hwrites, r.temporary_iff hscaling hbound, ?_⟩
  intro step hstep cutoff hcutoff primal
  obtain ⟨hfinite, hbehind⟩ := step.1.cutoff_handle step.2 hcutoff
  obtain ⟨hproblem, hsettings⟩ := m.given_of_mem_trace step hstep
  rw [hproblem, hsettings] at hbehind
  refine ⟨hfinite, hbehind, ?_⟩
  rw [hbehind]
  exact sense.asGood_worsen_iff hfinite

namespace HeldLevel

/-- One variable that is to be large but not above one and a half, and an objective that counts
as quadratic, carried by an epigraph variable. -/
def problem : Problem Float :=
  { (((Problem.ofObjective ⟨Affine.toFunction ⟨[(0, -1.0)], 0.0⟩, .quadraticAsNonlinear,
      .minimize⟩).addVariable "x" 0.0 3.0 .real).addVariable "level" (-1e30) 1e30
        .real).addConstraint ⟨"cap", Affine.toFunction ⟨[(0, 1.0)], 0.0⟩, 1.5, true⟩ with
    auxiliary := some 1 }

/-- An engine that needs both remedies, and finds a solution and then a point beyond the cap. -/
def engine : Engine Float (Tabular Float) :=
  scriptedEngine
    [FreeEpigraph.silent .infeasible, FreeEpigraph.silent .unbounded,
      { events := [Solver.found (-1.0) [1.0, -1.0], Solver.found (-3.0) [3.0, -3.0]]
        status := .ok .optimal
        finalBound := .ok (-1.5)
        ignoreAbort := false }]
    (.error (.notAvailable "elastic"))

/-- A master under the usual settings but for those of the dual problem. -/
def master (dual : DualSettings Float) : Master Float (Tabular Float) :=
  .start
    { problem
      settings := { Settings.withCuttingPlanes with dual }
      bounds := .fresh .minimize Settings.standard.termination
      iterations := .empty
      statistics := {}
      clock := .still ⟨0⟩
      journal := #[] } (.fresh [(0.0, 3.0), (-1e30, 1e30)] [] {}) .cuttingPlane

/-- The usual settings of the dual problem. -/
def usual : DualSettings Float := Settings.withCuttingPlanes.dual

theorem valid_of_requirements {dual : DualSettings Float}
    (h : (master dual).session.settings.requirements.all (·.1) = true) :
    (master dual).session.settings.validate = .ok () :=
  (Settings.validate_eq_ok_iff _).2 (List.all_eq_true.1 h)

/-- Under the usual settings four bounds of the epigraph variable are written, all of them
intervals, and the cutoff admits the incumbent. -/
theorem sends_proper_iff_usual :
    ((master usual).recorded.solve engine.recording).1.writes.map (·.1) = [1, 1, 1, 1] ∧
    ((master usual).remedies engine).columns.length = 1 ∧
    (((master usual).trace engine).map fun step => (step.1.handle step.2).cutoffs.length) =
      [0, 1] ∧
    (∀ t ∈ ((master usual).remedies engine).temporary usual, t.2.1 ≤ t.2.2) ∧
    ∀ step ∈ (master usual).trace engine, ∀ cutoff ∈ (step.1.handle step.2).cutoffs,
      Sense.minimize.asGood (step.1.handle step.2).session.bounds.primalBound cutoff = true := by
  obtain ⟨-, -, hintervals, hcutoffs⟩ := Master.sends_proper_iff engine (master usual)
    (valid_of_requirements (by decide +kernel))
  refine ⟨by decide +kernel, by decide +kernel, by decide +kernel, ?_, ?_⟩
  · exact hintervals.2 ⟨fun _ => by decide +kernel, fun _ => .inl (by decide +kernel)⟩
  · intro step hstep cutoff hcutoff
    exact (hcutoffs step hstep cutoff hcutoff).2.2.2 (.inl (by decide +kernel))

/-- A negative bound for the epigraph variable. -/
def crossed : DualSettings Float := { usual with auxiliaryBound := -1.0 }

/-- No bound for unbounded columns, and as much as a divisor. -/
def unlimited : DualSettings Float :=
  { usual with unboundedBound := Scalar.infinity, unboundedScaling := Scalar.infinity }

/-- A cutoff ahead of the primal bound. -/
def ahead : DualSettings Float := { usual with cutoffTolerance := -1.0 }

/-- Valid settings may have what is written to columns be no intervals, because a bound is
negative or because a quotient is undefined, and may have the cutoff exclude the incumbent. -/
theorem sends_not_always_proper :
    (∀ dual ∈ [crossed, unlimited, ahead], (master dual).session.settings.validate = .ok ()) ∧
    (¬ ∀ t ∈ ((master crossed).remedies engine).temporary crossed, t.2.1 ≤ t.2.2) ∧
    (¬ ∀ t ∈ ((master unlimited).remedies engine).temporary unlimited, t.2.1 ≤ t.2.2) ∧
    ¬ ∀ step ∈ (master ahead).trace engine, ∀ cutoff ∈ (step.1.handle step.2).cutoffs,
      Sense.minimize.asGood (step.1.handle step.2).session.bounds.primalBound cutoff = true := by
  refine ⟨?_, by decide +kernel, by decide +kernel, by decide +kernel⟩
  simp only [List.forall_mem_cons]
  exact ⟨valid_of_requirements (by decide +kernel), valid_of_requirements (by decide +kernel),
    valid_of_requirements (by decide +kernel), List.forall_mem_nil _⟩

end HeldLevel

end OuterApprox
