import OuterApprox.Proofs.BoundOrder
import OuterApprox.Proofs.Incumbent
import OuterApprox.Proofs.Lasting

/-!
# The final status

What the status of a report says about the rest of it. A solve has up to two
rounds, and the word of the engine on the last of them is its verdict. The final
status is decided from the verdict, from the gap and the limits, and from whether
there is an incumbent, in this order.

A status that claims a solution is always right about that. A closed gap needs a
finite primal bound, which the ledger has with an incumbent only, and that is
known of the ledger throughout a solve (`Problem.Truthful`). An incumbent in turn
comes from some event of the trace, whatever the engine says at the end, and once
there it never goes away.

A verdict of infeasibility is passed on without a look at the incumbent. An engine
that was given a cutoff may well be left with an empty tree although the solve
found a solution, one that the engine does not have; then the report calls the
problem infeasible and shows a solution of it.

## Main definitions

* `Session.hasIncumbent`: There is a solution.
* `Trace.Accepted`: Some event left a solution behind.
* `Session.Tolerant`: The ledger has the tolerances of the settings.
* `Solver.verdict`: How the last round ended.

## Theorems

* `Solver.finalStatus_eq_error_iff`, `Solver.finalStatus_eq_optimal_iff`,
  `Solver.finalStatus_eq_feasible_iff`, `Solver.finalStatus_eq_infeasible_iff`:
  When the final status is what.
* `Turn.Steps.hasIncumbent`: An incumbent does not go away.
* `Search.hasIncumbent_run_iff`, `Solver.hasIncumbent_solve_iff`: A solve has an
  incumbent in the end exactly if some event left one.
* `Solver.marked_solve`: Only the rule that calculates with iterations can mark the queue of
  the local search.
* `Solver.solve_eq_ok`: So a solve under another rule ends with its report.
* `Solver.solve_eq_report`: The report of a solve.
* `Solver.positive_status_justified`: A status that claims a solution has one.
* `Solver.infeasible_with_solution_iff`: When a report of infeasibility comes with
  a solution.
-/

namespace OuterApprox

variable {α σ : Type} [Scalar α]

/-- Whether there is a solution. -/
def Session.hasIncumbent (s : Session α) : Bool := s.bounds.incumbent.isSome

theorem BoundLedger.gapMet_iff (l : BoundLedger α) :
    l.gapMet = true ↔ Scalar.isFinite l.primalBound = true ∧ Scalar.isFinite l.dualBound = true ∧
      (l.absoluteGap ≤ l.absoluteTolerance ∨ l.relativeGap ≤ l.relativeTolerance) := by
  simp only [gapMet, absoluteGapMet, relativeGapMet, boundsFinite, Bool.or_eq_true,
    Bool.and_eq_true, decide_eq_true_eq]
  tauto

/-- Some event left a solution behind. -/
def Trace.Accepted (τ : Trace α) : Prop :=
  ∃ step ∈ τ, (step.1.handle step.2).session.hasIncumbent = true

namespace Solver

/-! ## What the final status depends on -/

theorem finalStatus_eq_error_iff (t : Session α) (verdict : Status) :
    finalStatus t verdict = .error ↔ verdict = .error := by
  unfold finalStatus
  cases verdict <;> simp only [reduceCtorEq, if_true, if_false] <;> split_ifs <;> simp

theorem finalStatus_eq_optimal_iff (t : Session α) (verdict : Status) :
    finalStatus t verdict = .optimal ↔ verdict ≠ .error ∧ t.bounds.gapMet = true := by
  unfold finalStatus
  by_cases hgap : t.bounds.gapMet = true
  · cases verdict <;> simp [hgap]
  · cases verdict <;> simp only [hgap, reduceCtorEq, if_false] <;> split_ifs <;> simp

/-- Past the gap and the limits the verdict is passed on, except that a search that ended well
    is judged by the incumbent. -/
theorem finalStatus_of_not_terminated {t : Session α} (h : t.terminationReached = false)
    (verdict : Status) :
    finalStatus t verdict =
      if verdict = .optimal ∨ verdict = .abort ∨ verdict = .feasible then
        if t.hasIncumbent then .feasible else .notSolved
      else verdict := by
  simp only [Session.terminationReached, Bool.or_eq_false_iff] at h
  simp only [finalStatus, h.1.1, h.1.2, h.2]
  cases verdict <;> rfl

theorem finalStatus_of_terminated {t : Session α} (h : t.terminationReached = true)
    (verdict : Status) :
    finalStatus t verdict = .error ∨ finalStatus t verdict = .optimal ∨
      finalStatus t verdict = .iterationLimit ∨ finalStatus t verdict = .timeLimit := by
  by_cases herror : verdict = .error
  · exact .inl ((finalStatus_eq_error_iff t verdict).2 herror)
  · simp only [Session.terminationReached, Bool.or_eq_true] at h
    simp only [finalStatus, herror, if_false]
    -- The reasons are looked at in this order, and the first one counts.
    by_cases hgap : t.bounds.gapMet = true
    · exact .inr (.inl (if_pos hgap))
    · rw [if_neg hgap]
      by_cases hiteration : t.iterationLimitReached = true
      · exact .inr (.inr (.inl (if_pos hiteration)))
      · rw [if_neg hiteration, if_pos ((h.resolve_left (not_or.2 ⟨hgap, hiteration⟩)))]
        exact .inr (.inr (.inr rfl))

theorem finalStatus_eq_feasible_iff (t : Session α) (verdict : Status) :
    finalStatus t verdict = .feasible ↔
      (verdict = .optimal ∨ verdict = .abort ∨ verdict = .feasible) ∧
        t.terminationReached = false ∧ t.hasIncumbent = true := by
  cases hterm : t.terminationReached with
  | true =>
    rcases finalStatus_of_terminated hterm verdict with h | h | h | h <;> simp [h]
  | false =>
    rw [finalStatus_of_not_terminated hterm]
    by_cases hended : verdict = .optimal ∨ verdict = .abort ∨ verdict = .feasible
    · cases hsome : t.hasIncumbent <;> simp [hended]
    · rw [if_neg hended]
      exact ⟨fun heq => absurd (.inr (.inr heq)) hended, fun h => absurd h.1 hended⟩

theorem finalStatus_eq_infeasible_iff (t : Session α) (verdict : Status) :
    finalStatus t verdict = .infeasible ↔
      verdict = .infeasible ∧ t.terminationReached = false := by
  cases hterm : t.terminationReached with
  -- With a reason to stop the verdict is passed over.
  | true =>
    rcases finalStatus_of_terminated hterm verdict with h | h | h | h <;> simp [h]
  | false =>
    rw [finalStatus_of_not_terminated hterm]
    -- Without one, a verdict is replaced only if it says that a search came to an end.
    by_cases hended : verdict = .optimal ∨ verdict = .abort ∨ verdict = .feasible
    · have hne : verdict ≠ .infeasible := by
        rintro rfl
        simp only [reduceCtorEq, or_self] at hended
      cases hsome : t.hasIncumbent <;> simp [hended, hne]
    · rw [if_neg hended]
      exact ⟨fun heq => ⟨heq, rfl⟩, fun h => h.1⟩

end Solver

/-! ## Where an incumbent comes from -/

theorem Session.hasIncumbent_offerPrimal {s : Session α} (h : s.hasIncumbent = true)
    (c : Candidate α) (source : PrimalSource) :
    (s.offerPrimal c source).hasIncumbent = true := by
  rcases s.bounds.offerPrimal_cases ⟨c, source⟩ with ⟨-, -, hnew⟩ | ⟨-, hold⟩
  · exact congrArg Option.isSome hnew
  · exact (congrArg Option.isSome hold).trans h

theorem Session.hasIncumbent_offerDual (s : Session α) (d : DualBound α) :
    (s.offerDual d).hasIncumbent = s.hasIncumbent :=
  congrArg Option.isSome (BoundLedger.incumbent_offerDual s.bounds d)

/-- An incumbent may be replaced in a turn but does not go away. -/
theorem Turn.Steps.hasIncumbent {e : Event α} {t t' : Turn α} (hsteps : Turn.Steps e t t')
    (h : t.session.hasIncumbent = true) : t'.session.hasIncumbent = true := by
  induction hsteps with
  | refl => exact h
  | tail _ hstep ih =>
    cases hstep with
    | quiet hq => exact (congrArg (fun b => b.incumbent.isSome) hq.bounds).trans ih
    | primal x n source hlength hfrom => exact Session.hasIncumbent_offerPrimal ih _ source
    | dual d => exact (Session.hasIncumbent_offerDual _ d).trans ih
    | interior rule => exact ih
    | cut hp l number hrow => exact ih

theorem Search.hasIncumbent_run_iff (search : Search α σ) (c : Callback α) :
    (search.run c).1.session.hasIncumbent = true ↔
      c.session.hasIncumbent = true ∨ Trace.Accepted (search.trace c) := by
  -- By the events of the search; a later event takes no incumbent away.
  induction search generalizing c with
  | finish state result =>
    constructor
    · exact .inl
    · rintro (h | ⟨step, hmem, -⟩)
      · exact h
      · exact absurd hmem List.not_mem_nil
  | report e resume ih =>
    refine (ih _ _).trans ⟨?_, ?_⟩
    · rintro (h | ⟨step, hmem, h⟩)
      · exact .inr ⟨(c, e), List.mem_cons_self, h⟩
      · exact .inr ⟨step, List.mem_cons_of_mem _ hmem, h⟩
    · rintro (h | ⟨step, hmem, h⟩)
      · exact .inl ((c.steps_handle e).hasIncumbent h)
      · rcases List.mem_cons.1 hmem with rfl | hrest
        · exact .inl h
        · exact .inr ⟨step, hrest, h⟩

/-- Whatever the engine, the incumbent of the session is from the trace. -/
theorem Session.hasIncumbent_invariant (E : Engine α σ) :
    Master.Invariant E (fun _ => True)
      fun τ s _ _ => s.hasIncumbent = true ↔ Trace.Accepted τ where
  search τ m _ h := by
    have hrun := Search.hasIncumbent_run_iff (E.search m.engine) m.callback
    have hstart : m.callback.session.hasIncumbent = true ↔ Trace.Accepted τ := h
    -- There was an incumbent before the search, or an event of it brought one.
    refine hrun.trans ⟨?_, ?_⟩
    · rintro (hbefore | ⟨step, hmem, hleft⟩)
      · rcases hstart.1 hbefore with ⟨step, hmem, hleft⟩
        exact ⟨step, List.mem_append_left _ hmem, hleft⟩
      · exact ⟨step, List.mem_append_right _ hmem, hleft⟩
    · rintro ⟨step, hmem, hleft⟩
      rcases List.mem_append.1 hmem with hbefore | hduring
      · exact .inl (hstart.2 ⟨step, hbefore, hleft⟩)
      · exact .inr ⟨step, hduring, hleft⟩
  bounds _ _ _ _ _ _ _ h := h
  rowUpper _ _ _ _ _ _ h := h
  elastic _ _ _ _ _ _ h := h
  note _ _ _ _ _ h := h
  dual _ s _ _ d h := by rw [Session.hasIncumbent_offerDual]; exact h
  repaired _ _ _ _ h := h

/-- The tolerances for the gaps are those of the settings. -/
structure Session.Tolerant (given : Settings α) (s : Session α) : Prop where
  /-- The absolute gap is the one of the settings. -/
  absolute : s.bounds.absoluteTolerance = given.termination.absoluteGap
  /-- The relative gap is the one of the settings. -/
  relative : s.bounds.relativeTolerance = given.termination.relativeGap

theorem Session.Tolerant.offerDual {given : Settings α} {s : Session α} (h : s.Tolerant given)
    (d : DualBound α) : (s.offerDual d).Tolerant given where
  absolute := (BoundLedger.absoluteTolerance_offerDual s.bounds d).trans h.absolute
  relative := (BoundLedger.relativeTolerance_offerDual s.bounds d).trans h.relative

theorem Session.Tolerant.step {given : Settings α} {e : Event α} {t t' : Turn α}
    (hstep : Turn.Step e t t') (h : t.session.Tolerant given) : t'.session.Tolerant given := by
  cases hstep with
  | quiet hq => exact ⟨hq.bounds ▸ h.absolute, hq.bounds ▸ h.relative⟩
  | primal x n source hlength hfrom =>
    exact ⟨(BoundLedger.absoluteTolerance_offerPrimal _ _).trans h.absolute,
      (BoundLedger.relativeTolerance_offerPrimal _ _).trans h.relative⟩
  | dual d => exact h.offerDual d
  | interior rule => exact ⟨h.absolute, h.relative⟩
  | cut hp l number hrow => exact ⟨h.absolute, h.relative⟩

theorem Session.Tolerant.steps {given : Settings α} {e : Event α} {t t' : Turn α}
    (hsteps : Turn.Steps e t t') (h : t.session.Tolerant given) : t'.session.Tolerant given := by
  induction hsteps with
  | refl => exact h
  | tail _ hstep ih => exact ih.step hstep

theorem Session.tolerant_invariant (given : Settings α) :
    Callback.Invariant (fun _ => True) fun s _ => s.Tolerant given where
  event c e _ h := Session.Tolerant.steps (c.steps_handle e) h
  statistics _ _ _ h := ⟨h.absolute, h.relative⟩
  note _ _ _ h := ⟨h.absolute, h.relative⟩
  dual _ _ d h := h.offerDual d
  repaired _ _ h := ⟨h.absolute, h.relative⟩

namespace Solver

theorem hasIncumbent_solve_iff (E : Engine α σ) (s : Solver α σ)
    (hvalid : s.master.session.settings.validate = .ok ()) :
    (s.solve E).1.master.session.hasIncumbent = true ↔ Trace.Accepted (s.trace E) := by
  have hstart : s.startMaster.session.hasIncumbent = true ↔ Trace.Accepted (α := α) [] := by
    constructor
    · intro h
      exact nomatch h
    · rintro ⟨step, hmem, -⟩
      exact absurd hmem List.not_mem_nil
  exact (invariant_solve (Session.hasIncumbent_invariant E) s hvalid
    (fun _ _ => trivial) hstart).2

theorem tolerant_solve (E : Engine α σ) (s : Solver α σ)
    (hvalid : s.master.session.settings.validate = .ok ()) :
    (s.solve E).1.master.session.Tolerant s.master.session.settings :=
  (invariant_solve (τ := []) ((Session.tolerant_invariant _).master E) s hvalid
    (fun _ _ => trivial) ⟨rfl, rfl⟩).2

/-! ## The report -/

/-- How the last round of a solve ended. -/
def verdict (E : Engine α σ) (s : Solver α σ) : Status :=
  ((s.rounds E).getLast?.map fun m => (m.solve E).2).getD .notSolved

/-- After a repair the second round has the last word. -/
theorem status_repairAndResolve (E : Engine α σ) (m : Master α σ) (status : Status) :
    (repairAndResolve E m status).2 =
      ((repaired? E m status).map fun r => (r.solve E).2).getD status := by
  -- Only an infeasible problem is repaired.
  by_cases hstatus : status = .infeasible
  · cases hrepair : m.repair E with
    | mk m' done =>
      cases done with
      | false => simp [repairAndResolve, repaired?, hstatus, hrepair]
      | true =>
        simp only [repairAndResolve, repaired?, hstatus, hrepair, ne_eq, not_true_eq_false,
          decide_true, Bool.and_self, if_true, if_false, Option.map_some, Option.getD_some]
        split_ifs with hagain
        · exact hagain.symm
        · rfl
  · simp [repairAndResolve, repaired?, hstatus]

theorem verdict_eq (E : Engine α σ) (s : Solver α σ)
    (hvalid : s.master.session.settings.validate = .ok ()) :
    s.verdict E = (repairAndResolve E (s.startMaster.solve E).1 (s.startMaster.solve E).2).2 := by
  rw [status_repairAndResolve]
  simp only [verdict, rounds, hvalid]
  cases repaired? E (s.startMaster.solve E).1 (s.startMaster.solve E).2 <;> rfl

theorem report_note (m : Master α σ) (remarks : List (Diagnostic α)) (status : Status) :
    report (m.note remarks).session status = report m.session status := rfl

theorem finalStatus_note (m : Master α σ) (remarks : List (Diagnostic α)) (verdict : Status) :
    finalStatus (m.note remarks).session verdict = finalStatus m.session verdict := rfl

/-- The report of a solve says what the final session says, with the status that the verdict
    amounts to. -/
theorem solve_eq_report (E : Engine α σ) (s : Solver α σ)
    (hvalid : s.master.session.settings.validate = .ok ()) :
    (s.solve E).2 = answer (s.solve E).1.master.store (report (s.solve E).1.master.session
      (finalStatus (s.solve E).1.master.session (s.verdict E))) := by
  rw [verdict_eq E s hvalid]
  simp only [solve, hvalid, startMaster, report_note, finalStatus_note]

/-- The settings and the local solver stay, and only the rule that can overflow marks the queue of
    the local search. -/
theorem marked_invariant (given : Settings α) (solver : Option (FixedIntegerSolver α)) :
    Callback.Invariant (fun _ : Event α => True) fun t st =>
      (t.settings = given ∧ st.fixedInteger.solver = solver) ∧
        st.fixedInteger.MarkedBy given.primal.fixedInteger where
  event c e _ h := by
    have hlasts := c.lasts_handle e
    obtain ⟨⟨rfl, hsolver⟩, hmarked⟩ := h
    exact ⟨⟨hlasts.settings, hlasts.trials.solver.trans hsolver⟩, hlasts.trials.marked hmarked⟩
  statistics _ _ _ h := h
  note _ _ _ h := h
  dual _ _ _ h := h
  repaired _ _ h := h

/-- A solve keeps the settings and the local solver, and marks the queue of the local search only
    under the rule that can overflow. -/
theorem marked_solve (E : Engine α σ) (s : Solver α σ)
    (hvalid : s.master.session.settings.validate = .ok ())
    (hmarked : s.master.store.fixedInteger.MarkedBy
      s.master.session.settings.primal.fixedInteger) :
    let m := (s.solve E).1.master
    (m.session.settings = s.master.session.settings ∧
      m.store.fixedInteger.solver = s.master.store.fixedInteger.solver) ∧
      m.store.fixedInteger.MarkedBy s.master.session.settings.primal.fixedInteger :=
  (invariant_solve (τ := []) ((marked_invariant _ _).master E) s hvalid (fun _ _ => trivial)
    ⟨⟨rfl, rfl⟩, hmarked⟩).2

/-- A solve ends with its report, unless there is a local solver and the rule for it is the one
    that calculates with iterations. -/
theorem solve_eq_ok (E : Engine α σ) (s : Solver α σ)
    (hvalid : s.master.session.settings.validate = .ok ())
    (hmarked : s.master.store.fixedInteger.MarkedBy s.master.session.settings.primal.fixedInteger)
    (hsafe : s.master.store.fixedInteger.solver = none ∨
      ∀ n, s.master.session.settings.primal.fixedInteger ≠ .every n) :
    (s.solve E).2 = .ok (report (s.solve E).1.master.session
      (finalStatus (s.solve E).1.master.session (s.verdict E))) := by
  obtain ⟨⟨-, hsolver⟩, hfinal⟩ := marked_solve E s hvalid hmarked
  rw [s.solve_eq_report E hvalid]
  exact answer_eq_ok_iff.2 ⟨hfinal.eq_false (by rw [hsolver]; exact hsafe), rfl⟩

/-- A status that claims a solution has one. A report is optimal exactly if the last round did
    not fail and there is a feasible solution with finite bounds and a closed gap, a feasible one
    shows a solution, and a failure of the last round is not covered up. If no event left a
    solution behind, neither status is reported, whatever the engine answered. What time it is
    when the search ends and the status is decided makes no difference to that. -/
theorem positive_status_justified [Scalar.BoundOrder α] (E : Engine α σ) (s : Solver α σ)
    (hvalid : s.master.session.settings.validate = .ok ()) :
    let given := s.master.session.settings.termination
    ∃ r, (s.solve E).2 = answer (s.solve E).1.master.store r ∧
      (r.status = .optimal ↔ s.verdict E ≠ .error ∧ ∃ i, r.incumbent = some i ∧
        (∀ d ∈ i.candidate.deviation, d.value ≤ given.constraintTolerance) ∧
        Scalar.isFinite r.primalBound = true ∧ Scalar.isFinite r.dualBound = true ∧
        (r.absoluteGap ≤ given.absoluteGap ∨ r.relativeGap ≤ given.relativeGap)) ∧
      (r.status = .feasible → r.incumbent.isSome = true) ∧
      (r.status = .error ↔ s.verdict E = .error) ∧
      (¬ Trace.Accepted (s.trace E) → r.status ≠ .optimal ∧ r.status ≠ .feasible) := by
  intro given
  have htolerant := s.tolerant_solve E hvalid
  have haccepted := s.hasIncumbent_solve_iff E hvalid
  -- Any points will do: the incumbent is feasible wherever it comes from.
  have hanything : Session.Supplied s.master.session.problem
      s.master.store.fixedInteger.solver fun _ => True :=
    ⟨fun _ _ _ => trivial, fun _ _ _ _ _ _ _ => trivial⟩
  rcases s.kept_sessions E hvalid hanything (fun _ _ _ _ _ _ => trivial) _
    (s.final_mem_sessions E hvalid) with ⟨_, hkept⟩
  refine ⟨_, s.solve_eq_report E hvalid, ?_⟩
  generalize (s.solve E).1.master.session = t at *
  have hoptimal : finalStatus t (s.verdict E) = .optimal ↔ s.verdict E ≠ .error ∧
      ∃ i, t.bounds.incumbent = some i ∧
        (∀ d ∈ i.candidate.deviation, d.value ≤ given.constraintTolerance) ∧
        Scalar.isFinite t.bounds.primalBound = true ∧ Scalar.isFinite t.bounds.dualBound = true ∧
        (t.bounds.absoluteGap ≤ given.absoluteGap ∨
          t.bounds.relativeGap ≤ given.relativeGap) := by
    rw [finalStatus_eq_optimal_iff, BoundLedger.gapMet_iff, htolerant.absolute,
      htolerant.relative]
    refine and_congr_right fun _ => ⟨fun hgap => ?_, fun ⟨_, _, _, hgap⟩ => hgap⟩
    -- A finite primal bound is not the one a ledger starts with.
    have hsome : t.bounds.incumbent ≠ none := by
      intro hnone
      have hfinite := hgap.1
      rw [hkept.truthful.worst_iff.2 hnone, Scalar.BoundOrder.isFinite_worst] at hfinite
      exact nomatch hfinite
    obtain ⟨i, hi⟩ := Option.ne_none_iff_exists'.1 hsome
    exact ⟨i, hi, hkept.truthful.feasible i hi, hgap⟩
  -- A feasible status is given only beside an incumbent.
  have hfeasible : finalStatus t (s.verdict E) = .feasible → t.bounds.incumbent.isSome = true :=
    fun hstatus => ((finalStatus_eq_feasible_iff t _).1 hstatus).2.2
  refine ⟨hoptimal, hfeasible, finalStatus_eq_error_iff t _, fun hnever => ⟨?_, ?_⟩⟩
  · intro hstatus
    rcases (hoptimal.1 hstatus).2 with ⟨i, hi, -⟩
    exact hnever (haccepted.1 (Option.isSome_iff_exists.2 ⟨i, hi⟩))
  · intro hstatus
    exact hnever (haccepted.1 (hfeasible hstatus))

/-- The capped solver with a time limit that is reached once the first point was dealt with. -/
def hurriedSolver : Solver Float (Tabular Float) where
  master :=
    { cappedSolver.master with session :=
        { cappedSolver.master.session with
          settings := { Settings.standard with
            primal := ⟨true, .always⟩
            termination := { Settings.standard.termination with timeLimit := some ⟨1⟩ } }
          clock := ⟨.zero, fun i => if i < 4 then .zero else ⟨1⟩⟩ } }
  initialHyperplanes := 0
  initialIntegerCuts := 0

/-- The capped problem is solved to optimality if there is time for both points. If there is time
    for one only, the report has a solution but claims none. -/
theorem positive_status_justified_capped :
    (∃ r, ((cappedSolver (α := Float)).solve twoFinds).2 = .ok r ∧ r.status = .optimal ∧
      (∃ i, r.incumbent = some i ∧ ∀ d ∈ i.candidate.deviation, d.value ≤ (1e-8 : Float)) ∧
      Scalar.isFinite r.primalBound = true ∧ Scalar.isFinite r.dualBound = true) ∧
    ∃ r, (hurriedSolver.solve twoFinds).2 = .ok r ∧ r.status = .timeLimit ∧
      r.incumbent.isSome = true ∧ hurriedSolver.verdict twoFinds ≠ .error := by
  constructor
  · have hvalid : (cappedSolver (α := Float)).master.session.settings.validate = .ok () :=
      (Settings.validate_eq_ok_iff _).2 (List.all_eq_true.1 (by decide +kernel))
    have hstatus : (((cappedSolver (α := Float)).solve twoFinds).2.toOption.map (·.status)) =
        some .optimal := by decide +kernel
    obtain ⟨r, hr, hoptimal, -⟩ := positive_status_justified twoFinds
      (cappedSolver (α := Float)) hvalid
    -- No iteration is counted up here, so nothing overflows.
    replace hr : ((cappedSolver (α := Float)).solve twoFinds).2 = .ok r :=
      hr.trans (answer_eq_ok_iff.2 ⟨by decide +kernel, rfl⟩)
    rw [hr] at hstatus
    have hclaimed : r.status = .optimal := Option.some.inj hstatus
    obtain ⟨-, i, hi, hdeviation, hprimal, hdual, -⟩ := hoptimal.1 hclaimed
    exact ⟨r, hr, hclaimed, ⟨i, hi, hdeviation⟩, hprimal, hdual⟩
  · have hvalid : hurriedSolver.master.session.settings.validate = .ok () :=
      (Settings.validate_eq_ok_iff _).2 (List.all_eq_true.1 (by decide +kernel))
    have hreport : (hurriedSolver.solve twoFinds).2.toOption.map
        (fun r => (r.status, r.incumbent.isSome)) = some (.timeLimit, true) := by decide +kernel
    obtain ⟨r, hr, -, -, herror, -⟩ := positive_status_justified twoFinds hurriedSolver hvalid
    replace hr : (hurriedSolver.solve twoFinds).2 = .ok r :=
      hr.trans (answer_eq_ok_iff.2 ⟨by decide +kernel, rfl⟩)
    rw [hr] at hreport
    obtain ⟨hstatus, hincumbent⟩ := Prod.mk.inj (Option.some.inj hreport)
    -- The last round was stopped, it did not fail.
    have hverdict : hurriedSolver.verdict twoFinds ≠ .error := fun hfailed => by
      rw [herror.2 hfailed] at hstatus
      exact nomatch hstatus
    exact ⟨r, hr, hstatus, hincumbent, hverdict⟩

/-- A report of infeasibility comes from a verdict of infeasibility that is past the gap and
    the limits, and it shows a solution exactly if some event left one behind. -/
theorem infeasible_with_solution_iff (E : Engine α σ) (s : Solver α σ)
    (hvalid : s.master.session.settings.validate = .ok ()) :
    ∃ r, (s.solve E).2 = answer (s.solve E).1.master.store r ∧
      (r.status = .infeasible ↔ s.verdict E = .infeasible ∧
        (s.solve E).1.master.session.terminationReached = false) ∧
      (r.incumbent.isSome = true ↔ Trace.Accepted (s.trace E)) :=
  ⟨_, s.solve_eq_report E hvalid, finalStatus_eq_infeasible_iff _ _,
    s.hasIncumbent_solve_iff E hvalid⟩

/-- One variable, to be large but at most one and a half. -/
def lowCap : Problem Float :=
  ((Problem.ofObjective (.affine ⟨[(0, -1.0)], 0.0⟩ .minimize)).addVariable
    "x" 0.0 2.0 .real).addConstraint ⟨"cap", Affine.toFunction ⟨[(0, 1.0)], 0.0⟩, 1.5, true⟩

/-- An engine that tries two, one and zero. -/
def threeTries : Engine Float (Tabular Float) :=
  Enumeration.engine ⟨[-1.0], .minimize, [[2.0], [1.0], [0.0]], [], false, none, none⟩ none

/-- A solver whose local solver uses up the tolerance. Its solution is as good as a cutoff and
    beyond the cut at two, so the engine has neither that solution nor another one. -/
def overCut : Solver Float (Tabular Float) where
  master :=
    { session :=
        { problem := lowCap
          settings := { Settings.withCuttingPlanes.withConstraintTolerance 0.001 with
            primal := ⟨true, .always⟩ }
          bounds := .fresh .minimize Settings.standard.termination
          iterations := .empty
          statistics := {}
          clock := .still ⟨0⟩
          journal := #[] }
      store := { CutStore.empty with
        fixedInteger := ⟨some fun _ _ _ => some [1.5009765625], 0, [], none, false⟩ }
      strategy := .cuttingPlane
      engine := .fresh [(0.0, 2.0)] [] {} }
  initialHyperplanes := 0
  initialIntegerCuts := 0

theorem infeasible_with_solution_iff_overCut :
    ∃ r, (overCut.solve threeTries).2 = .ok r ∧ r.status = .infeasible ∧
      r.incumbent.isSome = true := by
  have hvalid : overCut.master.session.settings.validate = .ok () :=
    (Settings.validate_eq_ok_iff _).2 (List.all_eq_true.1 (by decide +kernel))
  have haccepted : Trace.Accepted (overCut.trace threeTries) := by
    unfold Trace.Accepted
    decide +kernel
  obtain ⟨r, hr, hstatus, hincumbent⟩ := infeasible_with_solution_iff threeTries overCut hvalid
  exact ⟨r, hr.trans (answer_eq_ok_iff.2 ⟨by decide +kernel, rfl⟩),
    hstatus.2 (by decide +kernel), hincumbent.2 haccepted⟩

/-- A report of infeasibility may show a solution. -/
theorem infeasible_beside_solution :
    ¬ ∀ (E : Engine Float (Tabular Float)) (s : Solver Float (Tabular Float)) (r : Report Float),
      s.master.session.settings.validate = .ok () → (s.solve E).2 = .ok r →
      r.status = .infeasible → r.incumbent = none := by
  intro hnever
  have hvalid : overCut.master.session.settings.validate = .ok () :=
    (Settings.validate_eq_ok_iff _).2 (List.all_eq_true.1 (by decide +kernel))
  have hreport : ((overCut.solve threeTries).2.toOption.map fun r =>
      (r.status, r.incumbent.isSome)) = some (.infeasible, true) := by
    decide +kernel
  -- The report is there, and shows both.
  cases hsolve : (overCut.solve threeTries).2 with
  | error e =>
    rw [hsolve] at hreport
    exact nomatch hreport
  | ok r =>
    rw [hsolve] at hreport
    obtain ⟨hstatus, hsome⟩ := Prod.ext_iff.1 (Option.some.inj hreport)
    change r.incumbent.isSome = true at hsome
    rw [hnever threeTries overCut r hvalid hsolve hstatus] at hsome
    exact nomatch hsome

end Solver

end OuterApprox
