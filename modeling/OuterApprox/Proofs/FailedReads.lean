import OuterApprox.Proofs.StopRequest

/-!
# Events whose data cannot be used

An event asks for up to seven reads, and any of them may fail. A solution without its
objective or its values, or a node without its status or its relaxation, is of no use;
neither is a point of the wrong length, or a node that is not solved to optimality. By
then the bound of the search may have been read and offered, and a reason to stop may have
been found. Nothing else has happened: all reads that an event needs come before the first
write that is about what was read.

Three of the things that handling does leave nothing behind but remarks, a phase, a clock
that was looked at and a request to stop: entering a phase, failing, and looking whether to
stop. What an event of no use does is a sequence of these, with the offer of a bound in the
middle.

## Main definitions

* `Event.Unusable`: What makes the data of an event unusable, read by read.
* `Turn.Passes`: Steps that leave nothing behind but remarks, a phase and requests to stop.

## Theorems

* `Turn.passes_dispatch`: What an event of no use is about leaves nothing behind.
* `Turn.updateDualBound_eq`: Reading the bound offers it, or leaves nothing behind.
* `Callback.failed_reads_traceless`: An event of no use changes the dual bound at most.
-/

namespace OuterApprox

variable {α : Type}

/-- The data of an event cannot be used for a problem. -/
inductive Event.Unusable (p : Problem α) (e : Event α) : Prop
  /-- The objective of the solution cannot be read. -/
  | objective (err : EngineError) (hreason : e.reason = .integerSolution)
      (hread : e.objective = .error err)
  /-- The values of the solution cannot be read. -/
  | values (err : EngineError) (hreason : e.reason = .integerSolution)
      (hread : e.values = .error err)
  /-- The solution has the wrong length. -/
  | solutionLength (x : Point α) (hreason : e.reason = .integerSolution)
      (hread : e.values = .ok x) (hlength : x.length ≠ p.dimension)
  /-- The status of the node cannot be read. -/
  | status (err : EngineError) (hreason : e.reason = .relaxationNode)
      (hread : e.optimal = .error err)
  /-- The node is not solved to optimality. -/
  | notOptimal (hreason : e.reason = .relaxationNode) (hread : e.optimal = .ok false)
  /-- The relaxation of the node cannot be read. -/
  | relaxation (err : EngineError) (hreason : e.reason = .relaxationNode)
      (hread : e.relaxation = .error err)
  /-- The relaxation of the node has the wrong length. -/
  | relaxationLength (x : Point α) (hreason : e.reason = .relaxationNode)
      (hread : e.relaxation = .ok x) (hlength : x.length ≠ p.dimension)

/-- Such an event is not passive. -/
theorem Event.Unusable.isPassive {p : Problem α} {e : Event α} (h : e.Unusable p) :
    e.reason.isPassive = false := by
  cases h with
  | objective _ hreason _ | values _ hreason _ | solutionLength _ hreason _ _ => rw [hreason]; rfl
  | status _ hreason _ | notOptimal hreason _ | relaxation _ hreason _
  | relaxationLength _ hreason _ _ => rw [hreason]; rfl

namespace Turn

/-- Steps that leave nothing behind but remarks, a phase and requests to stop. -/
structure Passes (t t' : Turn α) : Prop where
  /-- The callback stays as it is otherwise, but for its clock. -/
  callback : ∃ clock journal phase aborted, t'.callback =
    { t.callback with session := { t.session with clock, journal }, phase, aborted }
  /-- Every call is a request to stop. -/
  calls : ∃ stops : List (Call α), t'.calls = t.calls ++ stops ∧ ∀ call ∈ stops, call.isAbort

theorem Passes.refl (t : Turn α) : t.Passes t :=
  ⟨⟨_, _, _, _, rfl⟩, [], (List.append_nil _).symm, nofun⟩

theorem Passes.trans {a b c : Turn α} (h1 : a.Passes b) (h2 : b.Passes c) : a.Passes c := by
  obtain ⟨⟨_, _, _, _, hb⟩, stops1, hcalls1, habort1⟩ := h1
  obtain ⟨⟨clock, journal, phase, aborted, hc⟩, stops2, hcalls2, habort2⟩ := h2
  refine ⟨⟨clock, journal, phase, aborted, ?_⟩, stops1 ++ stops2, ?_, ?_⟩
  · rw [hc, session, hb]
  · rw [hcalls2, hcalls1, List.append_assoc]
  · exact List.forall_mem_append.2 ⟨habort1, habort2⟩

/-- A step that makes no call. -/
theorem Passes.of_callback {t t' : Turn α} (clock : Clock) (journal : Array (Diagnostic α))
    (phase : Phase) (aborted : Bool)
    (h : t' =
      { t with
        callback :=
          { t.callback with session := { t.session with clock, journal }, phase, aborted } }) :
    t.Passes t' := by
  subst h
  exact ⟨⟨clock, journal, phase, aborted, rfl⟩, [], (List.append_nil _).symm, nofun⟩

theorem Passes.bounds {t t' : Turn α} (h : t.Passes t') :
    t'.session.bounds = t.session.bounds := by
  obtain ⟨⟨_, _, _, _, hcallback⟩, -⟩ := h
  rw [session, hcallback]

theorem Passes.iteration {t t' : Turn α} (h : t.Passes t') : t'.iteration = t.iteration := by
  obtain ⟨⟨_, _, _, _, hcallback⟩, -⟩ := h
  rw [Turn.iteration, session, hcallback]
  rfl

theorem Passes.problem {t t' : Turn α} (h : t.Passes t') : t'.problem = t.problem := by
  obtain ⟨⟨_, _, _, _, hcallback⟩, -⟩ := h
  rw [Turn.problem, session, hcallback]
  rfl

/-- An answer that is no point has no point of the right length. -/
theorem length_ne_of_error {n : Nat} {answer : Answer (Point α)} {err : EngineError}
    (h : answer = .error err) : ∀ x, answer = .ok x → x.length ≠ n := by
  intro x hx
  rw [h] at hx
  exact nomatch hx

theorem length_ne_of_ok {n : Nat} {answer : Answer (Point α)} {y : Point α} (h : answer = .ok y)
    (hlength : y.length ≠ n) : ∀ x, answer = .ok x → x.length ≠ n := by
  intro x hx
  rw [h] at hx
  cases hx
  exact hlength

theorem passes_note (t : Turn α) (remarks : List (Diagnostic α)) : t.Passes (t.note remarks) :=
  .of_callback t.session.clock _ t.callback.phase t.callback.aborted rfl

theorem passes_enter (t : Turn α) (phase : Phase) : t.Passes (t.enter phase) :=
  .of_callback t.session.clock _ phase t.callback.aborted rfl

variable [Scalar α]

theorem passes_checkTermination (t : Turn α) : t.Passes t.checkTermination := by
  simp only [checkTermination]
  split
  · exact ⟨⟨_, _, _, _, rfl⟩, [], (List.append_nil _).symm, List.forall_mem_nil _⟩
  · exact ⟨⟨_, _, _, true, rfl⟩, [.abort], rfl, List.forall_mem_singleton.2 rfl⟩

theorem passes_relaxationNode (t : Turn α) (e : Event α)
    (h : e.optimal ≠ .ok true ∨ ∀ x, e.relaxation = .ok x → x.length ≠ t.problem.dimension) :
    t.Passes (t.relaxationNode e) := by
  simp only [relaxationNode]
  split
  · exact passes_note t _
  · exact .refl t
  -- The node is optimal, so it is the point that cannot be used.
  next hoptimal =>
    have hvalues := h.resolve_left (not_not_intro hoptimal)
    split
    · exact .refl t
    · split
      · exact passes_note t _
      next x hx =>
        rw [if_neg (hvalues x hx)]
        exact passes_note t _

theorem passes_integerSolution (t : Turn α) (e : Event α)
    (h : (∃ err, e.objective = .error err) ∨
      ∀ x, e.values = .ok x → x.length ≠ t.problem.dimension) :
    t.Passes (t.integerSolution e) := by
  simp only [integerSolution]
  split
  · exact passes_note t _
  -- The objective value was read, so it is the point that cannot be used.
  next objective hobjective =>
    have hread : ¬ ∃ err, e.objective = .error err := by
      rintro ⟨err, herror⟩
      simp only [hobjective, reduceCtorEq] at herror
    have hvalues := h.resolve_left hread
    split
    · exact passes_note t _
    next x hx =>
      rw [if_neg (hvalues x hx)]
      exact passes_note t _

/-- What an event of no use is about leaves nothing behind. -/
theorem passes_dispatch (t : Turn α) (e : Event α) (h : e.Unusable t.problem) :
    t.Passes (t.dispatch e) := by
  -- Each way to be unusable belongs to one kind of event.
  cases h with
  | objective err hreason hread =>
      simp only [dispatch, hreason]
      exact passes_integerSolution t e (.inl ⟨err, hread⟩)
  | values err hreason hread =>
      simp only [dispatch, hreason]
      exact passes_integerSolution t e (.inr (length_ne_of_error hread))
  | solutionLength x hreason hread hlength =>
      simp only [dispatch, hreason]
      exact passes_integerSolution t e (.inr (length_ne_of_ok hread hlength))
  | status err hreason hread =>
      simp only [dispatch, hreason]
      refine passes_relaxationNode t e (.inl ?_)
      simp only [hread, ne_eq, reduceCtorEq, not_false_eq_true]
  | notOptimal hreason hread =>
      simp only [dispatch, hreason]
      refine passes_relaxationNode t e (.inl ?_)
      rw [hread]
      exact fun h => Bool.false_ne_true (Except.ok.inj h)
  | relaxation err hreason hread =>
      simp only [dispatch, hreason]
      exact passes_relaxationNode t e (.inr (length_ne_of_error hread))
  | relaxationLength x hreason hread hlength =>
      simp only [dispatch, hreason]
      exact passes_relaxationNode t e (.inr (length_ne_of_ok hread hlength))

/-- Reading the bound of the search leaves nothing behind, or it was read, improves the dual
    bound and is offered. -/
theorem updateDualBound_eq (t : Turn α) (e : Event α) :
    t.Passes (t.updateDualBound e) ∨
      ∃ b, e.bound = .ok b ∧ t.session.bounds.improvesDual b = true ∧
        t.updateDualBound e =
          (t.enter .updatingBounds).mapSession (·.offerDual (.ofSearch b t.iteration)) := by
  have henter := passes_enter t .updatingBounds
  simp only [updateDualBound]
  split
  · exact .inl (henter.trans (passes_note _ _))
  next b hb =>
    split
    next himproves => exact .inr ⟨b, hb, himproves, rfl⟩
    · exact .inl henter

/-- Handling an event of no use leaves nothing behind, or the offer of the bound of the
    search. -/
theorem active_unusable (t : Turn α) (e : Event α) (h : e.Unusable t.problem) :
    t.Passes (t.active e) ∨
      ∃ b u, e.bound = .ok b ∧ t.session.bounds.improvesDual b = true ∧ t.Passes u ∧
        (u.mapSession (·.offerDual (.ofSearch b t.iteration))).Passes (t.active e) := by
  have hopen := (passes_enter t .evaluatingNode).trans (passes_checkTermination _)
  -- What follows the reading of the bound leaves nothing behind.
  have hrest : ∀ v : Turn α, v.problem = t.problem →
      v.Passes ((if (v.dispatch e).callback.aborted then v.dispatch e
        else (v.dispatch e).checkTermination).enter .idle) := by
    intro v hproblem
    refine (passes_dispatch v e (hproblem ▸ h)).trans ?_
    split
    · exact passes_enter _ _
    · exact (passes_checkTermination _).trans (passes_enter _ _)
  simp only [active]
  split
  · exact .inl (hopen.trans (passes_enter _ _))
  · generalize (t.enter .evaluatingNode).checkTermination = u at hopen ⊢
    -- The bound of the engine is the one thing that may be of use.
    obtain hpasses | ⟨b, hb, himproves, heq⟩ := updateDualBound_eq u e
    · have hread := hopen.trans hpasses
      exact .inl (hread.trans (hrest _ hread.problem))
    · rw [heq, hopen.iteration]
      rw [hopen.bounds] at himproves
      exact .inr ⟨b, _, hb, himproves, hopen.trans (passes_enter _ _), hrest _ hopen.problem⟩

end Turn

namespace BoundLedger

variable [Scalar α]

/-- The offer of a dual bound changes the dual bound and its history at most. -/
theorem offerDual_eq (l : BoundLedger α) (d : DualBound α) :
    ∃ dualBound dualHistory, l.offerDual d = { l with dualBound, dualHistory } := by
  unfold offerDual
  split <;> exact ⟨_, _, rfl⟩

end BoundLedger

namespace Callback

variable [Scalar α]

/-- What handling an event of no use amounts to. -/
theorem handle_unusable (c : Callback α) (e : Event α) (h : e.Unusable c.session.problem) :
    let t := c.handle e
    (∀ call ∈ t.calls, call.isAbort = true) ∧
    (∃ bounds clock journal aborted, t.callback =
      { c with
        session :=
          { c.session with
            bounds
            statistics := { c.session.statistics with events := c.session.statistics.events + 1 }
            clock
            journal }
        phase := if c.aborted then c.phase else .idle
        aborted }) ∧
    (t.session.bounds = c.session.bounds ∨
      ∃ b, e.bound = .ok b ∧ c.session.bounds.improvesDual b = true ∧
        t.session.bounds =
          c.session.bounds.offerDual (.ofSearch b c.session.iterations.lastNumber)) := by
  intro t
  cases haborted : c.aborted with
  | true =>
      -- The stop is requested once more, and the event is counted.
      have ht : t = ⟨c.counted, [.abort]⟩ := by
        rw [show t = c.handle e from rfl, handle_of_aborted haborted, h.isPassive]
        rfl
      rw [ht]
      exact ⟨List.forall_mem_singleton.2 rfl,
        ⟨c.session.bounds, c.session.clock, c.session.journal, c.aborted, rfl⟩, .inl rfl⟩
  | false =>
      have ht : t = Turn.active ⟨c.counted, []⟩ e := by
        rw [show t = c.handle e from rfl, handle, h.isPassive, haborted]
        rfl
      have hidle : t.callback.phase = .idle := ht ▸ Turn.phase_active _ e
      obtain hpasses | ⟨b, u, hb, himproves, hbefore, hafter⟩ :=
        Turn.active_unusable ⟨c.counted, []⟩ e h
      · rw [← ht] at hpasses
        obtain ⟨⟨clock, journal, phase, aborted, hcallback⟩, stops, hcalls, hstops⟩ := hpasses
        obtain rfl : phase = .idle := by rw [hcallback] at hidle; exact hidle
        refine ⟨hcalls ▸ hstops, ⟨_, clock, journal, aborted, hcallback⟩, .inl ?_⟩
        rw [Turn.session, hcallback]
        rfl
      · -- The callback is that of before the offer, but for what may be left behind after it.
        rw [← ht] at hafter
        obtain ⟨⟨_, _, _, _, hcallback0⟩, stops0, hcalls0, hstops0⟩ := hbefore
        obtain ⟨⟨clock, journal, phase, aborted, hcallback⟩, stops, hcalls, hstops⟩ := hafter
        obtain rfl : phase = .idle := by rw [hcallback] at hidle; exact hidle
        have hend : t.callback = { c with
            session :=
              { c.session with
                bounds := c.session.bounds.offerDual (.ofSearch b c.session.iterations.lastNumber)
                statistics := c.counted.session.statistics
                clock
                journal }
            phase := .idle
            aborted } := by
          rw [hcallback, Turn.session, Turn.mapSession, hcallback0]
          rfl
        refine ⟨?_, ⟨_, clock, journal, aborted, hend⟩, .inr ⟨b, hb, himproves, ?_⟩⟩
        · rw [hcalls]
          exact List.forall_mem_append.2 ⟨hcalls0 ▸ hstops0, hstops⟩
        · rw [Turn.session, hend]

/-- An event whose data cannot be used, at any callback, makes no call but requests to stop,
    and changes nothing but the count of events, the dual bound with its history, the clock that
    was looked at, the journal and the flag that a stop was requested; the callback is idle
    afterwards, unless it had requested a stop before, when it stays as it is. The dual bound
    with its history changes by the offer of the bound of the search or not at all, and so it
    does not change if that cannot be read. -/
theorem failed_reads_traceless (c : Callback α) (e : Event α)
    (h : e.Unusable c.session.problem) :
    let t := c.handle e
    (∀ call ∈ t.calls, call.isAbort = true) ∧
    (∃ dualBound dualHistory clock journal aborted, t.callback =
      { c with
        session :=
          { c.session with
            bounds := { c.session.bounds with dualBound, dualHistory }
            statistics := { c.session.statistics with events := c.session.statistics.events + 1 }
            clock
            journal }
        phase := if c.aborted then c.phase else .idle
        aborted }) ∧
    (t.session.bounds = c.session.bounds ∨
      ∃ b, e.bound = .ok b ∧ c.session.bounds.improvesDual b = true ∧
        t.session.bounds =
          c.session.bounds.offerDual (.ofSearch b c.session.iterations.lastNumber)) ∧
    (∀ err, e.bound = .error err → t.session.bounds = c.session.bounds) := by
  intro t
  obtain ⟨hcalls, ⟨bounds, clock, journal, aborted, hcallback⟩, hbounds⟩ := handle_unusable c e h
  have hsame : t.session.bounds = bounds := by rw [Turn.session, hcallback]
  refine ⟨hcalls, ?_, hbounds, fun err herr => hbounds.resolve_right ?_⟩
  · -- Kept or offered, the bounds differ in nothing but the dual bound and its history.
    have hdual : ∃ dualBound dualHistory,
        bounds = { c.session.bounds with dualBound, dualHistory } := by
      rw [← hsame]
      obtain hkept | ⟨b, -, -, hoffered⟩ := hbounds
      · exact ⟨_, _, hkept⟩
      · rw [hoffered]
        exact c.session.bounds.offerDual_eq _
    obtain ⟨dualBound, dualHistory, rfl⟩ := hdual
    exact ⟨dualBound, dualHistory, clock, journal, aborted, hcallback⟩
  -- Without a bound to read there is no offer.
  · rintro ⟨b, hb, -⟩
    rw [herr] at hb
    exact nomatch hb

/-- A solution without values, for which the bound of the search and the objective can be
    read. -/
def withoutValues : Event α :=
  { Event.blank .integerSolution with bound := .ok 0.5, objective := .ok 1.0 }

/-- The solution without values moves the dual bound and leaves the rest as it was. A node
    of which nothing can be read leaves the dual bound as well. -/
theorem failed_reads_traceless_withoutValues :
    let c : Callback Float := start oneVariable .empty .cuttingPlane
    let t := c.handle withoutValues
    ((c.session.bounds.dualBound == -Scalar.infinity) = true ∧
      (t.session.bounds.dualBound == 0.5) = true) ∧
    (∀ call ∈ t.calls, call.isAbort = true) ∧ t.store = c.store ∧
    t.session.iterations = c.session.iterations ∧
    t.session.bounds.primalHistory = c.session.bounds.primalHistory ∧
    t.session.statistics = { c.session.statistics with events := 1 } ∧
    (c.handle (.blank .relaxationNode)).session.bounds = c.session.bounds := by
  intro c t
  -- Once with a bound that is read, and once without.
  obtain ⟨hcalls, ⟨dualBound, dualHistory, clock, journal, aborted, hcallback⟩, -, -⟩ :=
    failed_reads_traceless c withoutValues (.values (.notAvailable "values") rfl rfl)
  obtain ⟨-, -, -, hbounds⟩ := failed_reads_traceless c (.blank .relaxationNode)
    (.status (.notAvailable "optimal") rfl rfl)
  refine ⟨by decide +kernel, hcalls, ?_, ?_, ?_, ?_, hbounds _ rfl⟩
  · rw [Turn.store, hcallback]
  · rw [Turn.session, hcallback]
  · rw [Turn.session, hcallback]
  · rw [Turn.session, hcallback]
    rfl

end Callback

end OuterApprox
