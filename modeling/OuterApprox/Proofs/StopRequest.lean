import OuterApprox.Proofs.Lasting
import OuterApprox.Proofs.RowCalls
import OuterApprox.Scalar.Double

/-!
# Requests to stop

When the callback asks an engine to stop. There is a reason to stop exactly if
`Session.terminationReached`, and the callback looks for one at up to four
places of an event: before it does anything, after a solution was offered, after
an iteration was closed, and at the end. Between those places bounds and
iterations change, and the functions in which they stand return early. What is
to be shown is that none of this shows on the outside: an event that is not
passive ends with one request if there is a reason to stop by then, and with
none if there is not.

A turn is `Running` before its request and `Settled` once the last thing done
was a check. A check leads from the first to the second. Everything else leaves
the flag and the requests alone (`Unasked`), most of it because it hands over
nothing but rows, so a running turn stays running, and a settled one that did not
stop is running again. That a turn cannot be settled and then go on past its request
is what the branches on the flag are for.

A check looks at the clock, and time goes on. What the last check of an event has seen
is the session as it is, but with the clock as it was before the last look. A request is
never taken back by that, since time that is up stays up. But time may run out after the
last look, so that there is a reason to stop which only the next event will notice; if
every look at the clock finds the same about the limit, there is no such moment.

Once the request was made nothing of an event is looked at but its reason.

## Main definitions

* `Turn.stops`: The number of requests in a turn.
* `Turn.Unasked`: Steps that make no request.
* `Turn.Running`, `Turn.Settled`: A turn before a request, and after a check.
* `Session.Checked`: The last check has found a reason to stop, or none.
* `Callback.after`: The callback after a list of events.
* `Callback.AtRest`: The callback between two events.

## Theorems

* `Session.stopReason?_eq_none_iff`: There is no reason to stop exactly if
  termination is not reached.
* `Turn.Running.checkTermination`: A check settles a running turn.
* `Turn.Running.settled_cutOff`, `Turn.Running.settled_considerSolution`: An
  integer solution that could be read ends with a check.
* `Turn.Running.settled_active`: So does every event.
* `Callback.AtRest.handle`, `Callback.AtRest.after`: The callback is at rest
  after every event.
* `Callback.handle_of_aborted`: After a request, an event is counted and the
  request repeated.
* `Callback.stop_protocol`: The protocol of requests, over all lists of events.
-/

namespace OuterApprox

variable {α : Type}

namespace Session

variable [Scalar α]

theorem isSome_stopReason? (s : Session α) : s.stopReason?.isSome = s.terminationReached := by
  unfold stopReason? terminationReached BoundLedger.gapMet
  cases s.bounds.absoluteGapMet <;> cases s.bounds.relativeGapMet <;>
    cases s.iterationLimitReached <;> cases s.timeLimitReached <;> rfl

/-- There is no reason to stop exactly if termination is not reached. -/
theorem stopReason?_eq_none_iff (s : Session α) :
    s.stopReason? = none ↔ s.terminationReached = false := by
  rw [← isSome_stopReason?, Option.isSome_eq_false_iff, Option.isNone_iff_eq_none]

theorem terminationReached_eq_true_iff (s : Session α) :
    s.terminationReached = true ↔
      s.bounds.gapMet = true ∨ s.iterationLimitReached = true ∨ s.timeLimitReached = true := by
  simp only [terminationReached, Bool.or_eq_true, or_assoc]

/-- The last look at the clock was part of a check, with this result: there was a reason to stop
    by then, or there was none. Nothing that could be a reason has changed since, but the time. The
    look came after the clock had stood at `origin`. -/
def Checked (s : Session α) (origin : Clock) (result : Bool) : Prop :=
  ∃ seen : Clock, origin.Later seen ∧ s.clock = seen.tick ∧
    result = { s with clock := seen }.terminationReached

/-- A reason to stop does not go away as time goes on. -/
theorem Checked.reached {s : Session α} {origin : Clock} (h : s.Checked origin true) :
    s.terminationReached = true := by
  obtain ⟨seen, -, hclock, hresult⟩ := h
  rw [terminationReached_eq_true_iff]
  rcases (terminationReached_eq_true_iff _).1 hresult.symm with hgap | hiterations | htime
  · exact .inl hgap
  · exact .inr (.inl hiterations)
  · refine .inr (.inr ?_)
    rw [timeLimitReached, hclock]
    exact (Clock.later_tick seen).reached htime

/-- The check would have the same result now, if it is all the same to the limit when one looks at
    the clock. -/
theorem Checked.eq_of_steady {s : Session α} {origin : Clock} {result : Bool}
    (h : s.Checked origin result) (hsteady : origin.Steady s.settings.termination.timeLimit) :
    result = s.terminationReached := by
  obtain ⟨seen, hlater, hclock, rfl⟩ := h
  have htime : s.timeLimitReached = seen.reached s.settings.termination.timeLimit := by
    rw [timeLimitReached, hclock]
    exact (hsteady.of_later hlater).1 1
  simp only [terminationReached, htime]
  rfl

end Session

namespace Turn

/-- The requests to stop that were made in a turn. -/
def stops (t : Turn α) : Nat := t.calls.countP Call.isAbort

/-- A step that neither makes a request to stop nor forgets one. -/
structure Unasked (t t' : Turn α) : Prop where
  /-- That the engine was asked is remembered. -/
  aborted : t'.callback.aborted = t.callback.aborted
  /-- It is not asked now. -/
  stops : t'.stops = t.stops
  /-- Nobody looks at the clock. -/
  clock : t'.session.clock = t.session.clock

theorem Unasked.refl (t : Turn α) : Unasked t t := ⟨rfl, rfl, rfl⟩

theorem unasked_call (t : Turn α) (c : Call α) (h : c.isAbort = false) : Unasked t (t.call c) := by
  refine ⟨rfl, ?_, rfl⟩
  simp only [stops, call, List.countP_append, List.countP_singleton, h]
  exact Nat.add_zero _

/-- A row is no request. -/
theorem Rowed.unasked {t t' : Turn α} (h : Rowed t t') : Unasked t t' := by
  rcases h.calls with ⟨rows, hcalls, hrows⟩
  have hnone : rows.countP Call.isAbort = 0 := by
    rw [List.countP_eq_zero]
    intro call hcall
    have hrow := hrows call hcall
    cases call <;> first | exact Bool.false_ne_true | exact nomatch hrow
  refine ⟨h.aborted, ?_, h.clock⟩
  rw [stops, hcalls, List.countP_append, hnone, Nat.add_zero, stops]

/-- No request was made yet, neither in this turn nor before. -/
structure Running (origin : Clock) (t : Turn α) : Prop where
  /-- The engine was not asked before. -/
  aborted : t.callback.aborted = false
  /-- It was not asked in this turn. -/
  stops : t.stops = 0
  /-- The clock has gone on from where it stood. -/
  clock : origin.Later t.session.clock

variable {origin : Clock}

theorem Running.of_unasked {t t' : Turn α} (h : t.Running origin) (hstep : Unasked t t') :
    t'.Running origin :=
  ⟨hstep.aborted.trans h.aborted, hstep.stops.trans h.stops, hstep.clock ▸ h.clock⟩

theorem unasked_submitIncumbent (t : Turn α) (e : Event α) (primal : α) :
    Unasked t (t.submitIncumbent e primal) := by
  simp only [submitIncumbent]
  split
  · exact .refl t
  · split
    · exact unasked_call t _ rfl
    · exact ⟨rfl, (unasked_call t _ rfl).stops, rfl⟩

variable [Scalar α]

theorem unasked_injectIncumbent (t : Turn α) (e : Event α) : Unasked t (t.injectIncumbent e) := by
  simp only [injectIncumbent, submitCutoff]
  split
  · exact .refl t
  · have hsolution := unasked_submitIncumbent t e t.session.bounds.primalBound
    split
    · exact ⟨hsolution.aborted, (unasked_call _ _ rfl).stops.trans hsolution.stops,
        hsolution.clock⟩
    · exact ⟨hsolution.aborted, (unasked_call _ _ rfl).stops.trans hsolution.stops,
        hsolution.clock⟩

/-! ## Settled turns -/

/-- The turn made one request if its last check found a reason to stop, and none otherwise. -/
structure Settled (origin : Clock) (t : Turn α) : Prop where
  /-- What the check found is remembered. -/
  checked : t.session.Checked origin t.callback.aborted
  /-- The request was made once. -/
  stops : t.stops = t.callback.aborted.toNat

/-- A settled turn that goes on made no request. -/
theorem Settled.running {t : Turn α} (h : t.Settled origin) (hgoes : t.callback.aborted = false) :
    t.Running origin := by
  obtain ⟨seen, hlater, hclock, -⟩ := h.checked
  refine ⟨hgoes, ?_, ?_⟩
  · rw [h.stops, hgoes]
    rfl
  · rw [hclock]
    exact hlater.trans (Clock.later_tick seen)

/-- It stays settled as long as nothing happens that could be a reason to stop, whatever the
    time. -/
theorem Settled.of_unasked {t t' : Turn α} (h : t.Settled origin) (hstep : Unasked t t')
    (hreason : ∀ seen : Clock, { t'.session with clock := seen }.terminationReached =
      { t.session with clock := seen }.terminationReached) : t'.Settled origin where
  checked := by
    obtain ⟨seen, hlater, hclock, hresult⟩ := h.checked
    refine ⟨seen, hlater, hstep.clock.trans hclock, ?_⟩
    rw [hstep.aborted, hreason]
    exact hresult
  stops := by rw [hstep.stops, h.stops, hstep.aborted]

theorem Running.checkTermination {t : Turn α} (h : t.Running origin) :
    t.checkTermination.Settled origin := by
  have hreason : t.session.stopReason?.isSome = t.session.terminationReached :=
    t.session.isSome_stopReason?
  obtain ⟨_, hcheck⟩ := t.exists_checkTermination_eq
  rw [hcheck, h.aborted, hreason, Bool.false_or]
  -- What the check sees is the session with the clock as it was before.
  refine ⟨⟨t.session.clock, h.clock, rfl, rfl⟩, ?_⟩
  have hstops := h.stops
  simp only [Turn.stops] at hstops ⊢
  rw [List.countP_append, hstops, Nat.zero_add]
  cases t.session.terminationReached <;> rfl

theorem terminationReached_injectIncumbent (t : Turn α) (e : Event α) (seen : Clock) :
    { (t.injectIncumbent e).session with clock := seen }.terminationReached =
      { t.session with clock := seen }.terminationReached := by
  -- Handing over the incumbent changes nothing that is a reason to stop.
  have hsolution : ∀ primal,
      { (t.submitIncumbent e primal).session with clock := seen }.terminationReached =
        { t.session with clock := seen }.terminationReached := by
    intro primal
    simp only [submitIncumbent]
    split
    · rfl
    · split <;> rfl
  simp only [injectIncumbent, submitCutoff]
  split
  · rfl
  · split
    · exact hsolution _
    · exact hsolution _

/-- Cutting off a solution closes an iteration and then checks. Handing over the
    incumbent afterwards is no reason to stop. -/
theorem Running.settled_cutOff {t : Turn α} (h : t.Running origin) (e : Event α) (objective : α)
    (c : Candidate α) : (t.cutOff e objective c).Settled origin := by
  -- Up to the check only rows are handed over.
  rcases exists_cutOff_checked t e objective c with ⟨u, hrowed, hcutOff⟩
  have hchecked := (h.of_unasked hrowed.unasked).checkTermination
  rw [hcutOff]
  split
  · exact hchecked
  · exact hchecked.of_unasked (unasked_injectIncumbent _ e)
      (terminationReached_injectIncumbent _ e)

theorem Running.settled_considerSolution {t : Turn α} (h : t.Running origin) (e : Event α)
    (objective : α) (x : Point α) : (t.considerSolution e objective x).Settled origin := by
  have hoffered := h.of_unasked ((rowed_ensureIteration t).trans
    (rowed_offerSolution t.ensureIteration objective
      (t.ensureIteration.problem.candidate x t.ensureIteration.iteration))).unasked
  have hchecked := hoffered.checkTermination
  simp only [considerSolution]
  split
  · exact hchecked
  next hgoes =>
    split
    · exact hchecked.of_unasked ⟨rfl, rfl, rfl⟩ fun _ => rfl
    · exact (hchecked.running (Bool.eq_false_iff.2 hgoes)).settled_cutOff e objective _

/-- Only an integer solution that could be read is checked for. -/
theorem Running.dispatch {t : Turn α} (h : t.Running origin) (e : Event α) :
    (t.dispatch e).Running origin ∨ (t.dispatch e).Settled origin := by
  simp only [Turn.dispatch]
  split
  · exact .inl (h.of_unasked (rowed_recordProgress t e).unasked)
  · exact .inl (h.of_unasked (rowed_relaxationNode t e).unasked)
  · simp only [integerSolution]
    split
    · exact .inl (h.of_unasked ⟨rfl, rfl, rfl⟩)
    · split
      · exact .inl (h.of_unasked ⟨rfl, rfl, rfl⟩)
      · split
        · exact .inr (h.settled_considerSolution e _ _)
        · exact .inl (h.of_unasked ⟨rfl, rfl, rfl⟩)
  · exact .inl h

theorem Running.settled_active {t : Turn α} (h : t.Running origin) (e : Event α) :
    (t.active e).Settled origin := by
  have hopened : ((t.enter .evaluatingNode).checkTermination).Settled origin :=
    Running.checkTermination (h.of_unasked ⟨rfl, rfl, rfl⟩)
  simp only [active]
  split
  · exact hopened.of_unasked ⟨rfl, rfl, rfl⟩ fun _ => rfl
  next hgoes =>
    have hrunning := (hopened.running (Bool.eq_false_iff.2 hgoes)).of_unasked
      (rowed_updateDualBound _ e).unasked
    -- The last check is made by whichever turn got past the event without one.
    have hlast : ∀ u : Turn α, u.Running origin ∨ u.Settled origin →
        (if u.callback.aborted then u else u.checkTermination).Settled origin := by
      rintro u (hu | hu)
      · rw [if_neg (Bool.eq_false_iff.1 hu.aborted)]
        exact hu.checkTermination
      · split
        · exact hu
        next hon => exact (hu.running (Bool.eq_false_iff.2 hon)).checkTermination
    exact (hlast _ (hrunning.dispatch e)).of_unasked ⟨rfl, rfl, rfl⟩ fun _ => rfl

theorem phase_active (t : Turn α) (e : Event α) : (t.active e).callback.phase = .idle := by
  simp only [active]
  split <;> rfl

end Turn

namespace Callback

variable [Scalar α]

/-- The callback after a list of events. -/
def after (c : Callback α) (events : List (Event α)) : Callback α :=
  events.foldl (fun c e => (c.handle e).callback) c

/-- Between two events the callback is idle, and it asked the engine to stop for a
    reason that is still there. -/
structure AtRest (origin : Clock) (c : Callback α) : Prop where
  /-- No event is being handled. -/
  idle : c.phase = .idle
  /-- The clock has gone on from where it stood. -/
  clock : origin.Later c.session.clock
  /-- The last check before a request has found a reason for it. -/
  justified : c.aborted = true → c.session.Checked origin true

variable {origin : Clock}

theorem AtRest.reached {c : Callback α} (h : c.AtRest origin) (haborted : c.aborted = true) :
    c.session.terminationReached = true :=
  (h.justified haborted).reached

/-- After a request the event is counted and the request repeated, unless the event
    is passive. -/
theorem handle_of_aborted {c : Callback α} (h : c.aborted = true) (e : Event α) :
    c.handle e = if e.reason.isPassive then ⟨c, []⟩ else ⟨c.counted, [.abort]⟩ := by
  rw [handle, h]
  rfl

/-- Before a request, an event that is not passive ends with a check. -/
theorem settled_handle {c : Callback α} (hactive : c.aborted = false)
    (hclock : origin.Later c.session.clock) {e : Event α} (hevent : e.reason.isPassive = false) :
    (c.handle e).Settled origin := by
  rw [handle, hevent, hactive]
  exact Turn.Running.settled_active ⟨hactive, rfl, hclock⟩ e

theorem AtRest.handle {c : Callback α} (h : c.AtRest origin) (e : Event α) :
    (c.handle e).callback.AtRest origin := by
  have hclock := h.clock.trans (c.lasts_handle e).clock
  -- An event of no interest does nothing, and after a request to stop nothing more is done.
  by_cases hpassive : e.reason.isPassive = true
  · rw [Callback.handle, if_pos hpassive]
    exact h
  · by_cases haborted : c.aborted = true
    · rw [handle_of_aborted haborted, if_neg hpassive]
      exact ⟨h.idle, h.clock, fun _ => h.justified haborted⟩
    · have hsettled := settled_handle (Bool.eq_false_iff.2 haborted) h.clock
        (Bool.eq_false_iff.2 hpassive)
      refine ⟨?_, hclock, fun hstop => ?_⟩
      · rw [Callback.handle, if_neg hpassive, if_neg haborted]
        exact Turn.phase_active _ e
      · have hchecked := hsettled.checked
        rw [hstop] at hchecked
        exact hchecked

theorem AtRest.after {c : Callback α} (h : c.AtRest origin) (events : List (Event α)) :
    (c.after events).AtRest origin := by
  induction events generalizing c with
  | nil => exact h
  | cons e rest ih => exact ih (h.handle e)

theorem settings_after (c : Callback α) (events : List (Event α)) :
    (c.after events).session.settings = c.session.settings := by
  induction events generalizing c with
  | nil => rfl
  | cons e rest ih => exact (ih _).trans (c.lasts_handle e).settings

theorem atRest_start (session : Session α) (store : CutStore α) (strategy : CutStrategy) :
    (start session store strategy).AtRest session.clock :=
  ⟨rfl, .refl _, fun h => absurd h Bool.false_ne_true⟩

/-- The callback is at rest between events, so that the last check of an event is known even if
    it was made in an earlier one. -/
theorem AtRest.checked_handle {c : Callback α} (h : c.AtRest origin) {e : Event α}
    (hevent : e.reason.isPassive = false) :
    (c.handle e).session.Checked origin (c.handle e).callback.aborted ∧
      (c.handle e).calls.countP Call.isAbort = (c.handle e).callback.aborted.toNat := by
  cases haborted : c.aborted with
  | false =>
    have hsettled := settled_handle haborted h.clock hevent
    exact ⟨hsettled.checked, hsettled.stops⟩
  | true =>
    -- The reason of the earlier request is still there.
    have hchecked := h.justified haborted
    rw [handle_of_aborted haborted, hevent, if_neg Bool.false_ne_true]
    simp only [counted, haborted]
    exact ⟨hchecked, rfl⟩

/-- The protocol of requests to stop. After every event the callback is idle. An
    event that is not passive leaves the engine asked to stop exactly if its last look at the
    clock has found a reason to, by one request in that event. The reason is still there after
    the event, and if it is all the same to the limit when one looks at the clock, there is none
    after an event without a request. From a request on an event changes nothing
    but the count of events, and is not looked at but for its reason: no other
    answer of the engine makes a difference. -/
theorem stop_protocol (session : Session α) (store : CutStore α) (strategy : CutStrategy)
    (events : List (Event α)) (e : Event α) :
    let c := (start session store strategy).after events
    let t := c.handle e
    t.callback.phase = .idle ∧
    (e.reason.isPassive = false →
      t.session.Checked session.clock t.callback.aborted ∧
      (t.callback.aborted = true → t.session.terminationReached = true) ∧
      (session.clock.Steady session.settings.termination.timeLimit →
        (t.callback.aborted = true ↔ t.session.terminationReached = true)) ∧
      t.calls.countP Call.isAbort = if t.callback.aborted then 1 else 0) ∧
    (c.aborted = true →
      t.callback.aborted = true ∧
      t.store = c.store ∧
      t.session.bounds = c.session.bounds ∧
      t.session.iterations = c.session.iterations ∧
      t.session.statistics =
        { c.session.statistics with events := t.session.statistics.events } ∧
      t.calls = (if e.reason.isPassive then [] else [.abort]) ∧
      ∀ e' : Event α, e'.reason = e.reason → c.handle e' = t) := by
  intro c t
  have hrest : c.AtRest session.clock := (atRest_start session store strategy).after events
  refine ⟨(hrest.handle e).idle, fun hevent => ?_, fun haborted => ?_⟩
  · obtain ⟨hchecked, hstops⟩ := hrest.checked_handle hevent
    have hsettings : t.session.settings = session.settings :=
      (c.lasts_handle e).settings.trans (settings_after (start session store strategy) events)
    refine ⟨hchecked, (hrest.handle e).reached, fun hsteady => ?_, hstops.trans ?_⟩
    · rw [hchecked.eq_of_steady (hsettings ▸ hsteady)]
    · cases t.callback.aborted <;> rfl
  -- Once aborted, the callback answers every event of a kind alike.
  · have ht : t = if e.reason.isPassive then ⟨c, []⟩ else ⟨c.counted, [.abort]⟩ :=
      handle_of_aborted haborted e
    have hsame : ∀ e' : Event α, e'.reason = e.reason → c.handle e' = t := by
      intro e' he'
      rw [handle_of_aborted haborted e', he', ht]
    cases hpassive : e.reason.isPassive with
    | true =>
        rw [hpassive, if_pos rfl] at ht
        rw [ht] at hsame ⊢
        exact ⟨haborted, rfl, rfl, rfl, rfl, rfl, hsame⟩
    | false =>
        rw [hpassive, if_neg Bool.false_ne_true] at ht
        rw [ht] at hsame ⊢
        exact ⟨haborted, rfl, rfl, rfl, rfl, rfl, hsame⟩

/-- A session with one variable, which is to be small. -/
def oneVariable : Session α where
  problem := (Problem.ofObjective (.affine ⟨[(0, 1.0)], 0.0⟩ .minimize)).addVariable
    "x" 0.0 4.0 .real
  settings := .standard
  bounds := .fresh .minimize Settings.standard.termination
  iterations := .empty
  statistics := {}
  clock := .still ⟨0⟩
  journal := #[]

/-- A solution at the bound of the search. -/
def atBound : Event α :=
  { Event.blank .integerSolution with
    bound := .ok 1.0, objective := .ok 1.0, values := .ok [1.0] }

/-- The callback once a solution at the bound was reported, after some progress. -/
def stoppedAtBound : Callback α :=
  (start oneVariable .empty .cuttingPlane).after [.blank .progress, atBound]

/-- Progress is no reason to stop. A solution at the bound of the search closes the gap
    and is, and a second one only makes the callback repeat itself. -/
theorem stop_protocol_atBound :
    ((start (oneVariable (α := Float)) .empty .cuttingPlane).handle
      (.blank .progress)).calls.countP Call.isAbort = 0 ∧
    (stoppedAtBound (α := Float)).aborted = true ∧
    ((stoppedAtBound (α := Float)).handle atBound).session.terminationReached = true ∧
    ((stoppedAtBound (α := Float)).handle atBound).calls.countP Call.isAbort = 1 ∧
    ((stoppedAtBound (α := Float)).handle atBound).session.bounds =
      (stoppedAtBound (α := Float)).session.bounds := by
  have hgoes : ((start (oneVariable (α := Float)) .empty .cuttingPlane).handle
      (.blank .progress)).callback.aborted = false := by decide +kernel
  have haborted : (stoppedAtBound (α := Float)).aborted = true := by decide +kernel
  have hquiet := stop_protocol (oneVariable (α := Float)) .empty .cuttingPlane []
    (.blank .progress)
  have hrepeats := stop_protocol (oneVariable (α := Float)) .empty .cuttingPlane
    [.blank .progress, atBound] atBound
  rw [← stoppedAtBound] at hrepeats
  have hfrozen := hrepeats.2.2 haborted
  -- The clock stands still here, so the check tells what the session tells.
  obtain ⟨-, -, hsteady, hlast⟩ := hrepeats.2.1 rfl
  have hreached := (hsteady (Clock.steady_still _ _)).1 hfrozen.1
  refine ⟨?_, haborted, hreached, ?_, hfrozen.2.2.1⟩
  · exact (hquiet.2.1 rfl).2.2.2.trans (if_neg (Bool.eq_false_iff.1 hgoes))
  · exact hlast.trans (if_pos hfrozen.1)

end Callback

end OuterApprox
