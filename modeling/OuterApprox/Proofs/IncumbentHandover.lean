import OuterApprox.Proofs.BoundCrossing
import OuterApprox.Proofs.NumberOrder
import OuterApprox.Proofs.RowCalls

/-!
# Handing over the incumbent

What an engine is told about the best solution. The primal bound moves at several places
of an event: a reported solution is offered, and so is what the line search and the local
solver find. The engine hears of it at one place only, at the end of cutting off a
solution, and not even there if the event turns out to be the last one. So bounds may
improve many times between two cutoffs, and what relates a cutoff to the one before is
not the ledger but the bound the callback remembers to have handed over.

A turn is therefore cut at that place. Before it and after it the turn is `Silent`: it
makes no such call and does not touch what is remembered, though before it the bounds may
move in any way. After it they do not move either, so the bound that was handed over is
the bound of the turn.

Whether the engine takes a solution or a cutoff makes no difference to any of this. A
cutoff is the bound made worse by a tolerance, which is not exact for doubles; that a
better bound does not get a looser cutoff is the monotonicity of rounding.

## Main definitions

* `Call.isInjection`: Calls that tell the engine about the incumbent.
* `Turn.Silent`: Steps without such calls.
* `Turn.Handover`: A turn cut where the incumbent is handed over.
* `Turn.HandsOver`: The two calls of a turn that hand over the incumbent.
* `BoundLedger.Backed`: A finite primal bound is that of a solution.
* `Callback.turns`: The turns of a list of events.

## Theorems

* `floatShiftOrder`, `exactShiftOrder`: Shifts do not exchange values.
* `Turn.handover_cutOff`, `Turn.handover_active`: Where the incumbent is handed over.
* `BoundLedger.backed_after`, `Turn.Steps.backed`: There is a solution to hand over.
* `Callback.handle_handsOver`: One event.
* `Callback.better_of_turns`: What is remembered bounds all that is handed over later.
* `Callback.incumbent_protocol`: All events.
-/

namespace OuterApprox

/-- The order of numbers, as far as making two of them worse by the same is concerned. -/
class Scalar.ShiftOrder (α : Type) [Scalar α] : Prop extends Scalar.NumberOrder α where
  /-- Finite values are not exchanged when both are made worse by the same. -/
  not_better_worsen : ∀ (sense : Sense) {a b t : α}, Scalar.isFinite a = true →
    Scalar.isFinite b = true → sense.better a b = true →
      sense.better (sense.worsen b t) (sense.worsen a t) = false

instance floatShiftOrder : Scalar.ShiftOrder Float where
  not_better_worsen sense {a b t} ha hb h := by
    cases sense with
    | minimize => exact decide_eq_false (DoubleOrder.not_add_lt_add ha hb (of_decide_eq_true h))
    | maximize => exact decide_eq_false (DoubleOrder.not_sub_lt_sub hb ha (of_decide_eq_true h))

namespace Exact

theorem not_add_lt_add {a b : Exact} (ha : Scalar.isFinite a = true)
    (hb : Scalar.isFinite b = true) (h : a < b) (t : Exact) : ¬ b + t < a + t := by
  rw [eq_finite ha, eq_finite hb, finite_lt] at h
  rw [eq_finite ha, eq_finite hb]
  rcases t with q | s | _
  · rw [finite_add, finite_add, finite_lt]
    linarith
  · cases s <;> exact Bool.false_ne_true
  · exact Bool.false_ne_true

end Exact

instance exactShiftOrder : Scalar.ShiftOrder Exact where
  not_better_worsen sense {a b t} ha hb h := by
    cases sense with
    | minimize => exact decide_eq_false (Exact.not_add_lt_add ha hb (of_decide_eq_true h) t)
    | maximize => exact decide_eq_false (Exact.not_add_lt_add hb ha (of_decide_eq_true h) (-t))

variable {α : Type}

/-- Whether a call tells the engine about the incumbent. -/
def Call.isInjection : Call α → Bool
  | .solution .. | .cutoff .. => true
  | _ => false

/-- The values of a point, with a bound for the variable that carries the objective. -/
structure Problem.Carries (p : Problem α) (bound : α) (x values : Point α) : Prop where
  /-- There is one value per coordinate. -/
  length : values.length = x.length
  /-- The values are those of the point but for one. -/
  coord : ∀ i < values.length,
    values[i]? = if p.auxiliary = some i then some bound else x[i]?

theorem Problem.carries_setCoord [Scalar α] (p : Problem α) (bound : α) (x : Point α) :
    p.Carries bound x (p.auxiliary.elim x fun j => x.setCoord j bound) := by
  cases haux : p.auxiliary with
  | none => exact ⟨rfl, fun i _ => by rw [haux, if_neg (Option.some_ne_none i).symm]; rfl⟩
  | some j =>
      refine ⟨List.length_set, fun i hi => ?_⟩
      rw [Option.elim_some, Point.setCoord, List.length_set] at hi
      rw [Option.elim_some, Point.setCoord, List.getElem?_set, haux]
      by_cases heq : j = i
      · subst heq
        rw [if_pos rfl, if_pos rfl, if_pos hi]
      · rw [if_neg heq, if_neg (mt Option.some.inj heq)]

namespace Turn

/-- A step that does not tell the engine about the incumbent. -/
structure Silent (t t' : Turn α) : Prop where
  /-- What was handed over last is remembered. -/
  injected : t'.callback.injected = t.callback.injected
  /-- What is added to the calls says nothing of the incumbent. -/
  calls : ∃ more, t'.calls = t.calls ++ more ∧ ∀ call ∈ more, call.isInjection = false

theorem Rowed.silent {t t' : Turn α} (h : Rowed t t') : Silent t t' := by
  rcases h.calls with ⟨rows, hcalls, hrows⟩
  refine ⟨h.injected, rows, hcalls, fun call hcall => ?_⟩
  have hrow := hrows call hcall
  cases call <;> first | rfl | exact nomatch hrow

theorem Silent.trans {a b c : Turn α} (h1 : Silent a b) (h2 : Silent b c) : Silent a c := by
  rcases h1.calls with ⟨first, hfirst, hsilent⟩
  rcases h2.calls with ⟨second, hsecond, hsilent'⟩
  refine ⟨h2.injected.trans h1.injected, first ++ second, ?_, ?_⟩
  · rw [hsecond, hfirst, List.append_assoc]
  · exact List.forall_mem_append.2 ⟨hsilent, hsilent'⟩

theorem silent_enter (t : Turn α) (phase : Phase) : Silent t (t.enter phase) :=
  (Rowed.of_eq rfl rfl rfl rfl : Rowed t (t.enter phase)).silent

variable [Scalar α]

/-- A turn that tells the engine about the incumbent at one place, or nowhere. -/
inductive Handover (e : Event α) (t t' : Turn α) : Prop where
  /-- Nowhere. -/
  | silent (h : Silent t t')
  /-- In `u`, after which the bounds stay. -/
  | once (u : Turn α) (before : Silent t u) (after : Silent (u.injectIncumbent e) t')
      (quiet : Quiet (u.injectIncumbent e) t')

theorem Silent.handover {e : Event α} {a b c : Turn α} (h1 : Silent a b)
    (h2 : Handover e b c) : Handover e a c := by
  rcases h2 with h | ⟨u, hbefore, hafter, hquiet⟩
  · exact .silent (h1.trans h)
  · exact .once u (h1.trans hbefore) hafter hquiet

/-- The place is not passed again as long as the bounds stay and nothing is said. -/
theorem Handover.silent_quiet {e : Event α} {a b c : Turn α} (h1 : Handover e a b)
    (h2 : Silent b c) (hquiet : Quiet b c) : Handover e a c := by
  rcases h1 with h | ⟨u, hbefore, hafter, hquiet'⟩
  · exact .silent (h.trans h2)
  · exact .once u hbefore (hafter.trans h2) (hquiet'.trans hquiet)

/-- A check may ask the engine to stop, but says nothing of the incumbent. -/
theorem silent_checkTermination (t : Turn α) : Silent t t.checkTermination := by
  simp only [checkTermination]
  split
  · exact ⟨rfl, [], (List.append_nil _).symm, List.forall_mem_nil _⟩
  · exact ⟨rfl, [.abort], rfl, List.forall_mem_singleton.2 rfl⟩

theorem handover_cutOff (t : Turn α) (e : Event α) (objective : α) (c : Candidate α) :
    Handover e t (t.cutOff e objective c) := by
  rcases exists_cutOff_checked t e objective c with ⟨u, hrowed, hcutOff⟩
  have hchecked := hrowed.silent.trans (silent_checkTermination u)
  rw [hcutOff]
  split
  · exact .silent hchecked
  · exact .once _ hchecked (Rowed.refl _).silent (.refl _)

theorem handover_considerSolution (t : Turn α) (e : Event α) (objective : α) (x : Point α) :
    Handover e t (t.considerSolution e objective x) := by
  have hoffered := ((rowed_ensureIteration t).trans (rowed_offerSolution t.ensureIteration
    objective (t.ensureIteration.problem.candidate x t.ensureIteration.iteration))).silent
  have hchecked := hoffered.trans (silent_checkTermination _)
  simp only [considerSolution]
  split
  · exact .silent hchecked
  · split
    · exact .silent (hchecked.trans (rowed_note _ _).silent)
    · exact hchecked.handover (handover_cutOff _ e objective _)

theorem handover_dispatch (t : Turn α) (e : Event α) : Handover e t (t.dispatch e) := by
  simp only [dispatch]
  split
  · exact .silent (rowed_recordProgress t e).silent
  · exact .silent (rowed_relaxationNode t e).silent
  -- Only a solution that can be read is considered.
  · simp only [integerSolution]
    split
    · exact .silent (rowed_note t _).silent
    · split
      · exact .silent (rowed_note t _).silent
      · split
        · exact handover_considerSolution t e _ _
        · exact .silent (rowed_note t _).silent
  · exact .silent (Rowed.refl t).silent

theorem handover_active (t : Turn α) (e : Event α) : Handover e t (t.active e) := by
  have hopened := (silent_enter t .evaluatingNode).trans (silent_checkTermination _)
  simp only [active]
  split
  · exact .silent (hopened.trans (silent_enter _ _))
  · have hhandled := (hopened.trans (rowed_updateDualBound _ e).silent).handover
      (handover_dispatch _ e)
    refine Handover.silent_quiet ?_ (silent_enter _ _) (quiet_enter _ _)
    split
    · exact hhandled
    · exact hhandled.silent_quiet (silent_checkTermination _) (quiet_checkTermination _)

/-- The two calls of a turn that hand over the incumbent, and no other such call. The bounds
    are those of the moment, since nothing is offered any more once they are made. -/
structure HandsOver (p : Problem α) (tolerance : α) (t : Turn α) (cutoff : α) : Prop where
  /-- The primal bound is a number. -/
  finite : Scalar.isFinite t.session.bounds.primalBound = true
  /-- The cutoff is just behind it. -/
  behind : cutoff = p.sense.worsen t.session.bounds.primalBound tolerance
  /-- The solution comes first. It is the incumbent, with the primal bound for the variable that
      carries the objective. -/
  calls : ∃ before after values taken set s,
    t.calls = before ++ .solution values taken :: .cutoff cutoff set :: after ∧
      (∀ call ∈ before ++ after, call.isInjection = false) ∧
      t.session.bounds.incumbent = some s ∧
      p.Carries t.session.bounds.primalBound s.candidate.point values

/-- The only cutoff of the turn is the one that is handed over. -/
theorem HandsOver.eq_cutoff {p : Problem α} {tolerance cutoff : α} {t : Turn α}
    (h : t.HandsOver p tolerance cutoff) {c : α} {set : Bool} (hc : .cutoff c set ∈ t.calls) :
    c = cutoff := by
  rcases h.calls with ⟨before, after, values, taken, set', s, hcalls, hsilent, _⟩
  rw [hcalls, List.mem_append, List.mem_cons, List.mem_cons] at hc
  rcases hc with hbefore | hsolution | hcutoff | hafter
  · exact nomatch hsilent _ (List.mem_append_left _ hbefore)
  · exact nomatch hsolution
  · exact (Call.cutoff.inj hcutoff).1
  · exact nomatch hsilent _ (List.mem_append_right _ hafter)

theorem HandsOver.exists_mem {p : Problem α} {tolerance cutoff : α} {t : Turn α}
    (h : t.HandsOver p tolerance cutoff) : ∃ set, .cutoff cutoff set ∈ t.calls := by
  rcases h.calls with ⟨before, after, values, taken, set, s, hcalls, _⟩
  refine ⟨set, ?_⟩
  rw [hcalls]
  exact List.mem_append_right _ (List.mem_cons_of_mem _ List.mem_cons_self)

theorem exists_calls_submitIncumbent {t : Turn α} (e : Event α) (primal : α)
    {s : PrimalSolution α} (hincumbent : t.session.bounds.incumbent = some s) :
    ∃ values taken, (t.submitIncumbent e primal).calls = t.calls ++ [.solution values taken] ∧
      t.problem.Carries primal s.candidate.point values := by
  simp only [submitIncumbent, hincumbent]
  split <;> exact ⟨_, _, rfl, t.problem.carries_setCoord primal s.candidate.point⟩

theorem exists_calls_submitCutoff (t : Turn α) (e : Event α) (primal : α) :
    (t.submitCutoff e primal).callback.injected = t.callback.injected ∧
      ∃ set, (t.submitCutoff e primal).calls = t.calls ++ [.cutoff
        (t.problem.sense.worsen primal t.session.settings.dual.cutoffTolerance) set] := by
  simp only [submitCutoff]
  split <;> exact ⟨rfl, _, rfl⟩

/-- The incumbent is handed over if the primal bound is a number and better than the one that
    was handed over last. -/
theorem injectIncumbent_cases (t : Turn α) (e : Event α) :
    t.injectIncumbent e = t ∨
      (Scalar.isFinite t.session.bounds.primalBound = true ∧
        (∀ last, t.callback.injected = some last →
          t.problem.sense.better t.session.bounds.primalBound last = true) ∧
        (t.injectIncumbent e).callback.injected = some t.session.bounds.primalBound ∧
        ∀ s, t.session.bounds.incumbent = some s → ∃ values taken set,
          (t.injectIncumbent e).calls = t.calls ++ [.solution values taken,
            .cutoff (t.problem.sense.worsen t.session.bounds.primalBound
              t.session.settings.dual.cutoffTolerance) set] ∧
          t.problem.Carries t.session.bounds.primalBound s.candidate.point values) := by
  generalize ht : t.session.bounds.primalBound = primal
  -- A bound that is infinite or no news is not handed over.
  by_cases hskip : (!Scalar.isFinite primal ||
      !(t.callback.injected.all fun last => t.problem.sense.better primal last)) = true
  · exact .inl (by rw [injectIncumbent, ht]; exact if_pos hskip)
  -- The cutoff follows the solution, and the bound is remembered in between.
  have hinject : t.injectIncumbent e =
      ({ t.submitIncumbent e primal with
        callback := { (t.submitIncumbent e primal).callback with injected := some primal } } :
          Turn α).submitCutoff e primal := by
    rw [injectIncumbent, ht]
    exact if_neg hskip
  rw [Bool.or_eq_true, not_or, Bool.not_eq_true', Bool.not_eq_false, Bool.not_eq_true',
    Bool.not_eq_false] at hskip
  have hquiet := quiet_submitIncumbent t e primal
  rcases exists_calls_submitCutoff ({ t.submitIncumbent e primal with
    callback := { (t.submitIncumbent e primal).callback with injected := some primal } } : Turn α)
    e primal with ⟨hinjected, set, hcutoff⟩
  rw [← hinject] at hinjected hcutoff
  refine .inr ⟨hskip.1, ?_, hinjected, ?_⟩
  · intro last hlast
    rw [hlast] at hskip
    exact hskip.2
  -- With an incumbent the solution is that, with the epigraph variable put right.
  · intro s hincumbent
    rcases exists_calls_submitIncumbent e primal hincumbent with
      ⟨values, taken, hsolution, hcarries⟩
    refine ⟨values, taken, set, hcutoff.trans ?_, hcarries⟩
    change (t.submitIncumbent e primal).calls ++ [.cutoff
      ((t.submitIncumbent e primal).session.problem.sense.worsen primal
        (t.submitIncumbent e primal).session.settings.dual.cutoffTolerance) set] = _
    rw [hsolution, hquiet.problem, hquiet.settings, List.append_assoc]
    rfl

end Turn

variable [Scalar α]

namespace BoundLedger

/-- A finite primal bound is that of a solution. -/
def Backed (l : BoundLedger α) : Prop :=
  Scalar.isFinite l.primalBound = true → l.incumbent.isSome = true

theorem Backed.offerPrimal {l : BoundLedger α} (h : l.Backed) (s : PrimalSolution α) :
    (l.offerPrimal s).Backed := by
  unfold Backed
  rcases l.offerPrimal_cases s with ⟨_, _, hincumbent⟩ | ⟨hbound, hincumbent⟩
  · rw [hincumbent]
    exact fun _ => rfl
  · rw [hbound, hincumbent]
    exact h

theorem Backed.offerDual {l : BoundLedger α} (h : l.Backed) (d : DualBound α) :
    (l.offerDual d).Backed := by
  unfold Backed
  rw [primalBound_offerDual, incumbent_offerDual]
  exact h

/-- The worst value is not finite, so a fresh ledger has nothing to back. -/
theorem backed_after [Scalar.BoundOrder α] (sense : Sense) (t : TerminationSettings α)
    (offers : List (Offer α)) : ((fresh sense t).after offers).Backed := by
  induction offers using List.reverseRecOn with
  | nil =>
      intro hfinite
      exact absurd hfinite (Bool.eq_false_iff.1 (Scalar.BoundOrder.isFinite_worst sense))
  | append_singleton offers o ih =>
      rw [after_append_singleton]
      cases o with
      | primal s => exact ih.offerPrimal s
      | dual d => exact ih.offerDual d

end BoundLedger

theorem Turn.Steps.backed {e : Event α} {t t' : Turn α} (hsteps : Turn.Steps e t t')
    (h : t.session.bounds.Backed) : t'.session.bounds.Backed := by
  induction hsteps with
  | refl => exact h
  | tail _ hstep ih =>
      cases hstep with
      | quiet hq => exact hq.bounds ▸ ih
      | primal x n source hlength hfrom => exact ih.offerPrimal _
      | dual d => exact ih.offerDual d
      | interior rule => exact ih
      | cut hp l number hrow => exact ih

namespace Callback

/-- The turns in which a list of events is handled. -/
def turns (c : Callback α) : List (Event α) → List (Turn α)
  | [] => []
  | e :: rest => c.handle e :: (c.handle e).callback.turns rest

theorem handover_handle (c : Callback α) (e : Event α) :
    Turn.Handover e ⟨c, []⟩ (c.handle e) := by
  have hcounted : Turn.Rowed ⟨c, []⟩ ⟨c.counted, []⟩ := .of_eq rfl rfl rfl rfl
  simp only [handle]
  split
  · exact .silent (Turn.Rowed.refl _).silent
  · split
    · exact .silent ⟨rfl, [.abort], rfl, List.forall_mem_singleton.2 rfl⟩
    · exact hcounted.silent.handover (Turn.handover_active ⟨c.counted, []⟩ e)

/-- In one event the incumbent is handed over not at all, or once by a pair of calls. It is
    handed over only for a bound that is better than the one remembered, and that bound is
    remembered from then on. -/
theorem handle_handsOver {c : Callback α} (e : Event α) (hbacked : c.session.bounds.Backed) :
    ((∀ call ∈ (c.handle e).calls, call.isInjection = false) ∧
        (c.handle e).callback.injected = c.injected) ∨
      ((∃ cutoff, (c.handle e).HandsOver c.session.problem
          c.session.settings.dual.cutoffTolerance cutoff) ∧
        (∀ last, c.injected = some last → c.session.problem.sense.better
          (c.handle e).session.bounds.primalBound last = true) ∧
        (c.handle e).callback.injected = some (c.handle e).session.bounds.primalBound) := by
  have hsteps := steps_handle c e
  have hproblem : (c.handle e).session.problem = c.session.problem := hsteps.problem
  have hsettings : (c.handle e).session.settings = c.session.settings := hsteps.settings
  have hlast := hsteps.backed hbacked
  have hsilent : ∀ {t : Turn α}, Turn.Silent ⟨c, []⟩ t →
      (∀ call ∈ t.calls, call.isInjection = false) ∧ t.callback.injected = c.injected := by
    rintro t ⟨hinjected, more, hcalls, hmore⟩
    exact ⟨by rw [hcalls]; exact hmore, hinjected⟩
  -- Silent as a whole, or with a moment at which the incumbent may be handed over.
  rcases handover_handle c e with h | ⟨u, hbefore, hafter, hquiet⟩
  · exact .inl (hsilent h)
  rcases u.injectIncumbent_cases e with hnothing | ⟨hfinite, hnews, hinjected, hcalls⟩
  · rw [hnothing] at hafter
    exact .inl (hsilent (hbefore.trans hafter))
  -- The bounds of the moment are those of the turn.
  have hmoment := (Turn.quiet_injectIncumbent u e).trans hquiet
  have hbounds := hmoment.bounds
  rw [hbounds] at hlast ⊢
  rcases Option.isSome_iff_exists.1 (hlast hfinite) with ⟨s, hs⟩
  rcases hcalls s hs with ⟨values, taken, set, hpair, hcarries⟩
  rcases hafter.calls with ⟨after, hall, hrest⟩
  rw [← hproblem, ← hsettings, hmoment.problem, hmoment.settings]
  refine .inr ⟨⟨u.problem.sense.worsen u.session.bounds.primalBound
    u.session.settings.dual.cutoffTolerance, ?_⟩, ?_, hafter.injected.trans hinjected⟩
  · refine ⟨by rw [hbounds]; exact hfinite, by rw [hbounds]; rfl,
      u.calls, after, values, taken, set, s, ?_, ?_, by rw [hbounds]; exact hs,
      by rw [hbounds]; exact hcarries⟩
    · rw [hall, hpair, List.append_assoc]
      rfl
    · exact List.forall_mem_append.2 ⟨(hsilent hbefore).1, hrest⟩
  · intro last hremembered
    exact hnews last ((hsilent hbefore).2.trans hremembered)

section Protocol

variable [Scalar.ShiftOrder α] {p : Problem α} {tolerance : α}

/-- The turns of a list of events, from a callback that has a solution to hand over: each hands
    it over at most once, for a bound better than the one the callback remembers, and so the
    bounds get better from turn to turn. -/
theorem handsOver_turns (events : List (Event α)) {c : Callback α} (hp : c.session.problem = p)
    (htolerance : c.session.settings.dual.cutoffTolerance = tolerance)
    (hbacked : c.session.bounds.Backed) :
    (∀ t ∈ c.turns events, (∀ call ∈ t.calls, call.isInjection = false) ∨
      ∃ cutoff, t.HandsOver p tolerance cutoff) ∧
    (∀ t ∈ c.turns events, ∀ cutoff, t.HandsOver p tolerance cutoff →
      ∀ last, c.injected = some last →
        p.sense.better t.session.bounds.primalBound last = true) ∧
    (c.turns events).Pairwise fun t t' => ∀ cutoff cutoff', t.HandsOver p tolerance cutoff →
      t'.HandsOver p tolerance cutoff' → p.sense.better t'.session.bounds.primalBound
        t.session.bounds.primalBound = true := by
  subst hp htolerance
  -- The rest of the events starts from the bound that the first one leaves behind.
  induction events generalizing c with
  | nil => exact ⟨List.forall_mem_nil _, List.forall_mem_nil _, .nil⟩
  | cons e rest ih =>
      have hsteps := steps_handle c e
      have hproblem : (c.handle e).callback.session.problem = c.session.problem := hsteps.problem
      have hsettings : (c.handle e).callback.session.settings = c.session.settings :=
        hsteps.settings
      have hlater := ih (c := (c.handle e).callback) (hsteps.backed hbacked)
      rw [hproblem, hsettings] at hlater
      rcases hlater with ⟨hkinds, hbetter, hpairs⟩
      rcases handle_handsOver e hbacked with ⟨hsilent, hkept⟩ | ⟨hhanded, hnews, hremembered⟩
      · have hnot : ∀ {p : Problem α} {tolerance cutoff : α},
            ¬ (c.handle e).HandsOver p tolerance cutoff := fun h => by
          rcases h.exists_mem with ⟨set, hmem⟩
          exact nomatch hsilent _ hmem
        rw [hkept] at hbetter
        exact ⟨List.forall_mem_cons.2 ⟨.inl hsilent, hkinds⟩,
          List.forall_mem_cons.2 ⟨fun _ h => absurd h hnot, hbetter⟩,
          .cons (fun _ _ _ _ h => absurd h hnot) hpairs⟩
      · refine ⟨List.forall_mem_cons.2 ⟨.inr hhanded, hkinds⟩,
          List.forall_mem_cons.2 ⟨fun _ _ => hnews, ?_⟩, .cons ?_ hpairs⟩
        · -- What comes later is better than what was just handed over.
          exact fun t ht cutoff h last hlast =>
            Sense.better_trans _ (hbetter t ht cutoff h _ hremembered) (hnews last hlast)
        · exact fun t ht _ cutoff _ h => hbetter t ht cutoff h _ hremembered

/-- What an engine is told about the incumbent in one search, over all lists of events and all
    its answers. In every turn it is told nothing, or the solution and right after it the
    cutoff, just behind a primal bound that is a number. From one cutoff to a later one the
    primal bound has improved, and the cutoff is no looser. -/
theorem incumbent_protocol (session : Session α) (store : CutStore α) (strategy : CutStrategy)
    (sense : Sense) (termination : TerminationSettings α) (offers : List (BoundLedger.Offer α))
    (hbounds : session.bounds = (BoundLedger.fresh sense termination).after offers)
    (events : List (Event α)) :
    let turns := (start session store strategy).turns events
    (∀ t ∈ turns, (∀ call ∈ t.calls, call.isInjection = false) ∨ ∃ cutoff,
      t.HandsOver session.problem session.settings.dual.cutoffTolerance cutoff) ∧
    turns.Pairwise fun t t' => ∀ cutoff set cutoff' set',
      .cutoff cutoff set ∈ t.calls → .cutoff cutoff' set' ∈ t'.calls →
        session.problem.sense.better t'.session.bounds.primalBound
          t.session.bounds.primalBound = true ∧
        session.problem.sense.better cutoff cutoff' = false := by
  intro turns
  -- A finite primal bound comes with an incumbent, which offers keep true.
  have hbacked : (start session store strategy).session.bounds.Backed := by
    change session.bounds.Backed
    rw [hbounds]
    exact BoundLedger.backed_after sense termination offers
  rcases handsOver_turns events (c := start session store strategy) rfl rfl hbacked with
    ⟨hkinds, _, hpairs⟩
  refine ⟨hkinds, hpairs.imp_of_mem ?_⟩
  intro t t' ht ht' hbetter cutoff set cutoff' set' hcutoff hcutoff'
  -- A turn with a cutoff is one that hands over the incumbent.
  have hhands : ∀ {u : Turn α} {v : α} {b : Bool}, u ∈ turns → .cutoff v b ∈ u.calls →
      u.HandsOver session.problem session.settings.dual.cutoffTolerance v := by
    intro u v b hu hv
    rcases hkinds u hu with hsilent | ⟨w, hw⟩
    · exact nomatch hsilent _ hv
    · exact hw.eq_cutoff hv ▸ hw
  have hfirst := hhands ht hcutoff
  have hsecond := hhands ht' hcutoff'
  have himproved := hbetter cutoff cutoff' hfirst hsecond
  refine ⟨himproved, ?_⟩
  rw [hfirst.behind, hsecond.behind]
  exact Scalar.ShiftOrder.not_better_worsen _ hsecond.finite hfirst.finite himproved

/-- Solutions of the capped problem: two feasible ones, each better than what is known by then,
    and after each of them one that is not feasible. -/
def alternating : List (Event α) :=
  [[1.0, 0.25], [1.0, 1.0], [0.0, 1.5], [1.0, 2.0]].map fun x =>
    { Event.blank .integerSolution with
      bound := .ok (-5.0), objective := .ok (-2.0), values := .ok x }

/-- What is feasible is not cut off, so the engine hears of it one event later. -/
theorem incumbent_protocol_alternating :
    let session := (Solver.cappedSolver (α := Float)).master.session
    let turns := (start session .empty .cuttingPlane).turns alternating
    (turns.map fun t => t.calls.countP Call.isInjection) = [0, 2, 0, 2] ∧
    (∀ t ∈ turns, (∀ call ∈ t.calls, call.isInjection = false) ∨ ∃ cutoff,
      t.HandsOver session.problem session.settings.dual.cutoffTolerance cutoff) ∧
    turns.Pairwise fun t t' => ∀ cutoff set cutoff' set',
      .cutoff cutoff set ∈ t.calls → .cutoff cutoff' set' ∈ t'.calls →
        session.problem.sense.better t'.session.bounds.primalBound
          t.session.bounds.primalBound = true ∧
        session.problem.sense.better cutoff cutoff' = false :=
  ⟨by decide +kernel, incumbent_protocol (Solver.cappedSolver (α := Float)).master.session .empty
    .cuttingPlane .minimize Settings.standard.termination [] rfl alternating⟩

end Protocol

end Callback

end OuterApprox
