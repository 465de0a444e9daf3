import OuterApprox.Proofs.BoundOrder
import OuterApprox.Proofs.Incumbent
import OuterApprox.Settings.Validation

/-!
# Bounds that cross

Whether the primal bound of a ledger can be better than its dual bound by more
than the absolute tolerance. Both kinds of offers have a test against that: a
primal value that is too good is turned down, and a dual value beyond the primal
bound is cut to it. The test of a primal value is made only while the dual bound
is finite, because nothing is too good for the infinite value a dual bound starts
with. There is an infinite value at the other end too, the bound that an engine
reports for an empty tree. Once that is the dual bound it stays, the test is
never made again, and the next feasible candidate is accepted.

That is the only way. `Sound` says that a ledger is not crossed unless its dual
bound is that value, and every offer keeps it. An exhausted ledger, one whose
dual bound is that value, comes from an offer of just this value while there was
no incumbent: with one, the offer would have been cut to the primal bound.

## Main definitions

* `BoundLedger.Offer`, `BoundLedger.offer`, `BoundLedger.after`: Offers of both
  kinds, in any order.
* `BoundLedger.crossed`: The primal bound is too good for the dual one.
* `BoundLedger.Sound`: The invariant of the offers.
* `BoundLedger.Exhausting`: Offers with the worst value as a dual bound before
  there is an incumbent.

## Theorems

* `BoundLedger.Sound.offer`, `BoundLedger.sound_after`: Offers keep the
  invariant.
* `BoundLedger.Sound.crossed_iff`: When the bounds of a sound ledger cross.
* `BoundLedger.Sound.dualBound_offer_eq_worst_iff`: When an offer exhausts a
  ledger.
* `BoundLedger.dualBound_after_eq_worst_iff`: When a list of offers does.
* `BoundLedger.crossed_after_iff`: When offers make the bounds cross.
-/

namespace OuterApprox

namespace BoundLedger

variable {α : Type}

/-- A candidate for one of the bounds. -/
inductive Offer (α : Type) where
  /-- A solution. -/
  | primal (solution : PrimalSolution α)
  /-- A bound on the objective. -/
  | dual (bound : DualBound α)

variable [Scalar α]

/-- The ledger after an offer of either kind. -/
def offer (l : BoundLedger α) : Offer α → BoundLedger α
  | .primal s => l.offerPrimal s
  | .dual d => l.offerDual d

/-- The ledger after a list of offers. -/
def after (l : BoundLedger α) (offers : List (Offer α)) : BoundLedger α :=
  offers.foldl offer l

/-- The last offer is made to the ledger that the others lead to. -/
theorem after_append_singleton (l : BoundLedger α) (offers : List (Offer α)) (o : Offer α) :
    l.after (offers ++ [o]) = (l.after offers).offer o := by
  unfold after
  rw [List.foldl_append, List.foldl_cons, List.foldl_nil]

/-- Whether the primal bound is better than the dual bound by more than the absolute
    tolerance. -/
def crossed (l : BoundLedger α) : Bool :=
  l.sense.better l.primalBound (l.sense.improve l.dualBound l.absoluteTolerance)

/-- A primal value that is accepted has passed the test against the dual bound. -/
theorem crossesDual_of_accepted {l : BoundLedger α} {c : Candidate α}
    (h : l.judgePrimal c = .accepted) : l.crossesDual c.objective = false := by
  -- The test is the last of four reasons to turn a candidate down.
  unfold judgePrimal at h
  split at h
  · exact nomatch h
  · split at h
    · exact nomatch h
    · split at h
      · exact nomatch h
      next hc => exact Bool.not_eq_true _ ▸ hc

/-- The dual bound after an offer: the old one, the value offered, or the primal bound. -/
theorem dualBound_offerDual (l : BoundLedger α) (d : DualBound α) :
    (l.offerDual d).dualBound =
      if Scalar.isUndefined d.value || !l.improvesDual d.value then l.dualBound
      else if l.crossesPrimal d.value then
        if l.improvesDual l.primalBound then l.primalBound else l.dualBound
      else d.value := by
  unfold offerDual judgeDual
  split_ifs <;> rfl

/-- Admissible settings have an absolute gap that is not negative. -/
theorem absoluteGap_nonneg {settings : Settings α} (hvalid : settings.validate = .ok ()) :
    0.0 ≤ settings.termination.absoluteGap := by
  have hall := (Settings.validate_eq_ok_iff settings).1 hvalid
  simp only [Settings.requirements, List.forall_mem_cons, decide_eq_true_eq] at hall
  exact hall.2.2.2.2.2.2.2.1

/-- What offers keep true of a ledger with a given sense and absolute tolerance. -/
structure Sound (sense : Sense) (tolerance : α) (l : BoundLedger α) : Prop where
  /-- The sense is the one given. -/
  sense_eq : l.sense = sense
  /-- The absolute tolerance is the one given. -/
  tolerance_eq : l.absoluteTolerance = tolerance
  /-- Before the first incumbent the primal bound is the worst value. -/
  worst : l.incumbent = none → l.primalBound = sense.worst
  /-- With an incumbent it is better. -/
  better_worst : l.incumbent.isSome = true → sense.better l.primalBound sense.worst = true
  /-- The dual bound is the worst value, or it is better and the bounds are in order. -/
  dual : l.dualBound = sense.worst ∨
    (sense.better l.dualBound sense.worst = true ∧ l.crossed = false)

variable [Scalar.BoundOrder α] {sense : Sense} {tolerance : α} {l : BoundLedger α}

/-- A fresh ledger has the best value as its dual bound, for which nothing is too good. -/
theorem sound_fresh (sense : Sense) (t : TerminationSettings α) :
    (fresh sense t).Sound sense t.absoluteGap where
  sense_eq := rfl
  tolerance_eq := rfl
  worst _ := rfl
  better_worst h := nomatch h
  dual := .inr ⟨Scalar.BoundOrder.best_better_worst sense, Sense.not_better_worst sense _⟩

-- The test leaves out a dual bound that is not finite. Of those only the worst value makes
-- a difference, since nothing is better than the best one.
theorem Sound.not_crossed_of_crossesDual (h : l.Sound sense tolerance) (ht : 0.0 ≤ tolerance)
    (hdual : sense.better l.dualBound sense.worst = true) {v : α}
    (hv : l.crossesDual v = false) :
    sense.better v (sense.improve l.dualBound tolerance) = false := by
  by_contra hc
  rw [Bool.not_eq_false] at hc
  have hbetter := Scalar.BoundOrder.better_of_improve sense ht hc
  rw [crossesDual, h.sense_eq, h.tolerance_eq, hc, Bool.and_true] at hv
  -- The bound is not finite, so it is an end of the order or no number.
  rcases Scalar.BoundOrder.cases_of_not_finite sense hv with hbest | hworst | hundef
  · rw [hbest, Sense.not_better_best] at hbetter
    exact nomatch hbetter
  · rw [hworst, Scalar.BoundOrder.better_irrefl] at hdual
    exact nomatch hdual
  · rw [(Scalar.BoundOrder.defined_of_better sense hbetter).2] at hundef
    exact nomatch hundef

/-- A primal offer keeps the invariant: if it moves the bound, it was tested. -/
theorem Sound.offerPrimal (h : l.Sound sense tolerance) (ht : 0.0 ≤ tolerance)
    (s : PrimalSolution α) : (l.offerPrimal s).Sound sense tolerance := by
  have hsense : (l.offerPrimal s).sense = sense := (sense_offerPrimal l s).trans h.sense_eq
  have htol : (l.offerPrimal s).absoluteTolerance = tolerance :=
    (absoluteTolerance_offerPrimal l s).trans h.tolerance_eq
  rcases l.offerPrimal_cases s with ⟨haccepted, hb, hi⟩ | ⟨hb, hi⟩
  · have himproves := (judgePrimal_accepted haccepted).2
    rw [improvesPrimal, h.sense_eq] at himproves
    refine ⟨hsense, htol, ?_, ?_, ?_⟩
    · intro hnone
      rw [hi] at hnone
      exact absurd hnone (Option.some_ne_none s)
    · intro _
      rw [hb]
      exact sense.better_worst_of_better himproves
    · rw [dualBound_offerPrimal]
      -- If the dual bound is the worst value, the bounds may cross, which the invariant allows.
      refine h.dual.imp_right fun hdual => ⟨hdual.1, ?_⟩
      rw [crossed, hsense, htol, hb, dualBound_offerPrimal]
      exact h.not_crossed_of_crossesDual ht hdual.1 (crossesDual_of_accepted haccepted)
  · refine ⟨hsense, htol, ?_, ?_, ?_⟩
    · rw [hb, hi]
      exact h.worst
    · rw [hb, hi]
      exact h.better_worst
    · rw [crossed, hb, dualBound_offerPrimal, sense_offerPrimal, absoluteTolerance_offerPrimal]
      exact h.dual

/-- A dual offer keeps the invariant: what it moves the bound to is not beyond the primal one. -/
theorem Sound.offerDual (h : l.Sound sense tolerance) (ht : 0.0 ≤ tolerance)
    (d : DualBound α) : (l.offerDual d).Sound sense tolerance := by
  refine ⟨(sense_offerDual l d).trans h.sense_eq,
    (absoluteTolerance_offerDual l d).trans h.tolerance_eq, ?_, ?_, ?_⟩
  · rw [incumbent_offerDual, primalBound_offerDual]
    exact h.worst
  · rw [incumbent_offerDual, primalBound_offerDual]
    exact h.better_worst
  · have hdual := h.dual
    -- The new dual bound is one that the primal bound is not better than.
    have hnew : ∀ v, sense.better l.primalBound v = false →
        sense.better l.primalBound (sense.improve v tolerance) = false := by
      intro v hv
      by_contra hc
      rw [Scalar.BoundOrder.better_of_improve sense ht (Bool.not_eq_false _ ▸ hc)] at hv
      exact nomatch hv
    rw [crossed, sense_offerDual, primalBound_offerDual, absoluteTolerance_offerDual,
      dualBound_offerDual]
    rw [crossed] at hdual
    -- The offer is passed over, cut to the primal bound, absorbed by it, or taken.
    split_ifs with hpassed hcross himproves
    · exact hdual
    · rw [crossesPrimal, h.sense_eq] at hcross
      rw [h.sense_eq, h.tolerance_eq]
      exact .inr ⟨sense.better_worst_of_better hcross,
        hnew _ (Scalar.BoundOrder.better_irrefl sense _)⟩
    · exact hdual
    · rw [Bool.not_eq_true, Bool.or_eq_false_iff] at hpassed
      rw [Bool.not_eq_true, crossesPrimal, h.sense_eq] at hcross
      rw [h.sense_eq, h.tolerance_eq]
      exact ((Scalar.BoundOrder.defined_iff sense _).1 hpassed.1).imp_right fun hbetter =>
        ⟨hbetter, hnew _ hcross⟩

/-- An offer of either kind keeps the invariant. -/
theorem Sound.offer (h : l.Sound sense tolerance) (ht : 0.0 ≤ tolerance) (o : Offer α) :
    (l.offer o).Sound sense tolerance := by
  cases o with
  | primal s => exact h.offerPrimal ht s
  | dual d => exact h.offerDual ht d

/-- So does a list of them, by induction along the list. -/
theorem sound_after (ht : 0.0 ≤ tolerance) (h : l.Sound sense tolerance)
    (offers : List (Offer α)) : (l.after offers).Sound sense tolerance := by
  induction offers generalizing l with
  | nil => exact h
  | cons o rest ih => exact ih (h.offer ht o)

/-- The bounds of a sound ledger cross exactly if the dual bound is the worst value, there is
    an incumbent, and the tolerance is finite. -/
theorem Sound.crossed_iff (h : l.Sound sense tolerance) (ht : 0.0 ≤ tolerance) :
    l.crossed = true ↔ l.dualBound = sense.worst ∧ l.incumbent.isSome = true ∧
      Scalar.isFinite tolerance = true := by
  constructor
  · intro hc
    have hdual : l.dualBound = sense.worst := by
      refine h.dual.resolve_right fun hordered => ?_
      rw [hordered.2] at hc
      exact nomatch hc
    rw [crossed, h.sense_eq, h.tolerance_eq, hdual] at hc
    refine ⟨hdual, ?_, ?_⟩
    · by_contra hnone
      rw [h.worst (Option.not_isSome_iff_eq_none.1 hnone), Sense.not_better_worst] at hc
      exact nomatch hc
    -- An infinite tolerance takes the worst value out of the order.
    · by_contra hinf
      rw [Bool.not_eq_true] at hinf
      have hundef := Scalar.BoundOrder.improve_worst_undefined sense ht hinf
      rw [(Scalar.BoundOrder.defined_of_better sense hc).2] at hundef
      exact nomatch hundef
  · rintro ⟨hdual, hsome, hfinite⟩
    rw [crossed, h.sense_eq, h.tolerance_eq, hdual,
      Scalar.BoundOrder.improve_worst sense ht hfinite]
    exact h.better_worst hsome

/-! ## How the dual bound becomes the worst value -/

/-- One of the offers is the worst value as a dual bound, and comes before any incumbent. -/
def Exhausting (l : BoundLedger α) (offers : List (Offer α)) : Prop :=
  ∃ before d rest, offers = before ++ .dual d :: rest ∧ d.value = l.sense.worst ∧
    (l.after before).incumbent = none

/-- The dual bound becomes the worst value by an offer of just that, while there is no
    incumbent. -/
theorem Sound.dualBound_offer_eq_worst_iff (h : l.Sound sense tolerance) (o : Offer α) :
    (l.offer o).dualBound = sense.worst ↔ l.dualBound = sense.worst ∨
      ∃ d, o = .dual d ∧ d.value = sense.worst ∧ l.incumbent = none := by
  cases o with
  | primal s =>
    rw [BoundLedger.offer, dualBound_offerPrimal]
    constructor
    · exact .inl
    · rintro (hdual | ⟨d, heq, -⟩)
      · exact hdual
      · exact nomatch heq
  | dual d =>
    rw [BoundLedger.offer, dualBound_offerDual, improvesDual, improvesDual, crossesPrimal,
      h.sense_eq]
    constructor
    · intro hnew
      split_ifs at hnew with hpassed hcross himproves
      · exact .inl hnew
      · -- A primal bound that crosses something is not the worst value.
        rw [hnew, Sense.not_better_worst] at hcross
        exact nomatch hcross
      · exact .inl hnew
      · refine .inr ⟨d, rfl, hnew, ?_⟩
        by_contra hsome
        rw [hnew, h.better_worst (Option.isSome_iff_ne_none.2 hsome)] at hcross
        exact hcross rfl
    -- Once it is the worst value it stays, for nothing is worse.
    · rintro (hdual | ⟨_, ⟨⟩, hvalue, hnone⟩)
      · rw [hdual, Sense.not_better_worst, Bool.not_false, Bool.or_true, if_pos rfl]
      · have hdefined : Scalar.isUndefined d.value = false :=
          (Scalar.BoundOrder.defined_iff sense _).2 (.inl hvalue)
        rw [h.worst hnone, Sense.not_better_worst, if_neg Bool.false_ne_true, hdefined, hvalue]
        rcases h.dual with hdual | hordered
        · rw [hdual]
          split_ifs <;> rfl
        · rw [hordered.1]
          rfl

/-- A list of offers exhausts a ledger if one of them does. -/
theorem dualBound_after_eq_worst_iff (ht : 0.0 ≤ tolerance) (h : l.Sound sense tolerance)
    (hdual : l.dualBound ≠ sense.worst) (offers : List (Offer α)) :
    (l.after offers).dualBound = sense.worst ↔ l.Exhausting offers := by
  -- The last offer is the one that is looked at, so the induction goes from the end.
  induction offers using List.reverseRecOn with
  | nil =>
    constructor
    · exact fun heq => absurd heq hdual
    · rintro ⟨before, d, rest, heq, -⟩
      exact absurd heq.symm (List.append_ne_nil_of_right_ne_nil _ (List.cons_ne_nil _ _))
  | append_singleton offers o ih =>
    rw [after_append_singleton, (sound_after ht h offers).dualBound_offer_eq_worst_iff, ih]
    constructor
    · rintro (⟨before, d, rest, rfl, hvalue, hnone⟩ | ⟨d, rfl, hvalue, hnone⟩)
      · exact ⟨before, d, rest ++ [o], List.append_assoc _ _ _, hvalue, hnone⟩
      · exact ⟨offers, d, [], rfl, h.sense_eq ▸ hvalue, hnone⟩
    · rintro ⟨before, d, rest, heq, hvalue, hnone⟩
      -- The offer is the last one or among the others.
      rcases List.eq_nil_or_concat rest with rfl | ⟨rest', o', rfl⟩
      · obtain ⟨rfl, hlast⟩ := List.append_inj' heq rfl
        rw [List.cons.injEq] at hlast
        exact .inr ⟨d, hlast.1, h.sense_eq ▸ hvalue, hnone⟩
      · rw [List.concat_eq_append, ← List.cons_append, ← List.append_assoc] at heq
        obtain ⟨rfl, -⟩ := List.append_inj' heq rfl
        exact .inl ⟨before, d, rest', rfl, hvalue, hnone⟩

/-- The bounds of a ledger with admissible settings cross exactly if the worst value was
    offered as a dual bound before there was an incumbent, there is one by now, and the absolute
    tolerance is finite. -/
theorem crossed_after_iff {settings : Settings α} (hvalid : settings.validate = .ok ())
    (sense : Sense) (offers : List (Offer α)) :
    ((fresh sense settings.termination).after offers).crossed = true ↔
      (fresh sense settings.termination).Exhausting offers ∧
      ((fresh sense settings.termination).after offers).incumbent.isSome = true ∧
      Scalar.isFinite settings.termination.absoluteGap = true := by
  have ht := absoluteGap_nonneg hvalid
  have hfresh := sound_fresh sense settings.termination
  -- A fresh ledger is not exhausted: the ends of the order differ.
  have hne : (fresh sense settings.termination).dualBound ≠ sense.worst := by
    intro heq
    have hbetter : sense.better (sense.best : α) sense.worst = true :=
      Scalar.BoundOrder.best_better_worst sense
    change sense.best = sense.worst at heq
    rw [heq, Scalar.BoundOrder.better_irrefl] at hbetter
    exact nomatch hbetter
  rw [(sound_after ht hfresh offers).crossed_iff ht,
    dualBound_after_eq_worst_iff ht hfresh hne offers]

/-- The bound an engine reports for an empty tree, and a solution that turns up afterwards. -/
def lateSolution : List (Offer Float) :=
  [.dual (.ofSearch Scalar.infinity 0), .primal ⟨⟨[5.0], 5.0, none, 1⟩, .fixedInteger⟩]

/-- With the standard settings these two offers make the bounds cross. -/
theorem crossed_after_iff_lateSolution :
    (Settings.standard : Settings Float).validate = .ok () ∧
      ((fresh .minimize (Settings.standard : Settings Float).termination).after
        lateSolution).crossed = true := by
  have hvalid : (Settings.standard : Settings Float).validate = .ok () :=
    (Settings.validate_eq_ok_iff _).2 (List.all_eq_true.1 (by decide +kernel))
  have hexhausting : (fresh .minimize (Settings.standard : Settings Float).termination).Exhausting
      lateSolution := ⟨[], _, _, rfl, rfl, rfl⟩
  exact ⟨hvalid, (crossed_after_iff hvalid .minimize lateSolution).2
    ⟨hexhausting, by decide +kernel, by decide +kernel⟩⟩

/-- Bounds are not in order at all times: nothing is too good for the bound of an empty
    tree. -/
theorem not_always_in_order :
    ¬ ∀ (settings : Settings Float) (sense : Sense) (offers : List (Offer Float)),
      settings.validate = .ok () →
      ((fresh sense settings.termination).after offers).crossed = false := by
  intro hall
  have hvalid : (Settings.standard : Settings Float).validate = .ok () :=
    (Settings.validate_eq_ok_iff _).2 (List.all_eq_true.1 (by decide +kernel))
  have hcrossed : ((fresh .minimize (Settings.standard : Settings Float).termination).after
      lateSolution).crossed = true := by decide +kernel
  rw [hall _ .minimize lateSolution hvalid] at hcrossed
  exact nomatch hcrossed

end BoundLedger

end OuterApprox
