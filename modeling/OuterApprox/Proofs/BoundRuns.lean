import OuterApprox.Proofs.BoundCrossing
import OuterApprox.Proofs.NumberOrder

/-!
# What offers add up to

A bound ledger after any number of offers. Of a single offer three things can be
said whatever the ledger is like: the caller is told whether the bound moved, the
bound moves only to something strictly better, and the offer is entered at the end
of its history. By induction on the offers, bounds never get worse.

What the dual bound stands for takes an argument, because it need not be one of the
values offered: one beyond the primal bound is cut to it. Cutting only ever takes
a value back, so whatever all offered values admit, the bound admits too.

If no dual value is beyond a feasible primal one, the ledger does nothing but take
extremes. Then neither the test of a primal value nor the cut of a dual one can
apply, for the values they compare with have themselves been offered, and the order
of the offers does not matter. Nothing here needs the values to be finite; ties and
infinite values are settled by the laws of `Scalar.NumberOrder`.

## Main definitions

* `BoundLedger.answer`: What a caller is told about an offer.
* `BoundLedger.Offer.primalValue?`, `BoundLedger.Offer.dualValue?`: The numbers that
  offers bring, infeasible solutions left out.
* `BoundLedger.Consistent`: No dual value is beyond a primal one.
* `BoundLedger.Extremal`: The bounds are the extremes of the values offered.

## Theorems

* `BoundLedger.answer_primal_iff`, `BoundLedger.answer_dual_iff`: The answer tells
  whether the bound improved.
* `BoundLedger.Defined.primalBound_asGood_after`,
  `BoundLedger.Defined.asGood_dualBound_after`: Bounds never get worse.
* `BoundLedger.dualBound_asGood_of_offered`: The dual bound claims no more than what
  was offered.
* `BoundLedger.runs_monotone_sound`: All of this for every run.
* `BoundLedger.extremal_after`: Consistent offers lead to their extremes.
* `BoundLedger.consistent_order_irrelevant`: In any order.
-/

namespace OuterApprox

namespace BoundLedger

variable {α : Type} [Scalar α]

/-- Whether an offer moves the bound it is for, which is what the caller is told. -/
def answer (l : BoundLedger α) : Offer α → Bool
  | .primal s => l.judgePrimal s.candidate == .accepted
  | .dual d => l.judgeDual d.value == .accepted || l.judgeDual d.value == .clamped

/-- A candidate is accepted if none of the four tests turns it down. -/
theorem judgePrimal_eq_accepted_iff (l : BoundLedger α) (c : Candidate α) :
    l.judgePrimal c = .accepted ↔ c.isFeasible l.constraintTolerance = true ∧
      Scalar.isUndefined c.objective = false ∧ l.improvesPrimal c.objective = true ∧
      l.crossesDual c.objective = false := by
  unfold judgePrimal
  cases c.isFeasible l.constraintTolerance <;> cases Scalar.isUndefined c.objective <;>
    cases l.improvesPrimal c.objective <;> cases l.crossesDual c.objective <;> decide

/-- A dual value is taken as it is. -/
theorem judgeDual_eq_accepted_iff (l : BoundLedger α) (v : α) :
    l.judgeDual v = .accepted ↔ Scalar.isUndefined v = false ∧ l.improvesDual v = true ∧
      l.crossesPrimal v = false := by
  unfold judgeDual
  cases Scalar.isUndefined v <;> cases l.improvesDual v <;> cases l.crossesPrimal v <;>
    cases l.improvesDual l.primalBound <;> decide

/-- A dual value is cut to the primal bound. -/
theorem judgeDual_eq_clamped_iff (l : BoundLedger α) (v : α) :
    l.judgeDual v = .clamped ↔ Scalar.isUndefined v = false ∧ l.improvesDual v = true ∧
      l.crossesPrimal v = true ∧ l.improvesDual l.primalBound = true := by
  unfold judgeDual
  cases Scalar.isUndefined v <;> cases l.improvesDual v <;> cases l.crossesPrimal v <;>
    cases l.improvesDual l.primalBound <;> decide

/-! ## One offer -/

/-- A primal offer moves its bound if it is accepted. -/
theorem answer_primal_eq_true_iff (l : BoundLedger α) (s : PrimalSolution α) :
    l.answer (.primal s) = true ↔ l.judgePrimal s.candidate = .accepted :=
  beq_iff_eq

/-- A dual bound moves to the value offered or to the primal bound, or stays. -/
theorem offerDual_cases (l : BoundLedger α) (d : DualBound α) :
    (l.judgeDual d.value = .accepted ∧ l.answer (.dual d) = true ∧
      (l.offerDual d).dualBound = d.value) ∨
    (l.judgeDual d.value = .clamped ∧ l.answer (.dual d) = true ∧
      (l.offerDual d).dualBound = l.primalBound) ∨
    (l.answer (.dual d) = false ∧ (l.offerDual d).dualBound = l.dualBound) := by
  simp only [offerDual, answer]
  cases h : l.judgeDual d.value
  case accepted => exact .inl ⟨rfl, rfl, rfl⟩
  case clamped => exact .inr (.inl ⟨rfl, rfl, rfl⟩)
  case absorbed => exact .inr (.inr ⟨rfl, rfl⟩)
  case notImproving => exact .inr (.inr ⟨rfl, rfl⟩)

/-- Every primal offer is entered in its history, accepted or not. -/
@[simp] theorem primalHistory_offerPrimal (l : BoundLedger α) (s : PrimalSolution α) :
    (l.offerPrimal s).primalHistory = l.primalHistory ++ [s] := by
  unfold offerPrimal
  split <;> rfl

/-- A primal offer is not entered in the other history. -/
@[simp] theorem dualHistory_offerPrimal (l : BoundLedger α) (s : PrimalSolution α) :
    (l.offerPrimal s).dualHistory = l.dualHistory := by
  unfold offerPrimal
  split <;> rfl

/-- Nor is a dual offer. -/
@[simp] theorem primalHistory_offerDual (l : BoundLedger α) (d : DualBound α) :
    (l.offerDual d).primalHistory = l.primalHistory := by
  unfold offerDual
  split <;> rfl

/-- Every dual offer is entered in its history. -/
@[simp] theorem dualHistory_offerDual (l : BoundLedger α) (d : DualBound α) :
    (l.offerDual d).dualHistory = l.dualHistory ++ [d] := by
  unfold offerDual
  split <;> rfl

/-- An offer that is turned down changes neither the bounds nor the incumbent. -/
theorem offer_of_answer_false {l : BoundLedger α} {o : Offer α} (h : l.answer o = false) :
    (l.offer o).primalBound = l.primalBound ∧ (l.offer o).dualBound = l.dualBound ∧
      (l.offer o).incumbent = l.incumbent := by
  cases o with
  | primal s =>
    have hrejected : l.judgePrimal s.candidate ≠ .accepted :=
      mt (l.answer_primal_eq_true_iff s).2 (Bool.eq_false_iff.1 h)
    rcases l.offerPrimal_cases s with ⟨haccepted, -⟩ | ⟨hb, hi⟩
    · exact absurd haccepted hrejected
    · exact ⟨hb, dualBound_offerPrimal l s, hi⟩
  | dual d =>
    refine ⟨primalBound_offerDual l d, ?_, incumbent_offerDual l d⟩
    rcases l.offerDual_cases d with ⟨-, htrue, -⟩ | ⟨-, htrue, -⟩ | ⟨-, hb⟩
    · rw [h] at htrue
      exact nomatch htrue
    · rw [h] at htrue
      exact nomatch htrue
    · exact hb

/-- What no offer changes. -/
theorem kept_offer (l : BoundLedger α) (o : Offer α) :
    (l.offer o).sense = l.sense ∧ (l.offer o).constraintTolerance = l.constraintTolerance ∧
      (l.offer o).absoluteTolerance = l.absoluteTolerance := by
  cases o with
  | primal s =>
    exact ⟨sense_offerPrimal l s, constraintTolerance_offerPrimal l s,
      absoluteTolerance_offerPrimal l s⟩
  | dual d =>
    exact ⟨sense_offerDual l d, constraintTolerance_offerDual l d,
      absoluteTolerance_offerDual l d⟩

/-- What no list of offers changes. -/
theorem kept_after (l : BoundLedger α) (offers : List (Offer α)) :
    (l.after offers).sense = l.sense ∧
      (l.after offers).constraintTolerance = l.constraintTolerance ∧
      (l.after offers).absoluteTolerance = l.absoluteTolerance := by
  induction offers generalizing l with
  | nil => exact ⟨rfl, rfl, rfl⟩
  | cons o rest ih =>
    obtain ⟨hsense, hconstraint, habsolute⟩ := l.kept_offer o
    obtain ⟨hsense', hconstraint', habsolute'⟩ := ih (l.offer o)
    exact ⟨hsense'.trans hsense, hconstraint'.trans hconstraint, habsolute'.trans habsolute⟩

/-! ## What offers bring -/

/-- The number a primal offer brings, if it is feasible within a tolerance. -/
def Offer.primalValue? (tolerance : α) : Offer α → Option α
  | .primal s =>
    if s.candidate.isFeasible tolerance && !Scalar.isUndefined s.candidate.objective then
      some s.candidate.objective
    else none
  | .dual _ => none

/-- The number a dual offer brings. -/
def Offer.dualValue? : Offer α → Option α
  | .primal _ => none
  | .dual d => if Scalar.isUndefined d.value then none else some d.value

/-- No dual value is beyond a primal one that is feasible within a tolerance. -/
def Consistent (sense : Sense) (tolerance : α) (offers : List (Offer α)) : Prop :=
  ∀ p ∈ offers.filterMap (Offer.primalValue? tolerance), ∀ d ∈ offers.filterMap Offer.dualValue?,
    sense.asGood d p = true

/-- A number that is brought by an offer is that of a feasible candidate. -/
theorem primalValue?_eq_some {tolerance v : α} {o : Offer α}
    (h : o.primalValue? tolerance = some v) : ∃ s, o = .primal s ∧ s.candidate.objective = v ∧
      s.candidate.isFeasible tolerance = true ∧ Scalar.isUndefined v = false := by
  cases o with
  | primal s =>
    simp only [Offer.primalValue?, Option.ite_none_right_eq_some, Bool.and_eq_true,
      Bool.not_eq_true', Option.some.injEq] at h
    obtain ⟨⟨hfeasible, hdefined⟩, rfl⟩ := h
    exact ⟨s, rfl, rfl, hfeasible, hdefined⟩
  | dual d => exact nomatch h

/-- Fewer offers are consistent too. -/
theorem Consistent.left {sense : Sense} {tolerance : α} {offers more : List (Offer α)}
    (h : Consistent sense tolerance (offers ++ more)) : Consistent sense tolerance offers := by
  intro p hp d hd
  refine h p ?_ d ?_
  · rw [List.filterMap_append]
    exact List.mem_append_left _ hp
  · rw [List.filterMap_append]
    exact List.mem_append_left _ hd

/-- Consistency does not depend on the order. -/
theorem Consistent.perm {sense : Sense} {tolerance : α} {offers offers' : List (Offer α)}
    (h : Consistent sense tolerance offers) (hperm : offers'.Perm offers) :
    Consistent sense tolerance offers' := by
  intro p hp d hd
  exact h p ((hperm.filterMap _).mem_iff.1 hp) d ((hperm.filterMap _).mem_iff.1 hd)

variable [Scalar.NumberOrder α] {l : BoundLedger α}

/-- A primal offer moves the bound exactly if the bound is better afterwards. -/
theorem answer_primal_iff (s : PrimalSolution α) : l.answer (.primal s) = true ↔
    l.sense.better (l.offer (.primal s)).primalBound l.primalBound = true := by
  constructor
  · intro h
    have haccepted := (l.answer_primal_eq_true_iff s).1 h
    have hnew : (l.offerPrimal s).primalBound = s.candidate.objective := by
      rw [offerPrimal, haccepted]
    rw [offer, hnew]
    exact (judgePrimal_accepted haccepted).2
  · intro h
    -- An offer that was turned down leaves the bound, and no bound is better than itself.
    by_contra hfalse
    rw [(offer_of_answer_false (Bool.not_eq_true _ ▸ hfalse)).1,
      Scalar.BoundOrder.better_irrefl] at h
    exact absurd h Bool.false_ne_true

/-- A dual offer moves the bound exactly if the bound is worse afterwards. -/
theorem answer_dual_iff (d : DualBound α) : l.answer (.dual d) = true ↔
    l.sense.better l.dualBound (l.offer (.dual d)).dualBound = true := by
  rw [offer]
  rcases l.offerDual_cases d with ⟨hjudge, htrue, hb⟩ | ⟨hjudge, htrue, hb⟩ | ⟨hfalse, hb⟩
  · rw [htrue, hb]
    exact ⟨fun _ => ((l.judgeDual_eq_accepted_iff _).1 hjudge).2.1, fun _ => rfl⟩
  · rw [htrue, hb]
    exact ⟨fun _ => ((l.judgeDual_eq_clamped_iff _).1 hjudge).2.2.2, fun _ => rfl⟩
  · rw [hfalse, hb, Scalar.BoundOrder.better_irrefl]

/-! ## Any number of offers -/

/-- Neither bound is undefined. -/
def Defined (l : BoundLedger α) : Prop :=
  Scalar.isUndefined l.primalBound = false ∧ Scalar.isUndefined l.dualBound = false

/-- The bounds of a fresh ledger are the ends of the order. -/
theorem defined_fresh (sense : Sense) (t : TerminationSettings α) : (fresh sense t).Defined :=
  ⟨sense.defined_worst, sense.defined_best⟩

-- A bound that moves is better than it was, and so it can be compared.
theorem Defined.offer (h : l.Defined) (o : Offer α) : (l.offer o).Defined := by
  by_cases hanswer : l.answer o = true
  · cases o with
    | primal s =>
      refine ⟨?_, (dualBound_offerPrimal l s).symm ▸ h.2⟩
      exact (Scalar.BoundOrder.defined_of_better _ ((answer_primal_iff s).1 hanswer)).1
    | dual d =>
      refine ⟨(primalBound_offerDual l d).symm ▸ h.1, ?_⟩
      exact (Scalar.BoundOrder.defined_of_better _ ((answer_dual_iff d).1 hanswer)).2
  · obtain ⟨hprimal, hdual, -⟩ := offer_of_answer_false (Bool.not_eq_true _ ▸ hanswer)
    exact ⟨hprimal.symm ▸ h.1, hdual.symm ▸ h.2⟩

/-- No offers take the bounds out of the order. -/
theorem Defined.after (h : l.Defined) (offers : List (Offer α)) : (l.after offers).Defined := by
  induction offers generalizing l with
  | nil => exact h
  | cons o rest ih => exact ih (h.offer o)

/-- One offer makes the primal bound no worse. -/
theorem Defined.primalBound_asGood_offer (h : l.Defined) (o : Offer α) :
    l.sense.asGood (l.offer o).primalBound l.primalBound = true := by
  cases o with
  | primal s =>
    by_cases hanswer : l.answer (.primal s) = true
    · exact l.sense.asGood_of_better ((answer_primal_iff s).1 hanswer)
    · rw [(offer_of_answer_false (Bool.not_eq_true _ ▸ hanswer)).1]
      exact l.sense.asGood_refl h.1
  | dual d =>
    rw [BoundLedger.offer, primalBound_offerDual]
    exact l.sense.asGood_refl h.1

/-- One offer makes the dual bound claim no more. -/
theorem Defined.asGood_dualBound_offer (h : l.Defined) (o : Offer α) :
    l.sense.asGood l.dualBound (l.offer o).dualBound = true := by
  cases o with
  | primal s =>
    rw [BoundLedger.offer, dualBound_offerPrimal]
    exact l.sense.asGood_refl h.2
  | dual d =>
    by_cases hanswer : l.answer (.dual d) = true
    · exact l.sense.asGood_of_better ((answer_dual_iff d).1 hanswer)
    · rw [(offer_of_answer_false (Bool.not_eq_true _ ▸ hanswer)).2.1]
      exact l.sense.asGood_refl h.2

/-- The same for many, by induction along the list. -/
theorem Defined.primalBound_asGood_after (h : l.Defined) (offers : List (Offer α)) :
    l.sense.asGood (l.after offers).primalBound l.primalBound = true := by
  induction offers generalizing l with
  | nil => exact l.sense.asGood_refl h.1
  | cons o rest ih =>
    have hrest := ih (h.offer o)
    rw [(l.kept_offer o).1] at hrest
    exact l.sense.asGood_trans hrest (h.primalBound_asGood_offer o)

/-- The dual bound after many offers, by the same induction. -/
theorem Defined.asGood_dualBound_after (h : l.Defined) (offers : List (Offer α)) :
    l.sense.asGood l.dualBound (l.after offers).dualBound = true := by
  induction offers generalizing l with
  | nil => exact l.sense.asGood_refl h.2
  | cons o rest ih =>
    have hrest := ih (h.offer o)
    rw [(l.kept_offer o).1] at hrest
    exact l.sense.asGood_trans (h.asGood_dualBound_offer o) hrest

/-- Whatever the dual bound and all dual values offered admit, the new dual bound
    admits. -/
theorem dualBound_asGood_of_offered {z : α} (hz : l.sense.asGood l.dualBound z = true)
    (offers : List (Offer α))
    (hoffers : ∀ d, Offer.dual d ∈ offers → Scalar.isUndefined d.value = false →
      l.sense.asGood d.value z = true) :
    l.sense.asGood (l.after offers).dualBound z = true := by
  induction offers generalizing l with
  | nil => exact hz
  | cons o rest ih =>
    have hrest : ∀ d, Offer.dual d ∈ rest → Scalar.isUndefined d.value = false →
        l.sense.asGood d.value z = true := fun d hd => hoffers d (List.mem_cons_of_mem _ hd)
    rw [← (l.kept_offer o).1] at hrest ⊢
    -- The induction is for any ledger, so the first offer has to lead to one of the kind.
    refine ih ?_ hrest
    rw [(l.kept_offer o).1]
    cases o with
    | primal s =>
      rw [offer, dualBound_offerPrimal]
      exact hz
    | dual d =>
      rw [offer]
      rcases l.offerDual_cases d with ⟨hjudge, -, hb⟩ | ⟨hjudge, -, hb⟩ | ⟨-, hb⟩
      · rw [hb]
        exact hoffers d List.mem_cons_self ((l.judgeDual_eq_accepted_iff _).1 hjudge).1
      · -- The value was beyond the primal bound, so the primal bound claims less.
        obtain ⟨hdefined, -, hcross, -⟩ := (l.judgeDual_eq_clamped_iff _).1 hjudge
        rw [hb]
        exact l.sense.asGood_trans (l.sense.asGood_of_better hcross)
          (hoffers d List.mem_cons_self hdefined)
      · rw [hb]
        exact hz

/-- After any number of offers to a fresh ledger: the bounds are defined; what a caller is
    told about one more offer is whether it strictly improves its bound, and if not, nothing
    but a history changes; no further offers make a bound worse; one more offer is entered at
    the end of its history and changes nothing else there; and the dual bound claims no more
    than the dual values offered. -/
theorem runs_monotone_sound (sense : Sense) (t : TerminationSettings α)
    (offers : List (Offer α)) :
    let l := (fresh sense t).after offers
    (Scalar.isUndefined l.primalBound = false ∧ Scalar.isUndefined l.dualBound = false) ∧
    ((∀ s, l.answer (.primal s) = true ↔
        sense.better (l.offer (.primal s)).primalBound l.primalBound = true) ∧
      (∀ d, l.answer (.dual d) = true ↔
        sense.better l.dualBound (l.offer (.dual d)).dualBound = true) ∧
      ∀ o, l.answer o = false → (l.offer o).primalBound = l.primalBound ∧
        (l.offer o).dualBound = l.dualBound ∧ (l.offer o).incumbent = l.incumbent) ∧
    (∀ later, sense.asGood (l.after later).primalBound l.primalBound = true ∧
      sense.asGood l.dualBound (l.after later).dualBound = true) ∧
    ((∀ s, (l.offer (.primal s)).primalHistory = l.primalHistory ++ [s] ∧
        (l.offer (.primal s)).dualHistory = l.dualHistory) ∧
      ∀ d, (l.offer (.dual d)).dualHistory = l.dualHistory ++ [d] ∧
        (l.offer (.dual d)).primalHistory = l.primalHistory) ∧
    ∀ z, Scalar.isUndefined z = false →
      (∀ d, Offer.dual d ∈ offers → Scalar.isUndefined d.value = false →
        sense.asGood d.value z = true) →
      sense.asGood l.dualBound z = true := by
  intro l
  have hdefined : l.Defined := (defined_fresh sense t).after offers
  have hsense : l.sense = sense := ((fresh sense t).kept_after offers).1
  refine ⟨hdefined, ⟨?_, ?_, fun o => offer_of_answer_false⟩, fun later => ⟨?_, ?_⟩,
    ⟨fun s => ⟨primalHistory_offerPrimal l s, dualHistory_offerPrimal l s⟩,
      fun d => ⟨dualHistory_offerDual l d, primalHistory_offerDual l d⟩⟩, ?_⟩
  · rw [← hsense]
    exact answer_primal_iff
  · rw [← hsense]
    exact answer_dual_iff
  · rw [← hsense]
    exact hdefined.primalBound_asGood_after later
  · rw [← hsense]
    exact hdefined.asGood_dualBound_after later
  · intro z hz hoffers
    -- The bound of a fresh ledger is the best value, which claims nothing.
    exact dualBound_asGood_of_offered (l := fresh sense t) (sense.best_asGood hz) offers hoffers

/-- A solution, a bound beyond it, and two bounds that are no numbers or no news. -/
def overshot : List (Offer Float) :=
  [.primal ⟨⟨[10.0], 10.0, none, 1⟩, .external⟩, .dual (.ofSearch 12.0 1),
    .dual (.ofSearch Scalar.undefined 1), .dual (.ofSearch 10.0 2)]

/-- The dual bound of this ledger was cut to the primal one. -/
theorem runs_monotone_sound_overshot :
    let l := (fresh .minimize (Settings.standard : Settings Float).termination).after overshot
    (l.dualBound == 10.0) = true ∧ l.dualHistory.length = 3 ∧
      (Scalar.isUndefined l.primalBound = false ∧ Scalar.isUndefined l.dualBound = false) ∧
      Sense.minimize.asGood l.dualBound 12.0 = true ∧
      l.answer (.dual (.ofSearch Scalar.infinity 3)) = false := by
  intro l
  obtain ⟨hdefined, ⟨-, hanswer, -⟩, -, -, hsound⟩ :=
    runs_monotone_sound .minimize (Settings.standard : Settings Float).termination overshot
  refine ⟨by decide +kernel, by decide +kernel, hdefined, ?_, ?_⟩
  · refine hsound 12.0 (by decide +kernel) ?_
    intro d hd hnumber
    simp only [overshot, List.mem_cons, reduceCtorEq, Offer.dual.injEq, false_or,
      List.not_mem_nil, or_false] at hd
    rcases hd with rfl | rfl | rfl
    · decide +kernel
    · exact absurd hnumber (by decide +kernel)
    · decide +kernel
  · rw [Bool.eq_false_iff, Ne, hanswer]
    decide +kernel

/-! ## Consistent offers -/

/-- The bounds of a ledger are the extremes of the values offered: the best primal value and
    the worst dual one, or those of the beginning. -/
structure Extremal (l : BoundLedger α) (offers : List (Offer α)) : Prop where
  /-- The primal bound is the best of the accepted primal values and the worst value there is. -/
  primal : l.sense.IsBest l.primalBound
    (l.sense.worst :: offers.filterMap (Offer.primalValue? l.constraintTolerance))
  /-- The dual bound is the worst of the dual values and the best value there is. -/
  dual : l.sense.IsWorst l.dualBound (l.sense.best :: offers.filterMap Offer.dualValue?)

/-- Of the values at the beginning each is alone. -/
theorem extremal_fresh (sense : Sense) (t : TerminationSettings α) :
    (fresh sense t).Extremal [] where
  primal := Sense.isBest_singleton sense.defined_worst
  dual := Sense.isWorst_singleton sense.defined_best

/-- A primal value that goes with the dual values is not better than the dual bound. -/
theorem Extremal.not_better_dualBound {offers : List (Offer α)} (h : l.Extremal offers) {v : α}
    (hv : ∀ d ∈ offers.filterMap Offer.dualValue?, l.sense.asGood d v = true) :
    l.sense.better v l.dualBound = false := by
  rcases List.mem_cons.1 h.dual.1 with hbest | hmem
  · rw [hbest]
    exact l.sense.not_better_best v
  · exact l.sense.not_better_of_asGood (hv _ hmem)

/-- A dual value that goes with the primal values is not beyond the primal bound. -/
theorem Extremal.not_primalBound_better {offers : List (Offer α)} (h : l.Extremal offers) {v : α}
    (hv : ∀ p ∈ offers.filterMap (Offer.primalValue? l.constraintTolerance),
      l.sense.asGood v p = true) :
    l.sense.better l.primalBound v = false := by
  rcases List.mem_cons.1 h.primal.1 with hworst | hmem
  · rw [hworst]
    exact l.sense.not_better_worst v
  · exact l.sense.not_better_of_asGood (hv _ hmem)

/-- A primal offer that goes with the dual values keeps the bounds extremal. -/
theorem Extremal.offerPrimal {offers : List (Offer α)} (h : l.Extremal offers)
    (ht : 0.0 ≤ l.absoluteTolerance) (s : PrimalSolution α)
    (hcons : ∀ v ∈ (Offer.primal s).primalValue? l.constraintTolerance,
      ∀ d ∈ offers.filterMap Offer.dualValue?, l.sense.asGood d v = true) :
    (l.offerPrimal s).Extremal (offers ++ [.primal s]) := by
  constructor
  -- It brings no dual value.
  case dual =>
    rw [sense_offerPrimal, dualBound_offerPrimal, List.filterMap_append]
    exact (List.append_nil (offers.filterMap Offer.dualValue?)).symm ▸ h.dual
  rw [sense_offerPrimal, constraintTolerance_offerPrimal, List.filterMap_append,
    List.filterMap_cons, List.filterMap_nil, ← List.cons_append]
  by_cases haccepted : l.judgePrimal s.candidate = .accepted
  -- Accepted, it takes the place of the bound; otherwise the bound is compared with one more
  -- value.
  · obtain ⟨hfeasible, hdefined, himproves, -⟩ := (l.judgePrimal_eq_accepted_iff _).1 haccepted
    have hvalue : (Offer.primal s).primalValue? l.constraintTolerance =
        some s.candidate.objective := by
      rw [Offer.primalValue?, hfeasible, hdefined]
      rfl
    have hnew : (l.offerPrimal s).primalBound = s.candidate.objective := by
      rw [BoundLedger.offerPrimal, haccepted]
    rw [hnew, hvalue]
    exact h.primal.replace (l.sense.asGood_of_better himproves)
  · have hanswer : l.answer (.primal s) = false :=
      Bool.eq_false_iff.2 (mt (l.answer_primal_eq_true_iff s).1 haccepted)
    have hsame : (l.offerPrimal s).primalBound = l.primalBound :=
      (offer_of_answer_false hanswer).1
    rw [hsame]
    cases hvalue : (Offer.primal s).primalValue? l.constraintTolerance with
    | none => simpa only [List.append_nil] using h.primal
    | some v =>
      obtain ⟨_, ⟨⟩, rfl, hfeasible, hdefined⟩ := primalValue?_eq_some hvalue
      -- It crosses nothing, so the only reason to turn it down is that it is no better.
      have hcross : l.crossesDual s.candidate.objective = false := by
        by_contra hc
        rw [Bool.not_eq_false, crossesDual, Bool.and_eq_true] at hc
        have hbetter := Scalar.BoundOrder.better_of_improve l.sense ht hc.2
        rw [h.not_better_dualBound (hcons _ hvalue)] at hbetter
        exact absurd hbetter Bool.false_ne_true
      have hno : l.improvesPrimal s.candidate.objective = false := by
        by_contra hc
        exact haccepted ((l.judgePrimal_eq_accepted_iff _).2
          ⟨hfeasible, hdefined, Bool.not_eq_false _ ▸ hc, hcross⟩)
      exact h.primal.concat (l.sense.asGood_iff.2 ⟨h.primal.defined, hdefined, hno⟩)

/-- A dual offer that goes with the primal values keeps the bounds extremal. -/
theorem Extremal.offerDual {offers : List (Offer α)} (h : l.Extremal offers) (d : DualBound α)
    (hcons : ∀ v ∈ (Offer.dual d).dualValue?,
      ∀ p ∈ offers.filterMap (Offer.primalValue? l.constraintTolerance),
        l.sense.asGood v p = true) :
    (l.offerDual d).Extremal (offers ++ [.dual d]) := by
  constructor
  case primal =>
    rw [sense_offerDual, constraintTolerance_offerDual, primalBound_offerDual,
      List.filterMap_append]
    exact (List.append_nil (offers.filterMap _)).symm ▸ h.primal
  rw [sense_offerDual, List.filterMap_append, List.filterMap_cons, List.filterMap_nil,
    ← List.cons_append]
  cases hundefined : Scalar.isUndefined d.value with
  -- Not a number, it brings no value and is passed over.
  | true =>
    have hvalue : (Offer.dual d).dualValue? = none := if_pos hundefined
    have hsame : (l.offerDual d).dualBound = l.dualBound := by
      rw [dualBound_offerDual, hundefined, Bool.true_or, if_pos rfl]
    rw [hvalue, hsame]
    simpa only [List.append_nil] using h.dual
  | false =>
    have hvalue : (Offer.dual d).dualValue? = some d.value :=
      if_neg (by rw [hundefined]; exact Bool.false_ne_true)
    -- It is not beyond the primal bound, so it is not cut.
    have hcross : l.crossesPrimal d.value = false := h.not_primalBound_better (hcons _ hvalue)
    rw [hvalue, dualBound_offerDual, hundefined, Bool.false_or, hcross]
    cases himproves : l.improvesDual d.value with
    | true => exact h.dual.replace (l.sense.asGood_of_better himproves)
    | false => exact h.dual.concat (l.sense.asGood_iff.2 ⟨hundefined, h.dual.defined, himproves⟩)

/-- Consistent offers to a fresh ledger lead to their extremes. -/
theorem extremal_after (sense : Sense) {t : TerminationSettings α} (ht : 0.0 ≤ t.absoluteGap)
    (offers : List (Offer α)) (hcons : Consistent sense t.constraintTolerance offers) :
    ((fresh sense t).after offers).Extremal offers := by
  -- The offers are made one by one, so the induction goes from the end.
  induction offers using List.reverseRecOn with
  | nil => exact extremal_fresh sense t
  | append_singleton offers o ih =>
    have hbefore := ih hcons.left
    obtain ⟨hsense, hconstraint, habsolute⟩ := (fresh sense t).kept_after offers
    rw [after_append_singleton]
    cases o with
    | primal s =>
      refine hbefore.offerPrimal (habsolute ▸ ht) s ?_
      rw [hsense, hconstraint]
      intro v hv d hd
      refine hcons v ?_ d ?_
      · exact List.mem_filterMap.2
          ⟨.primal s, List.mem_append_right _ (List.mem_singleton_self _), hv⟩
      · rw [List.filterMap_append]
        exact List.mem_append_left _ hd
    | dual d =>
      refine hbefore.offerDual d ?_
      rw [hsense, hconstraint]
      intro v hv p hp
      refine hcons p ?_ v ?_
      · rw [List.filterMap_append]
        exact List.mem_append_left _ hp
      · exact List.mem_filterMap.2
          ⟨.dual d, List.mem_append_right _ (List.mem_singleton_self _), hv⟩

/-- If no dual value offered is beyond a feasible primal one, then in whatever order the offers
    come, the primal bound is the best of the primal values, the dual bound is the worst of the
    dual values, and they are the same numbers as in any other order. -/
theorem consistent_order_irrelevant {settings : Settings α} (hvalid : settings.validate = .ok ())
    (sense : Sense) {offers offers' : List (Offer α)}
    (hcons : Consistent sense settings.termination.constraintTolerance offers)
    (hperm : offers'.Perm offers) :
    let l := (fresh sense settings.termination).after offers
    let l' := (fresh sense settings.termination).after offers'
    let values := offers.filterMap
      (Offer.primalValue? settings.termination.constraintTolerance)
    (sense.IsBest l'.primalBound (sense.worst :: values) ∧
      sense.IsWorst l'.dualBound (sense.best :: offers.filterMap Offer.dualValue?)) ∧
      (l'.primalBound == l.primalBound) = true ∧ (l'.dualBound == l.dualBound) = true := by
  intro l l' values
  have hextremal : ∀ other : List (Offer α), other.Perm offers →
      sense.IsBest ((fresh sense settings.termination).after other).primalBound
          (sense.worst :: values) ∧
        sense.IsWorst ((fresh sense settings.termination).after other).dualBound
          (sense.best :: offers.filterMap Offer.dualValue?) := by
    intro other hother
    have hafter := extremal_after sense (absoluteGap_nonneg hvalid) other (hcons.perm hother)
    obtain ⟨hsense, hconstraint, -⟩ := (fresh sense settings.termination).kept_after other
    have hprimal := hafter.primal
    have hdual := hafter.dual
    rw [hsense, hconstraint] at hprimal
    rw [hsense] at hdual
    -- The same values were offered, in another order.
    have hvalues : (other.filterMap _).Perm values := hother.filterMap _
    have hbounds := hother.filterMap (Offer.dualValue? (α := α))
    exact ⟨⟨(hvalues.cons _).mem_iff.1 hprimal.1,
        fun w hw => hprimal.2 w ((hvalues.cons _).mem_iff.2 hw)⟩,
      (hbounds.cons _).mem_iff.1 hdual.1, fun w hw => hdual.2 w ((hbounds.cons _).mem_iff.2 hw)⟩
  obtain ⟨hbest, hworst⟩ := hextremal offers' hperm
  obtain ⟨hbest', hworst'⟩ := hextremal offers (.refl _)
  exact ⟨⟨hbest, hworst⟩, hbest.beq hbest', hworst.beq hworst'⟩

/-- Solutions and bounds that meet, among an infeasible solution, infinite values and values
    that are no numbers. -/
def meeting : List (Offer Float) :=
  [.dual (.ofSearch 2.0 0), .primal ⟨⟨[1.0], 1.0, some ⟨0, 5.0⟩, 1⟩, .external⟩,
    .primal ⟨⟨[4.0], 4.0, none, 1⟩, .lineSearch⟩, .dual (.ofSearch Scalar.undefined 1),
    .primal ⟨⟨[3.0], 3.0, some ⟨0, 0.0⟩, 2⟩, .fixedInteger⟩, .dual (.ofSearch 3.0 2),
    .primal ⟨⟨[], Scalar.infinity, none, 2⟩, .external⟩,
    .primal ⟨⟨[], Scalar.undefined, none, 2⟩, .external⟩, .dual (.ofSearch (-Scalar.infinity) 3)]

/-- The bounds meet in three, from the front and from the back. -/
theorem consistent_order_irrelevant_meeting :
    (Settings.standard : Settings Float).validate = .ok () ∧
      Consistent .minimize (Settings.standard : Settings Float).termination.constraintTolerance
        meeting ∧
      let l := (fresh .minimize (Settings.standard : Settings Float).termination).after meeting
      let l' := (fresh .minimize (Settings.standard : Settings Float).termination).after
        meeting.reverse
      (l.primalBound == 3.0) = true ∧ (l.dualBound == 3.0) = true ∧
        (l'.primalBound == l.primalBound) = true ∧ (l'.dualBound == l.dualBound) = true := by
  have hvalid : (Settings.standard : Settings Float).validate = .ok () :=
    (Settings.validate_eq_ok_iff _).2 (List.all_eq_true.1 (by decide +kernel))
  have hcons : Consistent .minimize
      (Settings.standard : Settings Float).termination.constraintTolerance meeting := by
    unfold Consistent
    decide +kernel
  have hsame := consistent_order_irrelevant hvalid .minimize hcons (List.reverse_perm meeting)
  exact ⟨hvalid, hcons, by decide +kernel, by decide +kernel, hsame.2⟩

end BoundLedger

end OuterApprox
