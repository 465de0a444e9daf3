import OuterApprox.Proofs.BoundRuns
import OuterApprox.Proofs.DoubleReflection

/-!
# Minimization and maximization

A ledger that maximizes does with negated values what a ledger that minimizes does
with the values themselves. To reflect a minimizing ledger is to turn its sense and
to negate every value in it, and reflection commutes with offers: all tests agree,
because each is a comparison with another value or with a difference, and the laws of
`Scalar.Reflective` turn those around. The laws hold of doubles without a bound on
the size of the numbers, for rounding is symmetric.

The gaps are not negated by a reflection but the same, distances being absolute
values. So are the incumbents, apart from the sign of their objective values: a
reflected ledger has them at the same places of its history.

## Main definitions

* `Scalar.Reflective`: The laws of negation.
* `BoundLedger.Offer.negated`: An offer with its value negated.
* `BoundLedger.reflected`: A minimizing ledger, turned around.

## Theorems

* `floatReflective`, `exactReflective`: The laws for both kinds of scalars.
* `BoundLedger.judgePrimal_reflected`, `BoundLedger.judgeDual_reflected`: The same
  becomes of an offer.
* `BoundLedger.offer_reflected`, `BoundLedger.after_reflected`: Reflection commutes
  with offers.
* `BoundLedger.incumbent_after`: The incumbent is in the history.
* `BoundLedger.maximization_mirrors_minimization`: What the two ledgers have in
  common.
-/

namespace OuterApprox

/-- What negation does to the order, to distances and to what is no number. -/
class Scalar.Reflective (α : Type) [Scalar α] : Prop where
  /-- The order is turned around. -/
  neg_lt_neg : ∀ a b : α, -a < -b ↔ b < a
  /-- A sum of negatives compares like the difference. -/
  neg_add_lt_neg : ∀ a b t : α, -b + t < -a ↔ a < b - t
  /-- The infinities are opposite. -/
  neg_neg_infinity : -(-Scalar.infinity : α) = Scalar.infinity
  /-- The negative of a number is one. -/
  isUndefined_neg : ∀ a : α, Scalar.isUndefined (-a) = Scalar.isUndefined a
  /-- The negative of a finite number is finite. -/
  isFinite_neg : ∀ a : α, Scalar.isFinite (-a) = Scalar.isFinite a
  /-- The absolute value forgets the sign. -/
  abs_neg : ∀ a : α, Scalar.abs (-a) = Scalar.abs a
  /-- Negatives are as far apart as the values. -/
  abs_neg_sub_neg : ∀ a b : α, Scalar.abs (-a - -b) = Scalar.abs (a - b)

instance floatReflective : Scalar.Reflective Float where
  neg_lt_neg := DoubleOrder.lt_neg_neg_iff
  neg_add_lt_neg := DoubleOrder.add_lt_neg_iff
  neg_neg_infinity := rfl
  isUndefined_neg := DoubleOrder.isNaN_neg
  isFinite_neg := DoubleOrder.isFinite_neg
  abs_neg := DoubleOrder.abs_neg
  abs_neg_sub_neg := DoubleOrder.abs_neg_sub_neg

namespace Exact

/-- Exact values change places when they are negated. -/
theorem lt_neg_neg_iff (a b : Exact) : -a < -b ↔ b < a := by
  rcases a with q | ⟨_ | _⟩ | _ <;> rcases b with r | ⟨_ | _⟩ | _
  -- Only two numbers need a law; with an infinity both sides evaluate.
  case finite.finite =>
    rw [finite_neg, finite_neg, finite_lt, finite_lt, neg_lt_neg_iff]
  all_goals exact Iff.rfl

/-- The test with a tolerance, read from the other end of the line. -/
theorem add_lt_neg_iff (a b t : Exact) : -b + t < -a ↔ a < b - t := by
  rcases a with q | ⟨_ | _⟩ | _ <;> rcases b with r | ⟨_ | _⟩ | _ <;>
    rcases t with s | ⟨_ | _⟩ | _
  case finite.finite.finite =>
    rw [finite_neg, finite_neg, finite_add, finite_sub, finite_lt, finite_lt, lt_neg,
      neg_add_rev, neg_neg, add_comm, ← sub_eq_add_neg]
  all_goals exact Iff.rfl

/-- Negated values are as far apart as the values. -/
theorem abs_neg_sub_neg (a b : Exact) : Scalar.abs (-a - -b) = Scalar.abs (a - b) := by
  rcases a with q | ⟨_ | _⟩ | _ <;> rcases b with r | ⟨_ | _⟩ | _
  case finite.finite =>
    rw [finite_neg, finite_neg, finite_sub, finite_sub, neg_sub_neg, ← neg_sub q r]
    exact congrArg finite Rat.abs_neg
  all_goals rfl

end Exact

instance exactReflective : Scalar.Reflective Exact where
  neg_lt_neg := Exact.lt_neg_neg_iff
  neg_add_lt_neg := Exact.add_lt_neg_iff
  neg_neg_infinity := rfl
  isUndefined_neg a := by cases a <;> rfl
  isFinite_neg a := by cases a <;> rfl
  abs_neg a := by
    cases a with
    | finite q => exact congrArg Exact.finite Rat.abs_neg
    | infinite s => rfl
    | undefined => rfl
  abs_neg_sub_neg := Exact.abs_neg_sub_neg

namespace Sense

variable {α : Type} [Scalar α] [Scalar.Reflective α]

/-- Maximizing prefers negated values as minimizing prefers the values. -/
theorem better_neg_neg (a b : α) : maximize.better (-a) (-b) = minimize.better a b :=
  decide_eq_decide.2 (Scalar.Reflective.neg_lt_neg b a)

/-- This also holds with an improvement by the same amount. -/
theorem better_neg_improve_neg (a b t : α) :
    maximize.better (-a) (maximize.improve (-b) t) = minimize.better a (minimize.improve b t) :=
  decide_eq_decide.2 (Scalar.Reflective.neg_add_lt_neg a b t)

end Sense

/-- A solution with its objective value negated. -/
def PrimalSolution.negated {α : Type} [Scalar α] (s : PrimalSolution α) : PrimalSolution α :=
  { s with candidate := { s.candidate with objective := -s.candidate.objective } }

/-- A bound with its value negated. -/
def DualBound.negated {α : Type} [Scalar α] (d : DualBound α) : DualBound α :=
  { d with value := -d.value }

namespace BoundLedger

variable {α : Type} [Scalar α]

/-- An offer with its value negated. -/
def Offer.negated : Offer α → Offer α
  | .primal s => .primal s.negated
  | .dual d => .dual d.negated

/-- A ledger that maximizes what this one minimizes, the values being negated. -/
def reflected (l : BoundLedger α) : BoundLedger α :=
  { l with
    sense := .maximize
    primalBound := -l.primalBound
    dualBound := -l.dualBound
    incumbent := l.incumbent.map PrimalSolution.negated
    primalHistory := l.primalHistory.map PrimalSolution.negated
    dualHistory := l.dualHistory.map DualBound.negated }

variable [Scalar.Reflective α] {l : BoundLedger α}

/-- A fresh ledger is mirrored by a fresh one, for its bounds are opposite infinities. -/
theorem fresh_reflected (t : TerminationSettings α) :
    (fresh .minimize t).reflected = fresh .maximize t := by
  unfold fresh reflected
  congr
  exact Scalar.Reflective.neg_neg_infinity

/-- A candidate is judged the same, for only comparisons enter into it. -/
theorem judgePrimal_reflected (h : l.sense = .minimize) (s : PrimalSolution α) :
    l.reflected.judgePrimal s.negated.candidate = l.judgePrimal s.candidate := by
  have hfeasible : s.negated.candidate.isFeasible l.constraintTolerance =
      s.candidate.isFeasible l.constraintTolerance := rfl
  have hobjective : s.negated.candidate.objective = -s.candidate.objective := rfl
  simp only [judgePrimal, improvesPrimal, crossesDual, reflected, h, hfeasible, hobjective,
    Sense.better_neg_neg, Sense.better_neg_improve_neg, Scalar.Reflective.isUndefined_neg,
    Scalar.Reflective.isFinite_neg]

/-- A dual value is judged the same. -/
theorem judgeDual_reflected (h : l.sense = .minimize) (v : α) :
    l.reflected.judgeDual (-v) = l.judgeDual v := by
  simp only [judgeDual, improvesDual, crossesPrimal, reflected, h, Sense.better_neg_neg,
    Scalar.Reflective.isUndefined_neg]

/-- Whoever makes the offers is told the same. -/
theorem answer_reflected (h : l.sense = .minimize) (o : Offer α) :
    l.reflected.answer o.negated = l.answer o := by
  cases o with
  | primal s => simp only [answer, Offer.negated, judgePrimal_reflected h]
  | dual d => simp only [answer, Offer.negated, DualBound.negated, judgeDual_reflected h]

/-- One offer: the ledgers stay mirrored. -/
theorem offer_reflected (h : l.sense = .minimize) (o : Offer α) :
    l.reflected.offer o.negated = (l.offer o).reflected := by
  cases o with
  | primal s =>
    simp only [offer, Offer.negated, offerPrimal, judgePrimal_reflected h]
    -- Whatever the verdict, both ledgers act on it in the same way.
    cases l.judgePrimal s.candidate <;>
      simp only [reflected, List.map_append, List.map_cons, List.map_nil, Option.map_some,
        PrimalSolution.negated]
  | dual d =>
    have hjudge := judgeDual_reflected h d.value
    simp only [offer, Offer.negated, offerDual, DualBound.negated, hjudge]
    cases l.judgeDual d.value <;>
      simp only [reflected, List.map_append, List.map_cons, List.map_nil, DualBound.negated]

/-- Any number of offers, by induction along the list. -/
theorem after_reflected (h : l.sense = .minimize) (offers : List (Offer α)) :
    l.reflected.after (offers.map Offer.negated) = (l.after offers).reflected := by
  induction offers generalizing l with
  | nil => rfl
  | cons o rest ih =>
    have hrest := ih ((l.kept_offer o).1.trans h)
    rw [← offer_reflected h] at hrest
    exact hrest

/-! ## Gaps -/

/-- Both bounds are finite in one ledger if they are in the other. -/
theorem boundsFinite_reflected (l : BoundLedger α) :
    l.reflected.boundsFinite = l.boundsFinite := by
  simp only [boundsFinite, reflected, Scalar.Reflective.isFinite_neg]

/-- The gap is a distance. -/
theorem absoluteGap_reflected (l : BoundLedger α) : l.reflected.absoluteGap = l.absoluteGap := by
  unfold absoluteGap
  rw [boundsFinite_reflected]
  simp only [reflected, Scalar.Reflective.abs_neg_sub_neg]

/-- The relative gap is a distance by an absolute value. -/
theorem relativeGap_reflected (l : BoundLedger α) : l.reflected.relativeGap = l.relativeGap := by
  unfold relativeGap
  rw [boundsFinite_reflected]
  simp only [reflected, Scalar.Reflective.abs_neg_sub_neg, Scalar.Reflective.abs_neg]

/-- So the tests of the absolute gaps agree. -/
theorem absoluteGapMet_reflected (l : BoundLedger α) :
    l.reflected.absoluteGapMet = l.absoluteGapMet := by
  unfold absoluteGapMet
  rw [boundsFinite_reflected, absoluteGap_reflected]
  rfl

/-- So do the tests of the relative gaps. -/
theorem relativeGapMet_reflected (l : BoundLedger α) :
    l.reflected.relativeGapMet = l.relativeGapMet := by
  unfold relativeGapMet
  rw [boundsFinite_reflected, relativeGap_reflected]
  rfl

/-! ## Histories -/

omit [Scalar.Reflective α] in
/-- The incumbent, if there is one, is in the history. -/
theorem incumbent_after (sense : Sense) (t : TerminationSettings α) (offers : List (Offer α)) :
    ((fresh sense t).after offers).incumbent = none ∨
      ∃ (k : Nat) (s : PrimalSolution α), ((fresh sense t).after offers).primalHistory[k]? = some s ∧
        ((fresh sense t).after offers).incumbent = some s := by
  induction offers using List.reverseRecOn with
  | nil => exact .inl rfl
  | append_singleton offers o ih =>
    rw [after_append_singleton]
    generalize (fresh sense t).after offers = l at *
    cases o with
    | primal s =>
      rw [offer, primalHistory_offerPrimal]
      rcases l.offerPrimal_cases s with ⟨-, -, hi⟩ | ⟨-, hi⟩
      · exact .inr ⟨l.primalHistory.length, s, List.getElem?_concat_length, hi⟩
      · rw [hi]
        refine ih.imp_right ?_
        rintro ⟨k, s', hk, hs'⟩
        refine ⟨k, s', ?_, hs'⟩
        -- Earlier entries stay where they are.
        rw [List.getElem?_append_left (List.getElem?_eq_some_iff.1 hk).1]
        exact hk
    | dual d =>
      rw [offer, primalHistory_offerDual, incumbent_offerDual]
      exact ih

/-- After any offers to a minimizing ledger and the negated offers to a maximizing one: whatever
    is offered next, both tell the same about it; the bounds are negatives of each other; the
    incumbents are the same entries of the histories; and the gaps and the tests of the gaps
    agree. -/
theorem maximization_mirrors_minimization (t : TerminationSettings α) (offers : List (Offer α)) :
    let low := (fresh .minimize t).after offers
    let high := (fresh .maximize t).after (offers.map Offer.negated)
    (∀ o, high.answer o.negated = low.answer o) ∧
      (high.primalBound = -low.primalBound ∧ high.dualBound = -low.dualBound) ∧
      ((low.incumbent = none ∧ high.incumbent = none) ∨
        ∃ (k : Nat) (s : PrimalSolution α), low.primalHistory[k]? = some s ∧ low.incumbent = some s ∧
          high.primalHistory[k]? = some s.negated ∧ high.incumbent = some s.negated) ∧
      (high.absoluteGap = low.absoluteGap ∧ high.relativeGap = low.relativeGap) ∧
      high.absoluteGapMet = low.absoluteGapMet ∧ high.relativeGapMet = low.relativeGapMet := by
  intro low high
  have hsense : low.sense = .minimize := ((fresh .minimize t).kept_after offers).1
  have hhigh : high = low.reflected := by
    change (fresh .maximize t).after (offers.map Offer.negated) = low.reflected
    rw [← fresh_reflected]
    exact after_reflected rfl offers
  rw [hhigh]
  refine ⟨answer_reflected hsense, ⟨rfl, rfl⟩, ?_,
    ⟨absoluteGap_reflected low, relativeGap_reflected low⟩,
    absoluteGapMet_reflected low, relativeGapMet_reflected low⟩
  -- The incumbents are compared by their place in the histories.
  rcases incumbent_after .minimize t offers with hnone | ⟨k, s, hk, hs⟩
  · exact .inl ⟨hnone, congrArg (Option.map PrimalSolution.negated) hnone⟩
  · refine .inr ⟨k, s, hk, hs, ?_, congrArg (Option.map PrimalSolution.negated) hs⟩
    exact (List.getElem?_map).trans (congrArg (Option.map PrimalSolution.negated) hk)

/-- The gap of a maximizing ledger is closed when that of the minimizing one is. -/
theorem maximization_mirrors_minimization_overshot :
    let high := (fresh .maximize (Settings.standard : Settings Float).termination).after
      (overshot.map Offer.negated)
    (high.primalBound == -10.0) = true ∧ high.absoluteGapMet = true ∧
      high.answer (.primal ⟨⟨[9.0], -9.0, none, 1⟩, .external⟩) = false := by
  intro high
  obtain ⟨hanswer, ⟨hprimal, -⟩, -, -, hmet, -⟩ :=
    maximization_mirrors_minimization (Settings.standard : Settings Float).termination overshot
  refine ⟨?_, ?_, ?_⟩
  · rw [hprimal]
    decide +kernel
  · rw [hmet]
    decide +kernel
  · have hnext := hanswer (.primal ⟨⟨[9.0], 9.0, none, 1⟩, .external⟩)
    refine hnext.trans ?_
    decide +kernel

end BoundLedger

end OuterApprox
