import OuterApprox.Proofs.Depth
import OuterApprox.Proofs.Masking

/-!
# The ranking of violated constraints

Two computations look for the worst constraint at a point. One folds the list of values and
keeps the first of equal ones. The other filters the list and sorts what is left, and takes the
first of the result. Both pick the same constraint, because there is only one order behind them:
larger values first, and equal values by position. The fold finds the first in this order, since
positions increase along the list. The sort leaves the list in this order, since it is stable.

Values are compared as numbers, which leaves the undefined value out. The order that the sort
is given is total only without it. The values that are sorted are numbers if all right-hand
sides are finite, where the function has a value and where it has none.

## Main definitions

* `Deviation.Precedes`: The order of the ranking.
* `Deviation.ranks`: The same as a test that is total, undefined values last.
* `Problem.DeviatesBy`: The deviations of a point.

## Theorems

* `pairwise_mergeSort_of_increasing`: A stable sort keeps positions in order.
* `Deviation.pairwise_precedes_mergeSort`: The sort that is used gives the ranking.
* `ConstraintValue.worst?_precedes`: The fold finds the first of it.
* `Problem.mostDeviating_ranked`: The constraints worth linearizing, and their order.
-/

namespace OuterApprox

/-! ## Sorting -/

/-- A stable sort leaves the elements that are equal to it in their order. -/
theorem pairwise_mergeSort_of_increasing {β : Type} {le : β → β → Bool}
    (trans : ∀ a b c, le a b = true → le b c = true → le a c = true)
    (total : ∀ a b, (le a b || le b a) = true) (key : β → Nat) {l : List β}
    (h : l.Pairwise fun a b => key a < key b) :
    (l.mergeSort le).Pairwise fun a b => le a b = true ∧ (le b a = true → key a < key b) := by
  induction l with
  | nil =>
      rw [List.mergeSort_nil]
      exact List.Pairwise.nil
  | cons first rest ih =>
      obtain ⟨hfirst, hrest⟩ := List.pairwise_cons.1 h
      -- The first element is inserted behind the elements that it is not as good as.
      obtain ⟨before, behind, hall, hothers, hbefore⟩ :=
        List.mergeSort_cons trans total first rest
      have hsorted := List.pairwise_mergeSort trans total (first :: rest)
      have hkeys := ih hrest
      have hbehind : ∀ b ∈ behind, b ∈ rest := fun b hb =>
        List.mem_mergeSort.1 (hothers ▸ List.mem_append_right before hb)
      rw [hall, List.pairwise_append, List.pairwise_cons] at hsorted
      rw [hothers, List.pairwise_append] at hkeys
      rw [hall, List.pairwise_append, List.pairwise_cons]
      refine ⟨hkeys.1, ⟨fun b hb => ⟨hsorted.2.1.1 b hb, fun _ => hfirst b (hbehind b hb)⟩,
        hkeys.2.1⟩, fun a ha => List.forall_mem_cons.2 ⟨?_, hkeys.2.2 a ha⟩⟩
      refine ⟨hsorted.2.2 a ha first List.mem_cons_self, fun hle => ?_⟩
      have hnot := hbefore a ha
      rw [hle] at hnot
      exact nomatch hnot

variable {α : Type} [Scalar α]

namespace Deviation

/-- A deviation that is larger, or equal and of an earlier constraint. -/
def Precedes (a b : Deviation α) : Prop :=
  b.value ≤ a.value ∧ (a.value ≤ b.value → a.constraint < b.constraint)

/-- Whether a deviation is at least as large as another one, undefined ones being smallest. -/
def ranks (a b : Deviation α) : Bool :=
  Scalar.isUndefined b.value || decide (b.value ≤ a.value)

variable {a b c : Deviation α}

theorem Precedes.asymm (hab : a.Precedes b) (hba : b.Precedes a) : False :=
  Nat.lt_asymm (hab.2 hba.1) (hba.2 hab.1)

theorem ranks_eq (h : Scalar.isUndefined b.value = false) :
    a.ranks b = decide (b.value ≤ a.value) := by rw [ranks, h, Bool.false_or]

variable [Scalar.NumberOrder α]

theorem ranks_trans (a b c : Deviation α) (hab : a.ranks b = true) (hbc : b.ranks c = true) :
    a.ranks c = true := by
  cases hc : Scalar.isUndefined c.value with
  | true => rw [ranks, hc, Bool.true_or]
  | false =>
      rw [ranks_eq hc, decide_eq_true_eq] at hbc ⊢
      have hb := (Scalar.NumberOrder.defined_of_le hbc).2
      rw [ranks_eq hb, decide_eq_true_eq] at hab
      exact Scalar.NumberOrder.le_trans hbc hab

theorem ranks_total (a b : Deviation α) : (a.ranks b || b.ranks a) = true := by
  rw [Bool.or_eq_true]
  cases ha : Scalar.isUndefined a.value with
  | true => exact .inr (by rw [ranks, ha, Bool.true_or])
  | false =>
      cases hb : Scalar.isUndefined b.value with
      | true => exact .inl (by rw [ranks, hb, Bool.true_or])
      | false =>
          rw [ranks_eq ha, ranks_eq hb, decide_eq_true_eq, decide_eq_true_eq]
          by_cases hle : b.value ≤ a.value
          · exact .inl hle
          · exact .inr (Scalar.NumberOrder.le_of_lt (Scalar.NumberOrder.lt_of_not_le hb ha hle))

/-- Sorting numbers by size, largest first, ranks them. -/
theorem pairwise_precedes_mergeSort {l : List (Deviation α)}
    (hdefined : ∀ d ∈ l, Scalar.isUndefined d.value = false)
    (hincreasing : l.Pairwise fun a b => a.constraint < b.constraint) :
    (l.mergeSort fun a b => decide (b.value ≤ a.value)).Pairwise Precedes := by
  have hsame : (l.mergeSort fun a b => decide (b.value ≤ a.value)) = l.mergeSort ranks := by
    have hmap := List.map_mergeSort (f := id)
      (r := fun a b : Deviation α => decide (b.value ≤ a.value)) (s := ranks) (l := l)
      fun a _ b hb => (ranks_eq (hdefined b hb)).symm
    rwa [List.map_id, List.map_id] at hmap
  rw [hsame]
  have hsorted := pairwise_mergeSort_of_increasing ranks_trans ranks_total constraint hincreasing
  refine hsorted.imp_of_mem fun {a b} ha hb hab => ?_
  rw [List.mem_mergeSort] at ha hb
  rw [ranks_eq (hdefined a ha), ranks_eq (hdefined b hb), decide_eq_true_eq,
    decide_eq_true_eq] at hab
  exact hab

end Deviation

namespace ConstraintValue

theorem worst?_eq_none_iff {vs : List (ConstraintValue α)} : worst? vs = none ↔ vs = [] := by
  cases vs with
  | nil => exact iff_of_true rfl rfl
  | cons first rest => exact iff_of_false (Option.some_ne_none _) (List.cons_ne_nil first rest)

/-- Along increasing positions, the largest value precedes all others. -/
theorem worst?_precedes [Scalar.NumberOrder α] {vs : List (ConstraintValue α)}
    (hdefined : ∀ v ∈ vs, Scalar.isUndefined v.normalized = false)
    (hincreasing : vs.Pairwise fun a b => a.constraint < b.constraint)
    {top : ConstraintValue α} (htop : worst? vs = some top) :
    ∀ v ∈ vs, v = top ∨ top.toDeviation.Precedes v.toDeviation := by
  induction vs using List.reverseRecOn generalizing top with
  | nil => exact nomatch htop
  | append_singleton vs v ih =>
      rw [List.pairwise_append] at hincreasing
      have hv := hdefined v (List.mem_append_right _ List.mem_cons_self)
      have hvs : ∀ w ∈ vs, Scalar.isUndefined w.normalized = false :=
        fun w hw => hdefined w (List.mem_append_left _ hw)
      rw [worst?_concat, Option.some.injEq] at htop
      rw [List.forall_mem_append, List.forall_mem_singleton]
      cases hold : worst? vs with
      | none =>
          rw [hold, Option.elim_none] at htop
          refine ⟨fun w hw => absurd hold ?_, .inl htop⟩
          exact mt worst?_eq_none_iff.1 (List.ne_nil_of_mem hw)
      | some old =>
          rw [hold, Option.elim_some] at htop
          have hmem := worst?_mem hold
          have hfirst := ih hvs hincreasing.1 hold
          unfold larger at htop
          split at htop
          next hle =>
            subst htop
            have hearlier := hincreasing.2.2 old hmem v List.mem_cons_self
            exact ⟨hfirst, .inr ⟨hle, fun _ => hearlier⟩⟩
          next hnot =>
            subst htop
            refine ⟨fun w hw => .inr ?_, .inl rfl⟩
            -- What precedes or is the old one is below the new one.
            have hlt := Scalar.NumberOrder.lt_of_not_le hv (hvs old hmem) hnot
            have hle : w.normalized ≤ old.normalized := by
              rcases hfirst w hw with rfl | h
              · exact Scalar.NumberOrder.le_refl (hvs w hw)
              · exact h.1
            have hbelow := Scalar.NumberOrder.lt_of_le_of_lt hle hlt
            exact ⟨Scalar.NumberOrder.le_of_lt hbelow,
              fun h => absurd h ((Scalar.NumberOrder.lt_iff _ _).1 hbelow).2⟩

end ConstraintValue

namespace Problem

/-- The deviation of a constraint at a point. -/
def DeviatesBy (p : Problem α) (x : Point α) (d : Deviation α) : Prop :=
  ∃ c, p.constraints[d.constraint]? = some c ∧ d.value = (c.valueAt d.constraint x).normalized

variable {p : Problem α} {x : Point α}

theorem deviatesBy_iff {d : Deviation α} :
    p.DeviatesBy x d ↔ ∃ v ∈ p.valuesAt x p.constraintIndices, v.toDeviation = d := by
  constructor
  · rintro ⟨c, hc, hd⟩
    refine ⟨c.valueAt d.constraint x, mem_valuesAt_iff.2 ⟨_, c, hc, rfl⟩, ?_⟩
    rw [ConstraintValue.toDeviation, ← hd]
    rfl
  · rintro ⟨v, hv, rfl⟩
    obtain ⟨i, c, hc, rfl⟩ := mem_valuesAt_iff.1 hv
    exact ⟨c, hc, rfl⟩

/-- The constraints are looked at from the first to the last. -/
theorem pairwise_valuesAt (p : Problem α) (x : Point α) :
    (p.valuesAt x p.constraintIndices).Pairwise fun a b => a.constraint < b.constraint := by
  rw [valuesAt, List.pairwise_map, constraintsAt, List.pairwise_filterMap]
  refine List.pairwise_lt_range.imp fun {i j} hij a ha b hb => ?_
  obtain ⟨c, -, rfl⟩ := Option.map_eq_some_iff.1 ha
  obtain ⟨c', -, rfl⟩ := Option.map_eq_some_iff.1 hb
  exact hij

/-- What is worth linearizing where the largest deviation is not at most zero. -/
theorem mem_mostDeviating_iff {top : ConstraintValue α}
    (htop : p.maxValue? x p.constraintIndices = some top) (hpos : ¬ top.normalized ≤ 0.0)
    (factor : α) {d : Deviation α} : d ∈ p.mostDeviating x factor ↔
      p.DeviatesBy x d ∧ 0.0 < d.value ∧ factor * top.normalized ≤ d.value := by
  simp only [mostDeviating, htop, if_neg hpos, List.mem_mergeSort, List.mem_map,
    List.mem_filter, Bool.and_eq_true, decide_eq_true_eq, deviatesBy_iff]
  constructor
  · rintro ⟨v, ⟨hv, hlarge⟩, rfl⟩
    exact ⟨⟨v, hv, rfl⟩, hlarge⟩
  · rintro ⟨⟨v, hv, rfl⟩, hlarge⟩
    exact ⟨v, ⟨hv, hlarge⟩, rfl⟩

/-- It is listed in the order of the ranking, and every constraint once. -/
theorem pairwise_mostDeviating [Scalar.NumberOrder α] {top : ConstraintValue α}
    (htop : p.maxValue? x p.constraintIndices = some top) (hpos : ¬ top.normalized ≤ 0.0)
    (factor : α) : (p.mostDeviating x factor).Pairwise Deviation.Precedes ∧
      ((p.mostDeviating x factor).map (·.constraint)).Nodup := by
  simp only [mostDeviating, htop, if_neg hpos]
  have hincreasing (q : ConstraintValue α → Bool) :
      (((p.valuesAt x p.constraintIndices).filter q).map ConstraintValue.toDeviation).Pairwise
        fun a b => a.constraint < b.constraint := by
    rw [List.pairwise_map]
    exact (p.pairwise_valuesAt x).sublist List.filter_sublist
  constructor
  · refine Deviation.pairwise_precedes_mergeSort (fun d hd => ?_) (hincreasing _)
    obtain ⟨v, hv, rfl⟩ := List.mem_map.1 hd
    -- What is positive is a number.
    have hlarge := of_decide_eq_true (Bool.and_eq_true_iff.1 (List.mem_filter.1 hv).2).1
    exact (Scalar.NumberOrder.defined_of_le (Scalar.NumberOrder.le_of_lt hlarge)).2
  · rw [((List.mergeSort_perm _ _).map _).nodup_iff, List.nodup_iff_pairwise_ne, List.pairwise_map]
    exact (hincreasing _).imp Nat.ne_of_lt

variable [Scalar.ScaledOrder α] {factor : α}

/-- Its first element is the largest deviation. -/
theorem head?_mostDeviating (hfactor : 0.0 < factor ∧ factor ≤ 1.0)
    (hupper : ∀ c ∈ p.constraints, Scalar.isFinite c.upper = true) {top : ConstraintValue α}
    (htop : p.maxValue? x p.constraintIndices = some top) (hpos : ¬ top.normalized ≤ 0.0) :
    (p.mostDeviating x factor).head? = some top.toDeviation := by
  have hvalues := defined_valuesAt (x := x) hupper
  obtain ⟨hmem, hall⟩ := mostDeviating_spec hfactor htop (hvalues top (maxValue?_mem htop)) hpos
  have hsorted := (pairwise_mostDeviating htop hpos factor).1
  cases hlist : p.mostDeviating x factor with
  | nil => exact absurd (hlist ▸ hmem) List.not_mem_nil
  | cons first rest =>
      obtain ⟨v, hv, rfl, -⟩ := hall first (hlist ▸ List.mem_cons_self)
      rw [hlist] at hmem hsorted
      rcases ConstraintValue.worst?_precedes hvalues (p.pairwise_valuesAt x) htop v hv with
        rfl | hbehind
      · rfl
      -- Both are first, one in the list of the values and the other one in the sorted list.
      · rcases List.mem_cons.1 hmem with heq | hrest
        · rw [heq, List.head?_cons]
        · exact ((List.pairwise_cons.1 hsorted).1 _ hrest |>.asymm hbehind).elim

/-- What is worth linearizing at a point, for a factor of at most one and finite right-hand
    sides. It is nothing only if there are no constraints. The first is the constraint of the
    largest deviation, and the only one if that is not positive. Otherwise all constraints are
    taken whose deviation is positive and at least the given part of the largest one, each once,
    larger deviations first, and equal ones by position. -/
theorem mostDeviating_ranked (hfactor : 0.0 < factor ∧ factor ≤ 1.0)
    (hupper : ∀ c ∈ p.constraints, Scalar.isFinite c.upper = true) (x : Point α) :
    (p.mostDeviating x factor = [] ↔ p.constraints = []) ∧
      (p.mostDeviating x factor).head? = p.maxDeviation x ∧
      ∀ top, p.maxDeviation x = some top →
        (top.value ≤ 0.0 ∧ p.mostDeviating x factor = [top]) ∨
        (0.0 < top.value ∧ (p.mostDeviating x factor).Pairwise Deviation.Precedes ∧
          ((p.mostDeviating x factor).map (·.constraint)).Nodup ∧
          ∀ d, d ∈ p.mostDeviating x factor ↔
            p.DeviatesBy x d ∧ 0.0 < d.value ∧ factor * top.value ≤ d.value) := by
  have hfirst : (p.mostDeviating x factor).head? = p.maxDeviation x := by
    rw [maxDeviation]
    cases htop : p.maxValue? x p.constraintIndices with
    | none => rw [mostDeviating, htop]; rfl
    | some top =>
        by_cases hle : top.normalized ≤ 0.0
        · rw [mostDeviating, htop]
          exact congrArg List.head? (if_pos hle)
        · exact head?_mostDeviating hfactor hupper htop hle
  refine ⟨?_, hfirst, fun top hmax => ?_⟩
  · rw [← List.head?_eq_none_iff, hfirst, maxDeviation_eq_none_iff]
  · obtain ⟨top, htop, rfl⟩ := Option.map_eq_some_iff.1 hmax
    by_cases hle : top.normalized ≤ 0.0
    · refine .inl ⟨hle, ?_⟩
      rw [mostDeviating, htop]
      exact if_pos hle
    · have hdefined := defined_valuesAt hupper top (maxValue?_mem htop)
      obtain ⟨hsorted, honce⟩ := pairwise_mostDeviating htop hle factor
      have hpos : 0.0 < top.normalized :=
        Scalar.NumberOrder.lt_of_not_le hdefined Scalar.UnitInterval.defined_zero hle
      exact .inr ⟨hpos, hsorted, honce, fun d => mem_mostDeviating_iff htop hle factor⟩

end Problem

/-! ## Two constraints violated alike -/

namespace Tied

/-- Four constraints on one variable. At four, the second and the third are violated by eight,
    the first one by half as much, and the last one by less. -/
def problem : Problem Float :=
  let bounded : Problem Float :=
    (Problem.ofObjective (.affine ⟨[(0, 1.0)], 0.0⟩ .minimize)).addVariable "x" (-5.0) 5.0 .real
  let add (p : Problem Float) (name : String) (f : Affine Float) (upper : Float) :=
    p.addConstraint ⟨name, f.toFunction, upper, true⟩
  add (add (add (add bounded "half" ⟨[(0, 1.0)], 0.0⟩ 0.0) "steep" ⟨[(0, 2.0)], 0.0⟩ 0.0)
    "shifted" ⟨[(0, 1.0)], 4.0⟩ 0.0) "slight" ⟨[(0, 1.0)], 0.0⟩ 3.0

/-- The earlier one of the two comes first, in the list as in the maximum. -/
theorem mostDeviating_ranked_tied :
    ∃ top, problem.maxDeviation [4.0] = some top ∧ top.constraint = 1 ∧
      (problem.mostDeviating [4.0] 0.5).head? = some top ∧
      (problem.mostDeviating [4.0] 0.5).Pairwise Deviation.Precedes ∧
      ∀ d, d ∈ problem.mostDeviating [4.0] 0.5 ↔
        problem.DeviatesBy [4.0] d ∧ 0.0 < d.value ∧ 0.5 * top.value ≤ d.value := by
  have hupper : ∀ c ∈ problem.constraints, Scalar.isFinite c.upper = true := by
    decide +kernel
  have hfactor : (0.0 : Float) < 0.5 ∧ (0.5 : Float) ≤ 1.0 := by decide +kernel
  obtain ⟨-, hfirst, hall⟩ := Problem.mostDeviating_ranked hfactor hupper [4.0]
  have hlargest : (problem.maxDeviation [4.0]).any
      (fun d => d.constraint == 1 && !decide (d.value ≤ 0.0)) = true := by decide +kernel
  obtain ⟨top, htop, hsecond⟩ := (Option.any_eq_true _ _).1 hlargest
  rw [Bool.and_eq_true, beq_iff_eq, Bool.not_eq_true', decide_eq_false_iff_not] at hsecond
  rcases hall top htop with ⟨hle, -⟩ | ⟨-, hsorted, -, hmem⟩
  · exact absurd hle hsecond.2
  · exact ⟨top, htop, hsecond.1, hfirst.trans htop, hsorted, hmem⟩

end Tied

end OuterApprox
