import OuterApprox.Proofs.Normalizing
import Mathlib.Data.List.DropRight

/-!
# Masked violations

What the largest normalized value of a list of constraints shows of a point. The list is folded
from the left by a comparison that an undefined value loses on either side: it takes the place
of whatever was the largest so far, and gives way to whatever comes next. So the result knows
nothing of the constraints up to the last one whose normalized value is lost. Of the ones behind
it is the largest, and its sign says whether they are fulfilled. If the lost value comes last
there is nothing behind, and the result is undefined itself.

A normalized value is lost only where the right-hand side is infinite. Without such constraints
the sign can be relied on in every order. With one, it cannot: put last, it hides the others.

## Main definitions

* `Problem.FulfilledAt`: The listed constraints hold at a point.
* `Problem.seenAt`: The part of a list that its largest value knows of.
* `Problem.Shows`: A value that says whether the listed constraints hold.

## Theorems

* `ConstraintValue.worst?_concat`: One value more.
* `Problem.isWorst_maxValue?`: What the largest value of a list is the largest of.
* `Problem.maxValue?_sign`: Its sign.
* `Problem.shows_of_sees`: What it shows where no value is lost.
* `Problem.violations_shown_iff`: What it shows, and when it can be relied on.
-/

namespace OuterApprox

variable {α : Type} [Scalar α]

namespace ConstraintValue

/-- One value more is compared with the largest of the others. -/
theorem worst?_concat (vs : List (ConstraintValue α)) (v : ConstraintValue α) :
    worst? (vs ++ [v]) = some ((worst? vs).elim v fun top => top.larger v) := by
  cases vs with
  | nil => rfl
  | cons first rest =>
      rw [List.cons_append, worst?, worst, List.foldl_concat]
      rfl

variable [Scalar.NumberOrder α] {a b : ConstraintValue α}

/-- A comparison that an undefined value has a part in is lost by the first one. -/
theorem larger_of_undefined (h : Scalar.isUndefined a.normalized = true ∨
    Scalar.isUndefined b.normalized = true) : a.larger b = b := by
  refine if_neg fun hle => ?_
  obtain ⟨hb, ha⟩ := Scalar.NumberOrder.defined_of_le hle
  rw [ha, hb] at h
  exact h.elim Bool.false_ne_true Bool.false_ne_true

/-- The largest of some numbers stays the largest after a comparison with one more. -/
theorem isWorst_larger {values : List α} (ha : Sense.minimize.IsWorst a.normalized values)
    (hb : Scalar.isUndefined b.normalized = false) :
    Sense.minimize.IsWorst (a.larger b).normalized (values ++ [b.normalized]) := by
  unfold larger
  split
  next hle => exact ha.concat (decide_eq_true hle)
  next hnot =>
    have hlt := Scalar.NumberOrder.lt_of_not_le hb ha.defined hnot
    exact ha.replace (decide_eq_true (Scalar.NumberOrder.le_of_lt hlt))

end ConstraintValue

namespace Problem

/-- The listed constraints hold at a point. -/
def FulfilledAt (p : Problem α) (x : Point α) (indices : List Nat) : Prop :=
  ∀ i ∈ indices, ∀ c, p.constraints[i]? = some c → c.residual x ≤ 0.0

/-- Whether the normalized value of the constraint at position `i` is lost at a point. -/
def blindAt (p : Problem α) (x : Point α) (i : Nat) : Bool := (p.constraints[i]?).any (·.blind x)

/-- The positions behind the last one whose normalized value is lost. -/
def seenAt (p : Problem α) (x : Point α) (indices : List Nat) : List Nat :=
  indices.rtakeWhile fun i => !p.blindAt x i

/-- The largest value of the constraints at the positions of `order` is a number whose sign says
    whether the constraints at the positions of `indices` hold. -/
def Shows (p : Problem α) (x : Point α) (order indices : List Nat) : Prop :=
  ∃ top, p.maxValue? x order = some top ∧ Scalar.isUndefined top.normalized = false ∧
    (0.0 < top.normalized ↔ ¬ p.FulfilledAt x indices) ∧
    (top.normalized ≤ 0.0 ↔ p.FulfilledAt x indices)

variable {p : Problem α} {x : Point α} {indices : List Nat}

theorem valuesAt_concat {i : Nat} {c : Constraint α} (hc : p.constraints[i]? = some c)
    (indices : List Nat) :
    p.valuesAt x (indices ++ [i]) = p.valuesAt x indices ++ [c.valueAt i x] := by
  simp only [valuesAt, constraintsAt, List.filterMap_append, List.map_append,
    List.filterMap_cons, List.filterMap_nil, hc, Option.map_some, List.map_cons, List.map_nil]

theorem mem_valuesAt {v : ConstraintValue α} : v ∈ p.valuesAt x indices ↔
    ∃ i ∈ indices, ∃ c, p.constraints[i]? = some c ∧ c.valueAt i x = v := by
  simp only [valuesAt, constraintsAt, List.mem_map, List.mem_filterMap, Option.map_eq_some_iff]
  constructor
  · rintro ⟨q, ⟨i, hi, c, hc, rfl⟩, rfl⟩
    exact ⟨i, hi, c, hc, rfl⟩
  · rintro ⟨i, hi, c, hc, rfl⟩
    exact ⟨(i, c), ⟨i, hi, c, hc, rfl⟩, rfl⟩

theorem fulfilledAt_perm {order : List Nat} (h : order.Perm indices) :
    p.FulfilledAt x order ↔ p.FulfilledAt x indices := by
  simp only [FulfilledAt, h.mem_iff]

theorem exists_maxValue? (x : Point α) (hne : indices ≠ [])
    (hvalid : ∀ i ∈ indices, i < p.constraints.length) :
    ∃ top, p.maxValue? x indices = some top := by
  cases indices with
  | nil => exact absurd rfl hne
  | cons i rest =>
      have hc := List.getElem?_eq_getElem (hvalid i List.mem_cons_self)
      simp only [maxValue?, valuesAt, constraintsAt, List.filterMap_cons, hc, Option.map_some,
        List.map_cons, ConstraintValue.worst?]
      exact ⟨_, rfl⟩

theorem blind_eq_false_of_mem_seenAt {i : Nat} (hi : i ∈ p.seenAt x indices) {c : Constraint α}
    (hc : p.constraints[i]? = some c) : c.blind x = false := by
  have hkept := List.mem_rtakeWhile_imp hi
  rwa [blindAt, hc, Option.any_some, Bool.not_eq_true'] at hkept

variable [Scalar.SignedQuotient α]

/-- The largest value of a list is the largest of the values behind the last one that is lost,
    and lost itself if there are none. -/
theorem isWorst_maxValue? (hvalid : ∀ i ∈ indices, i < p.constraints.length)
    {top : ConstraintValue α} (htop : p.maxValue? x indices = some top) :
    (p.seenAt x indices = [] → Scalar.isUndefined top.normalized = true) ∧
      (p.seenAt x indices ≠ [] → Sense.minimize.IsWorst top.normalized
        ((p.valuesAt x (p.seenAt x indices)).map (·.normalized))) := by
  -- The positions are taken from the back, because the fold compares the last one last.
  induction indices using List.reverseRecOn generalizing top with
  | nil => exact nomatch htop
  | append_singleton indices i ih =>
      obtain ⟨c, hc⟩ : ∃ c, p.constraints[i]? = some c :=
        ⟨_, List.getElem?_eq_getElem (hvalid i (List.mem_append_right _ List.mem_cons_self))⟩
      have hrest : ∀ j ∈ indices, j < p.constraints.length :=
        fun j hj => hvalid j (List.mem_append_left _ hj)
      have hblind : p.blindAt x i = c.blind x := by rw [blindAt, hc, Option.any_some]
      have hundefined := Constraint.undefined_normalized_iff (c := c) (x := x) i
      rw [maxValue?, valuesAt_concat hc, ConstraintValue.worst?_concat, ← maxValue?,
        Option.some.injEq] at htop
      subst htop
      cases hlost : c.blind x with
      | true =>
          -- A lost value takes the place of any other.
          have hseen : p.seenAt x (indices ++ [i]) = [] := by
            rw [seenAt, List.rtakeWhile_concat_neg _ _ _ (by rw [hblind, hlost]; decide)]
          have hv := hundefined.2 hlost
          refine ⟨fun _ => ?_, fun hne => absurd hseen hne⟩
          cases p.maxValue? x indices with
          | none => exact hv
          | some top => rwa [Option.elim_some, ConstraintValue.larger_of_undefined (.inr hv)]
      | false =>
          have hseen : p.seenAt x (indices ++ [i]) = p.seenAt x indices ++ [i] := by
            rw [seenAt, List.rtakeWhile_concat_pos _ _ _ (by rw [hblind, hlost]; rfl), seenAt]
          have hv : Scalar.isUndefined (c.valueAt i x).normalized = false := by
            rw [← Bool.not_eq_true, hundefined, hlost]
            exact Bool.false_ne_true
          refine ⟨fun hnil => ?_, fun _ => ?_⟩
          · rw [hseen] at hnil
            exact absurd hnil (List.append_ne_nil_of_right_ne_nil _ (List.cons_ne_nil _ _))
          rw [hseen, valuesAt_concat hc, List.map_append, List.map_singleton]
          by_cases hnone : p.seenAt x indices = []
          · -- Whatever came before is lost, so the new value stands alone.
            rw [hnone]
            have hlast : ((p.maxValue? x indices).elim (c.valueAt i x)
                fun top => top.larger (c.valueAt i x)) = c.valueAt i x := by
              cases htop : p.maxValue? x indices with
              | none => rfl
              | some top =>
                  exact ConstraintValue.larger_of_undefined (.inl ((ih hrest htop).1 hnone))
            rw [hlast]
            exact Sense.isWorst_singleton hv
          · have hne : indices ≠ [] := fun hnil => hnone (by rw [hnil]; rfl)
            obtain ⟨top, htop⟩ := exists_maxValue? x hne hrest
            rw [htop, Option.elim_some]
            exact ConstraintValue.isWorst_larger ((ih hrest htop).2 hnone) hv

/-- The values behind the last one that is lost are not positive exactly if their constraints
    hold. -/
theorem forall_seenAt_nonpos_iff :
    (∀ w ∈ (p.valuesAt x (p.seenAt x indices)).map (·.normalized), w ≤ 0.0) ↔
      p.FulfilledAt x (p.seenAt x indices) := by
  simp only [List.forall_mem_map, mem_valuesAt]
  constructor
  · intro hall i hi c hc
    have hsees := blind_eq_false_of_mem_seenAt hi hc
    exact (Constraint.normalized_nonpos_iff i hsees).1 (hall _ ⟨i, hi, c, hc, rfl⟩)
  · rintro hall v ⟨i, hi, c, hc, rfl⟩
    have hsees := blind_eq_false_of_mem_seenAt hi hc
    exact (Constraint.normalized_nonpos_iff i hsees).2 (hall i hi c hc)

/-- The sign of the largest value is that of the constraints behind the last one whose value is
    lost. -/
theorem maxValue?_sign (hvalid : ∀ i ∈ indices, i < p.constraints.length)
    {top : ConstraintValue α} (htop : p.maxValue? x indices = some top) :
    (Scalar.isUndefined top.normalized = true ↔ p.seenAt x indices = []) ∧
      (0.0 < top.normalized ↔ ¬ p.FulfilledAt x (p.seenAt x indices)) ∧
      (top.normalized ≤ 0.0 ↔
        p.seenAt x indices ≠ [] ∧ p.FulfilledAt x (p.seenAt x indices)) := by
  obtain ⟨hlost, hworst⟩ := isWorst_maxValue? hvalid htop
  by_cases hnone : p.seenAt x indices = []
  -- All are lost: what is shown is not a number, and does not compare.
  · have hundefined := hlost hnone
    have hnot {a b : α} (h : a ≤ b) (heq : a = top.normalized ∨ b = top.normalized) : False := by
      obtain ⟨ha, hb⟩ := Scalar.NumberOrder.defined_of_le h
      rcases heq with rfl | rfl
      · exact Bool.false_ne_true (ha.symm.trans hundefined)
      · exact Bool.false_ne_true (hb.symm.trans hundefined)
    refine ⟨iff_of_true hundefined hnone, iff_of_false ?_ ?_, iff_of_false ?_ ?_⟩
    · exact fun h => hnot (Scalar.NumberOrder.le_of_lt h) (.inr rfl)
    · rw [hnone]
      exact not_not.2 fun i hi => absurd hi List.not_mem_nil
    · exact fun h => hnot h (.inl rfl)
    · exact fun h => h.1 hnone
  -- Of those that are seen it is the largest, so its sign is that of all.
  · obtain ⟨hmem, hall⟩ := hworst hnone
    have hdefined := (hworst hnone).defined
    have hsign : top.normalized ≤ 0.0 ↔ p.FulfilledAt x (p.seenAt x indices) := by
      rw [← forall_seenAt_nonpos_iff]
      exact ⟨fun h w hw => Scalar.NumberOrder.le_trans (of_decide_eq_true (hall w hw)) h,
        fun h => h _ hmem⟩
    refine ⟨iff_of_false ?_ hnone, ?_, ?_⟩
    · rw [hdefined]
      exact Bool.false_ne_true
    · rw [← hsign]
      exact ⟨fun h => ((Scalar.NumberOrder.lt_iff _ _).1 h).2,
        Scalar.NumberOrder.lt_of_not_le hdefined Scalar.UnitInterval.defined_zero⟩
    · rw [hsign, and_iff_right hnone]

/-- Where no value is lost, the largest one shows whether the constraints hold. -/
theorem shows_of_sees (hne : indices ≠ []) (hvalid : ∀ i ∈ indices, i < p.constraints.length)
    (hsees : ∀ i ∈ indices, p.blindAt x i = false) : p.Shows x indices indices := by
  have hseen : p.seenAt x indices = indices := by
    refine List.rtakeWhile_eq_self_iff.2 fun i hi => ?_
    rw [hsees i hi]
    rfl
  obtain ⟨top, htop⟩ := exists_maxValue? x hne hvalid
  have hsign := maxValue?_sign hvalid htop
  rw [hseen, and_iff_right hne] at hsign
  refine ⟨top, htop, ?_, hsign.2⟩
  rw [← Bool.not_eq_true, hsign.1]
  exact hne

/-- There is a largest value for every list of constraints. It shows whether the constraints
    behind the last one whose value is lost hold, and it is undefined if there are none. So it
    shows in every order whether all of them hold exactly if the value of none is lost. -/
theorem violations_shown_iff (x : Point α) (hne : indices ≠ [])
    (hvalid : ∀ i ∈ indices, i < p.constraints.length) :
    (∃ top, p.maxValue? x indices = some top ∧
      (Scalar.isUndefined top.normalized = true ↔ p.seenAt x indices = []) ∧
      (0.0 < top.normalized ↔ ¬ p.FulfilledAt x (p.seenAt x indices)) ∧
      (top.normalized ≤ 0.0 ↔
        p.seenAt x indices ≠ [] ∧ p.FulfilledAt x (p.seenAt x indices))) ∧
    ((∀ order : List Nat, order.Perm indices → p.Shows x order indices) ↔
      ∀ i ∈ indices, p.blindAt x i = false) := by
  constructor
  · obtain ⟨top, htop⟩ := exists_maxValue? x hne hvalid
    exact ⟨top, htop, maxValue?_sign hvalid htop⟩
  constructor
  · intro hall i hi
    by_contra hblind
    rw [Bool.not_eq_false] at hblind
    -- Put last, a value that is lost hides all others.
    have hperm : (indices.erase i ++ [i]).Perm indices :=
      List.perm_append_comm.trans (List.perm_cons_erase hi).symm
    obtain ⟨top, htop, hdefined, -⟩ := hall _ hperm
    have hseen : p.seenAt x (indices.erase i ++ [i]) = [] := by
      rw [seenAt, List.rtakeWhile_concat_neg _ _ _ (by rw [hblind]; decide)]
    have hsign := maxValue?_sign (fun j hj => hvalid j (hperm.mem_iff.1 hj)) htop
    rw [hsign.1.2 hseen] at hdefined
    exact nomatch hdefined
  · intro hsees order hperm
    obtain ⟨top, htop, hdefined, hsign⟩ := shows_of_sees (x := x)
      (fun hnil => hne (hnil ▸ hperm).nil_eq.symm) (fun j hj => hvalid j (hperm.mem_iff.1 hj))
      (fun j hj => hsees j (hperm.mem_iff.1 hj))
    rw [fulfilledAt_perm hperm] at hsign
    exact ⟨top, htop, hdefined, hsign⟩

end Problem

/-! ## A constraint without a bound -/

namespace Unbounded

/-- One variable, which should not be positive, and a second constraint on it that never
    binds. -/
def problem : Problem Float :=
  (((Problem.ofObjective (.affine ⟨[(0, 1.0)], 0.0⟩ .minimize)).addVariable
    "x" (-5.0) 5.0 .real).addConstraint
      ⟨"tight", (Affine.mk [(0, 1.0)] 0.0).toFunction, 0.0, true⟩).addConstraint
        ⟨"loose", (Affine.mk [(0, 1.0)] 0.0).toFunction, Scalar.infinity, true⟩

/-- The constraint that never binds hides the violation of the other one if it comes last, and
    only then. -/
theorem violations_shown_iff_last :
    (∃ top, problem.maxValue? [1.0] [0, 1] = some top ∧
        Scalar.isUndefined top.normalized = true) ∧
      (∃ top, problem.maxValue? [1.0] [1, 0] = some top ∧ 0.0 < top.normalized) ∧
      ¬ ∀ order : List Nat, order.Perm [1, 0] → problem.Shows [1.0] order [1, 0] := by
  have hvalid : ∀ i ∈ [0, 1], i < problem.constraints.length := by decide
  have hvalid' : ∀ i ∈ [1, 0], i < problem.constraints.length := by decide
  obtain ⟨⟨top, htop, hlost, -⟩, -⟩ :=
    Problem.violations_shown_iff [1.0] (List.cons_ne_nil _ _) hvalid
  obtain ⟨⟨top', htop', -, hpos, -⟩, horders⟩ :=
    Problem.violations_shown_iff [1.0] (List.cons_ne_nil _ _) hvalid'
  -- In the second order the first constraint is seen, and it is violated.
  have hviolated : ¬ problem.FulfilledAt [1.0] (problem.seenAt [1.0] [1, 0]) := by
    intro hall
    have hle := hall 0 (by decide +kernel) _ rfl
    exact absurd hle (by decide +kernel)
  refine ⟨⟨top, htop, hlost.2 (by decide +kernel)⟩, ⟨top', htop', hpos.2 hviolated⟩, ?_⟩
  rw [horders]
  intro hsees
  exact absurd (hsees 1 (by decide)) (by decide +kernel)

/-- The largest value does not always show whether all constraints hold. -/
theorem violations_not_always_shown :
    ¬ ∀ (p : Problem Float) (x : Point Float) (indices : List Nat), indices ≠ [] →
      (∀ i ∈ indices, i < p.constraints.length) → p.Shows x indices indices := by
  intro hall
  obtain ⟨top, htop, hdefined, -⟩ := hall problem [1.0] [0, 1] (by decide) (by decide)
  have hlost : (problem.maxValue? [1.0] [0, 1]).all
      (fun v => Scalar.isUndefined v.normalized) = true := by decide +kernel
  rw [htop, Option.all_some, hdefined] at hlost
  exact nomatch hlost

end Unbounded

end OuterApprox
