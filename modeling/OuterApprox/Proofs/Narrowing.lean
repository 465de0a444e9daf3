import OuterApprox.Proofs.Bracket
import OuterApprox.Proofs.NumberOrder

/-!
# Narrowing

What a line search achieves over scalars that may round, and what one evaluation
more makes of it. Nothing is assumed about the function that is searched, and
nothing about where false position puts the next parameter: its weights drift away
from the values at the ends and may overflow, but a parameter is only evaluated
when it lies strictly inside the bracket, and which end it becomes is decided by its
own value. So an inner end that is not feasible is still the one the search started
from, and an outer end is never feasible.

The budget of a search enters nowhere but in the number of steps. A search with one
evaluation more therefore makes the same steps, and then one more or none: it is the
whole hidden state, weights and streaks included, that is the same. A search that
stopped before its budget was used up has no next step, and there are few reasons for
that. When the inner point is infeasible every step takes the midpoint, and in exact
arithmetic it halves the width.

## Main definitions

* `LineSearch.profile?`: The largest value of the constraints along a segment.
* `LineSearch.Bracket.next?`: The bracket after one more evaluation.
* `LineSearch.Bracket.Between`: What is kept of a bracket.
* `LineSearch.Straddles`: The two ends of a result lie on both sides of the boundary.
* `LineSearch.Finished`: Why a search stops early.
* `LineSearch.Tightened`, `LineSearch.Bisected`: One evaluation more.
* `LineSearch.Bracket.Halved`: The width of a bracket is a power of one half.

## Theorems

* `Bracket.Between.next`: A step keeps what is kept.
* `narrow_induct`: Steps of a search.
* `narrow_succ`: A larger budget adds a step at the end, if there is one.
* `next?_narrow_eq_none`: A search that has budget left has no next step.
* `find_straddles`: A search keeps the boundary between its ends.
* `find_budget`: A search with one evaluation more.
-/

namespace OuterApprox

/-- An order of numbers in which the segment from zero to one is one. -/
class Scalar.UnitInterval (α : Type) [Scalar α] : Prop extends Scalar.NumberOrder α where
  /-- Zero is below one. -/
  zero_lt_one : (0.0 : α) < 1.0

instance floatUnitInterval : Scalar.UnitInterval Float where
  zero_lt_one := by decide

instance exactUnitInterval : Scalar.UnitInterval Exact where
  zero_lt_one := by
    rw [Exact.zero_eq, Exact.one_eq, Exact.finite_lt]
    exact zero_lt_one

namespace Scalar.UnitInterval

variable {α : Type} [Scalar α] [Scalar.UnitInterval α]

theorem zero_le_one : (0.0 : α) ≤ 1.0 := Scalar.NumberOrder.le_of_lt zero_lt_one

theorem defined_zero : Scalar.isUndefined (0.0 : α) = false :=
  (Scalar.NumberOrder.defined_of_le zero_le_one).1

theorem defined_one : Scalar.isUndefined (1.0 : α) = false :=
  (Scalar.NumberOrder.defined_of_le zero_le_one).2

end Scalar.UnitInterval

namespace LineSearch

variable {α : Type} [Scalar α]

/-- The largest normalized value of the listed constraints at parameter `t` of a
    segment, if any of them exists. -/
def profile? (p : Problem α) (interior exterior : Point α) (indices : List Nat) (t : α) :
    Option α :=
  (p.maxValue? (Point.between interior exterior t) indices).map ConstraintValue.normalized

theorem profile?_eq_some {p : Problem α} {indices : List Nat} {first : Nat × Constraint α}
    {rest : List (Nat × Constraint α)} (hlist : p.constraintsAt indices = first :: rest)
    (interior exterior : Point α) (t : α) :
    profile? p interior exterior indices t = some (level first rest interior exterior t) := by
  rw [profile?, Problem.maxValue?, Problem.valuesAt, hlist]
  rfl

namespace Bracket

variable {h : α → α} {stop : Stopping α} {bisectOnly : Bool} {b b' : Bracket α}

/-- The bracket after one more evaluation, unless the search is over. -/
def next? (h : α → α) (stop : Stopping α) (bisectOnly : Bool) (b : Bracket α) :
    Option (Bracket α) :=
  if b.isDone stop then none else (b.probe? bisectOnly).map fun t => b.move t (h t)

/-- Whether one end stays where it is and the other moves strictly inside. -/
def Within (b b' : Bracket α) : Prop :=
  (b'.lower = b.lower ∧ b.lower < b'.upper ∧ b'.upper < b.upper) ∨
    (b'.upper = b.upper ∧ b.lower < b'.lower ∧ b'.lower < b.upper)

theorem contains_iff {t : α} : b.contains t = true ↔ b.lower < t ∧ t < b.upper := by
  rw [contains, Bool.and_eq_true, decide_eq_true_iff, decide_eq_true_iff]

/-- A parameter is probed only inside the bracket, and where the search bisects it is the
    middle. -/
theorem probe?_eq_some {t : α} (ht : b.probe? bisectOnly = some t) :
    (b.lower < t ∧ t < b.upper) ∧ (bisectOnly = true → t = b.middle) := by
  simp only [probe?, Option.ite_none_right_eq_some, Option.some.injEq] at ht
  obtain ⟨hinside, rfl⟩ := ht
  refine ⟨contains_iff.1 hinside, ?_⟩
  rintro rfl
  rw [Bool.true_or, if_pos rfl, ite_self]

/-- Nothing is probed only if the middle is not inside the bracket. -/
theorem probe?_eq_none (ht : b.probe? bisectOnly = none) :
    ¬ (b.lower < b.middle ∧ b.middle < b.upper) := by
  simp only [probe?, ite_eq_right_iff, reduceCtorEq, imp_false] at ht
  rw [← contains_iff]
  intro hmiddle
  -- What was wanted is replaced by the middle unless it is inside itself.
  have hinside (wanted : α) :
      b.contains (if b.contains wanted then wanted else b.middle) = true := by
    split
    next hwanted => exact hwanted
    next => exact hmiddle
  exact ht (hinside _)

theorem next?_eq_some (hnext : b.next? h stop bisectOnly = some b') :
    ∃ t, (b.lower < t ∧ t < b.upper) ∧ (bisectOnly = true → t = b.middle) ∧
      b' = b.move t (h t) := by
  rw [next?, Option.ite_none_left_eq_some, Option.map_eq_some_iff] at hnext
  obtain ⟨_, t, hprobe, rfl⟩ := hnext
  obtain ⟨hinside, hmiddle⟩ := probe?_eq_some hprobe
  exact ⟨t, hinside, hmiddle, rfl⟩

theorem next?_eq_none (hnext : b.next? h stop bisectOnly = none) :
    b.upper - b.lower ≤ stop.width ∨ b.upperValue ≤ stop.deviation ∨
      ¬ (b.lower < b.middle ∧ b.middle < b.upper) := by
  rw [next?] at hnext
  split at hnext
  next hdone =>
    rw [isDone, Bool.or_eq_true, decide_eq_true_iff, decide_eq_true_iff] at hdone
    exact hdone.imp_right .inl
  next => exact .inr (.inr (probe?_eq_none (Option.map_eq_none_iff.1 hnext)))

/-- An end moves to the parameter that was evaluated, and the other one stays. -/
theorem move_ends (b : Bracket α) (t value : α) :
    (value ≤ 0.0 ∧ (b.move t value).lower = t ∧ (b.move t value).upper = b.upper ∧
        (b.move t value).upperValue = b.upperValue) ∨
      (¬ value ≤ 0.0 ∧ (b.move t value).lower = b.lower ∧ (b.move t value).upper = t ∧
        (b.move t value).upperValue = value) := by
  unfold move
  split
  next hinside => exact .inl ⟨hinside, rfl, rfl, rfl⟩
  next houtside => exact .inr ⟨houtside, rfl, rfl, rfl⟩

theorem iterations_move (b : Bracket α) (t value : α) :
    (b.move t value).iterations = b.iterations + 1 := by
  unfold move
  split <;> rfl

theorem iterations_next (hnext : b.next? h stop bisectOnly = some b') :
    b'.iterations = b.iterations + 1 := by
  obtain ⟨t, _, _, rfl⟩ := next?_eq_some hnext
  exact b.iterations_move t _

theorem within_next (hnext : b.next? h stop bisectOnly = some b') : b.Within b' := by
  obtain ⟨t, hinside, _, rfl⟩ := next?_eq_some hnext
  rcases b.move_ends t (h t) with ⟨_, hlower, hupper, _⟩ | ⟨_, hlower, hupper, _⟩
  · exact .inr ⟨hupper, hlower.symm ▸ hinside⟩
  · exact .inl ⟨hlower, hupper.symm ▸ hinside⟩

/-- A search that bisects moves one end to the middle. -/
theorem bisected_next (hnext : b.next? h stop true = some b') :
    (b'.lower = b.lower ∧ b'.upper = b.middle) ∨ (b'.lower = b.middle ∧ b'.upper = b.upper) := by
  obtain ⟨t, _, hmiddle, rfl⟩ := next?_eq_some hnext
  obtain rfl := hmiddle rfl
  rcases b.move_ends b.middle (h b.middle) with ⟨_, hlower, hupper, _⟩ | ⟨_, hlower, hupper, _⟩
  · exact .inr ⟨hlower, hupper⟩
  · exact .inl ⟨hlower, hupper⟩

/-- The ends of a bracket are in order between zero and one, the outer one is infeasible,
    and the inner one is feasible or the one the search started from. -/
structure Between (h : α → α) (b : Bracket α) : Prop where
  /-- The inner end is not below zero. -/
  nonneg : 0.0 ≤ b.lower
  /-- The ends are in order. -/
  order : b.lower < b.upper
  /-- The outer end is not above one. -/
  atMost : b.upper ≤ 1.0
  /-- The value kept for the outer end is the one there. -/
  value : b.upperValue = h b.upper
  /-- The outer end is infeasible. -/
  outside : ¬ h b.upper ≤ 0.0
  /-- The inner end is feasible unless it never moved. -/
  inside : h b.lower ≤ 0.0 ∨ b.lower = 0.0

theorem between_whole [Scalar.UnitInterval α] (houtside : ¬ h 1.0 ≤ 0.0) (lowerValue : α) :
    (whole lowerValue (h 1.0)).Between h where
  nonneg := Scalar.NumberOrder.le_refl Scalar.UnitInterval.defined_zero
  order := Scalar.UnitInterval.zero_lt_one
  atMost := Scalar.NumberOrder.le_refl Scalar.UnitInterval.defined_one
  value := rfl
  outside := houtside
  inside := .inr rfl

theorem Between.next [Scalar.NumberOrder α] (hb : b.Between h)
    (hnext : b.next? h stop bisectOnly = some b') : b'.Between h := by
  obtain ⟨t, ⟨hlow, hhigh⟩, _, rfl⟩ := next?_eq_some hnext
  rcases b.move_ends t (h t) with ⟨hin, hlower, hupper, hvalue⟩ | ⟨hout, hlower, hupper, hvalue⟩
  -- The value at the new parameter decides which end it is, so that end is on its side.
  · exact {
      nonneg := by
        rw [hlower]
        exact Scalar.NumberOrder.le_trans hb.nonneg (Scalar.NumberOrder.le_of_lt hlow)
      order := by rw [hlower, hupper]; exact hhigh
      atMost := hupper ▸ hb.atMost
      value := by rw [hvalue, hupper]; exact hb.value
      outside := hupper ▸ hb.outside
      inside := .inl (hlower.symm ▸ hin) }
  · exact {
      nonneg := hlower ▸ hb.nonneg
      order := by rw [hlower, hupper]; exact hlow
      atMost := by
        rw [hupper]
        exact Scalar.NumberOrder.le_trans (Scalar.NumberOrder.le_of_lt hhigh) hb.atMost
      value := by rw [hvalue, hupper]
      outside := hupper.symm ▸ hout
      inside := hlower ▸ hb.inside }

end Bracket

variable {h : α → α} {stop : Stopping α} {bisectOnly : Bool}

theorem narrow_of_next {b b' : Bracket α} (hnext : b.next? h stop bisectOnly = some b')
    (budget : Nat) :
    narrow h stop bisectOnly (budget + 1) b = narrow h stop bisectOnly budget b' := by
  rw [Bracket.next?, Option.ite_none_left_eq_some, Option.map_eq_some_iff] at hnext
  obtain ⟨hdone, t, hprobe, rfl⟩ := hnext
  rw [narrow, if_neg hdone, hprobe]

theorem narrow_of_next_none {b : Bracket α} (hnext : b.next? h stop bisectOnly = none)
    (budget : Nat) : narrow h stop bisectOnly budget b = b := by
  cases budget with
  | zero => rfl
  | succ budget =>
      rw [Bracket.next?] at hnext
      rw [narrow]
      split at hnext
      next hdone => rw [if_pos hdone]
      next hdone => rw [if_neg hdone, Option.map_eq_none_iff.1 hnext]

/-- What every step keeps, a search keeps. -/
theorem narrow_induct {P : Bracket α → Prop}
    (hstep : ∀ b b' : Bracket α, P b → b.next? h stop bisectOnly = some b' → P b')
    (budget : Nat) {b : Bracket α} (hb : P b) : P (narrow h stop bisectOnly budget b) := by
  induction budget generalizing b with
  | zero => exact hb
  | succ budget ih =>
      cases hnext : b.next? h stop bisectOnly with
      | none => rw [narrow_of_next_none hnext]; exact hb
      | some b' => rw [narrow_of_next hnext]; exact ih (hstep b b' hb hnext)

/-- A search with a larger budget goes on from where the smaller one ended it. -/
theorem narrow_succ (budget : Nat) (b : Bracket α) :
    narrow h stop bisectOnly (budget + 1) b =
      ((narrow h stop bisectOnly budget b).next? h stop bisectOnly).getD
        (narrow h stop bisectOnly budget b) := by
  induction budget generalizing b with
  | zero =>
      cases hnext : b.next? h stop bisectOnly with
      | none => rw [narrow_of_next_none hnext, narrow, hnext, Option.getD_none]
      | some b' => rw [narrow_of_next hnext, narrow, narrow, hnext, Option.getD_some]
  | succ budget ih =>
      cases hnext : b.next? h stop bisectOnly with
      | none => simp only [narrow_of_next_none hnext, hnext, Option.getD_none]
      | some b' => rw [narrow_of_next hnext, narrow_of_next hnext, ih]

theorem iterations_narrow (budget : Nat) (b : Bracket α) :
    (narrow h stop bisectOnly budget b).iterations ≤ b.iterations + budget := by
  induction budget generalizing b with
  | zero => exact le_rfl
  | succ budget ih =>
      cases hnext : b.next? h stop bisectOnly with
      | none => rw [narrow_of_next_none hnext]; exact Nat.le_add_right _ _
      | some b' =>
          rw [narrow_of_next hnext]
          have hone := Bracket.iterations_next hnext
          have hrest := ih b'
          omega

/-- A search that has some of its budget left has no next step. -/
theorem next?_narrow_eq_none {budget : Nat} {b : Bracket α}
    (hlt : (narrow h stop bisectOnly budget b).iterations < b.iterations + budget) :
    (narrow h stop bisectOnly budget b).next? h stop bisectOnly = none := by
  induction budget generalizing b with
  | zero => exact absurd hlt (lt_irrefl _)
  | succ budget ih =>
      cases hnext : b.next? h stop bisectOnly with
      | none => rw [narrow_of_next_none hnext, hnext]
      | some b' =>
          rw [narrow_of_next hnext] at hlt ⊢
          have hone := Bracket.iterations_next hnext
          exact ih (by omega)

/-- Whether a search across the boundary bisects all the way. -/
def bisects (h : α → α) : Bool :=
  !(decide (h 0.0 ≤ 0.0)) || !Scalar.isFinite (h 0.0) || !Scalar.isFinite (h 1.0)

theorem crossing_eq (h : α → α) (stop : Stopping α) :
    crossing h stop (h 1.0) =
      narrow h stop (bisects h) stop.maxIterations (.whole (h 0.0) (h 1.0)) := rfl

theorem bisects_eq_true [Scalar.NumberOrder α] (hinner : 0.0 < h 0.0) : bisects h = true := by
  have hnot : ¬ h 0.0 ≤ 0.0 := ((Scalar.NumberOrder.lt_iff _ _).1 hinner).2
  rw [bisects, decide_eq_false hnot, Bool.not_false, Bool.true_or, Bool.true_or]

theorem between_crossing [Scalar.UnitInterval α] (houtside : ¬ h 1.0 ≤ 0.0)
    (stop : Stopping α) : (crossing h stop (h 1.0)).Between h :=
  narrow_induct (fun _ _ hb hnext => hb.next hnext) _ (Bracket.between_whole houtside _)

/-- A result is the part of a segment where it leaves the feasible region: `h` is the largest
    value of the constraints along it. -/
structure Straddles (h : α → α) (stop : Stopping α) (interior exterior : Point α)
    (r : Result α) : Prop where
  /-- The inner end is not before the segment. -/
  nonneg : 0.0 ≤ r.lower
  /-- The ends are in order. -/
  order : r.lower < r.upper
  /-- The outer end is not past the segment. -/
  atMost : r.upper ≤ 1.0
  /-- The inner end is the point at its parameter. -/
  innerEnd : r.interior = Point.between interior exterior r.lower
  /-- The outer end is the point at its parameter. -/
  outerEnd : r.exterior = Point.between interior exterior r.upper
  /-- The budget was kept. -/
  budget : r.iterations ≤ stop.maxIterations
  /-- The outer end is infeasible. -/
  outside : ¬ h r.upper ≤ 0.0
  /-- The inner end is feasible unless it is the start of the segment. -/
  inside : h r.lower ≤ 0.0 ∨ r.lower = 0.0
  /-- The inner end stays feasible. -/
  feasible : h 0.0 ≤ 0.0 → h r.lower ≤ 0.0

/-- Along a segment whose outer point is infeasible, a search keeps the boundary between its
    ends, whatever the shape of the constraints and whatever the tolerances. -/
theorem find_straddles [Scalar.UnitInterval α] {p : Problem α} {interior exterior : Point α}
    {stop : Stopping α} {indices : List Nat} {wantWorst : Bool} {r : Result α}
    (hr : find p interior exterior stop indices wantWorst = .ok r) :
    ∃ h : α → α, (∀ t, profile? p interior exterior indices t = some (h t)) ∧
      (¬ h 1.0 ≤ 0.0 → Straddles h stop interior exterior r) := by
  obtain ⟨_, _, first, rest, hlist, rfl⟩ := find_eq_ok_iff.1 hr
  refine ⟨level first rest interior exterior, profile?_eq_some hlist interior exterior, ?_⟩
  intro houtside
  -- The bracket straddles at the start, and every step keeps it so.
  have hb := between_crossing houtside stop
  rw [report, if_neg houtside]
  exact {
    nonneg := hb.nonneg
    order := hb.order
    atMost := hb.atMost
    innerEnd := rfl
    outerEnd := rfl
    budget := (iterations_narrow _ _).trans_eq (Nat.zero_add _)
    outside := hb.outside
    inside := hb.inside
    feasible := fun hinner => hb.inside.elim id fun hzero => hzero.symm ▸ hinner }

/-- One variable whose cube must not exceed it: what is feasible is not convex. -/
def cubic : Problem α :=
  ((Problem.ofObjective (.affine ⟨[(0, 1.0)], 0.0⟩ .minimize)).addVariable
    "x" (-4.0) 4.0 .real).addConstraint
      ⟨"cubic", ⟨fun x => x.coord 0 * x.coord 0 * x.coord 0 - x.coord 0,
        fun x => .ok (.ofList [(0, 3.0 * x.coord 0 * x.coord 0 - 1.0)])⟩, 0.0, false⟩

/-- Stop after some number of evaluations and for no other reason. -/
def Stopping.after (budget : Nat) : Stopping α := ⟨budget, -1.0, -1.0⟩

/-- A search that passes over an infeasible part of its segment. -/
theorem find_straddles_cubic :
    ∃ (h : Float → Float) (r : Result Float),
      find cubic [-2.0] [2.0] (.after 3) [0] false = .ok r ∧
        Straddles h (.after 3) [-2.0] [2.0] r ∧ h 0.0 ≤ 0.0 := by
  have hfound : ∃ r, find (cubic (α := Float)) [-2.0] [2.0] (.after 3) [0] false = .ok r :=
    ⟨_, find_eq_ok_iff.2 ⟨rfl, rfl, _, _, rfl, rfl⟩⟩
  rcases hfound with ⟨r, hr⟩
  rcases find_straddles hr with ⟨h, hprofile, hstraddles⟩
  have hinner : (profile? (cubic (α := Float)) [-2.0] [2.0] [0] 0.0).all
      (fun v => decide (v ≤ 0.0)) = true := by decide +kernel
  have houter : (profile? (cubic (α := Float)) [-2.0] [2.0] [0] 1.0).any
      (fun v => decide (v ≤ 0.0)) = false := by decide +kernel
  rw [hprofile, Option.all_some] at hinner
  rw [hprofile, Option.any_some] at houter
  exact ⟨h, r, hr, hstraddles (of_decide_eq_false houter), of_decide_eq_true hinner⟩

/-- The reasons for which a search stops before its budget is used up. -/
inductive Finished (h : α → α) (stop : Stopping α) (r : Result α) : Prop where
  /-- The outer point is feasible, so the whole segment is the result. -/
  | feasible (outer : h 1.0 ≤ 0.0)
  /-- The bracket is narrow enough. -/
  | narrow (width : r.upper - r.lower ≤ stop.width)
  /-- The outer end is close enough to the boundary. -/
  | close (deviation : h r.upper ≤ stop.deviation)
  /-- The midpoint is not strictly inside the bracket. -/
  | adjacent (middle : ¬ (r.lower < 0.5 * (r.lower + r.upper) ∧
      0.5 * (r.lower + r.upper) < r.upper))

/-- A result with one evaluation more: one end of the bracket stays, and the other moves
    strictly inside. -/
structure Tightened (r r' : Result α) : Prop where
  /-- There is one evaluation more. -/
  iterations : r'.iterations = r.iterations + 1
  /-- One end stays. -/
  ends : (r'.lower = r.lower ∧ r.lower < r'.upper ∧ r'.upper < r.upper) ∨
    (r'.upper = r.upper ∧ r.lower < r'.lower ∧ r'.lower < r.upper)

/-- The bracket of a result is the inner or the outer half of that of another. -/
def Bisected (r r' : Result α) : Prop :=
  (r'.lower = r.lower ∧ r'.upper = 0.5 * (r.lower + r.upper)) ∨
    (r'.lower = 0.5 * (r.lower + r.upper) ∧ r'.upper = r.upper)

/-- The same stopping rule with one evaluation more. -/
def Stopping.extended (stop : Stopping α) : Stopping α :=
  { stop with maxIterations := stop.maxIterations + 1 }

section Budget

variable {interior exterior : Point α} {worstAt : Point α → Option (ConstraintValue α)}

theorem report_of_feasible (hinside : h 1.0 ≤ 0.0) (stop' : Stopping α) :
    report h stop' interior exterior worstAt = report h stop interior exterior worstAt := by
  rw [report, report, if_pos hinside, if_pos hinside]

theorem report_congr {stop' : Stopping α}
    (hcrossing : crossing h stop' (h 1.0) = crossing h stop (h 1.0)) :
    report h stop' interior exterior worstAt = report h stop interior exterior worstAt := by
  unfold report
  rw [hcrossing]

/-- A step does not look at the budget. -/
theorem narrow_extended (budget : Nat) (b : Bracket α) :
    narrow h stop.extended bisectOnly budget b = narrow h stop bisectOnly budget b := by
  induction budget generalizing b with
  | zero => rfl
  | succ budget ih =>
      rw [narrow, narrow]
      simp only [ih]
      rfl

/-- With one evaluation more, a search ends where it did or takes one more step. -/
theorem crossing_extended (h : α → α) (stop : Stopping α) :
    crossing h stop.extended (h 1.0) =
      ((crossing h stop (h 1.0)).next? h stop (bisects h)).getD (crossing h stop (h 1.0)) := by
  rw [crossing_eq, crossing_eq, narrow_extended]
  exact narrow_succ stop.maxIterations _

/-- The value kept for the outer end of a search is the one there. -/
theorem upperValue_crossing (h : α → α) (stop : Stopping α) :
    (crossing h stop (h 1.0)).upperValue = h (crossing h stop (h 1.0)).upper := by
  refine narrow_induct (P := fun b : Bracket α => b.upperValue = h b.upper) ?_ _ rfl
  intro b b' hb hnext
  rcases Bracket.next?_eq_some hnext with ⟨t, _, _, rfl⟩
  rcases b.move_ends t (h t) with ⟨_, _, hupper, hvalue⟩ | ⟨_, _, hupper, hvalue⟩
  · rw [hvalue, hupper, hb]
  · rw [hvalue, hupper]

/-- A search that has some of its budget left is the same with more, and has a reason to
    be over. -/
theorem report_of_budget_left
    (hlt : (report h stop interior exterior worstAt).iterations < stop.maxIterations) :
    report h stop.extended interior exterior worstAt =
        report h stop interior exterior worstAt ∧
      Finished h stop (report h stop interior exterior worstAt) := by
  by_cases hinside : h 1.0 ≤ 0.0
  · exact ⟨report_of_feasible hinside _, .feasible hinside⟩
  rw [report, if_neg hinside] at hlt
  -- With steps to spare it stopped because no step was left to make.
  have hover : (crossing h stop (h 1.0)).next? h stop (bisects h) = none :=
    next?_narrow_eq_none (hlt.trans_eq (Nat.zero_add _).symm)
  refine ⟨report_congr ?_, ?_⟩
  · rw [crossing_extended, hover, Option.getD_none]
  · rw [report, if_neg hinside]
    rcases Bracket.next?_eq_none hover with hwidth | hvalue | hmiddle
    · exact .narrow hwidth
    · exact .close (upperValue_crossing h stop ▸ hvalue)
    · exact .adjacent hmiddle

/-- A search with one evaluation more ends where it did, or one end has moved inside. -/
theorem report_extended (h : α → α) (stop : Stopping α) (interior exterior : Point α)
    (worstAt : Point α → Option (ConstraintValue α)) :
    report h stop.extended interior exterior worstAt =
        report h stop interior exterior worstAt ∨
      (Tightened (report h stop interior exterior worstAt)
          (report h stop.extended interior exterior worstAt) ∧
        (bisects h = true → Bisected (report h stop interior exterior worstAt)
          (report h stop.extended interior exterior worstAt))) := by
  by_cases hinside : h 1.0 ≤ 0.0
  · exact .inl (report_of_feasible hinside _)
  have hextended := crossing_extended h stop
  -- One more step is made, if there is one.
  cases hnext : (crossing h stop (h 1.0)).next? h stop (bisects h) with
  | none => exact .inl (report_congr (by rw [hextended, hnext, Option.getD_none]))
  | some b' =>
      rw [hnext, Option.getD_some] at hextended
      rw [report, report, if_neg hinside, if_neg hinside, hextended]
      refine .inr ⟨⟨Bracket.iterations_next hnext, Bracket.within_next hnext⟩, ?_⟩
      intro hbisects
      rw [hbisects] at hnext
      exact Bracket.bisected_next hnext

end Budget

/-- The ends of a bracket are numbers, and its width was halved at every evaluation. -/
def Bracket.Halved (b : Bracket Exact) : Prop :=
  ∃ lower upper : ℚ, b.lower = .finite lower ∧ b.upper = .finite upper ∧
    upper - lower = (1 / 2) ^ b.iterations

theorem Bracket.halved_whole (lowerValue upperValue : Exact) :
    (whole lowerValue upperValue).Halved :=
  ⟨0, 1, Exact.zero_eq, Exact.one_eq, (sub_zero 1).trans (pow_zero _).symm⟩

/-- In exact arithmetic the middle is a number, and halves the width. -/
theorem Bracket.Halved.next {h : Exact → Exact} {stop : Stopping Exact} {b b' : Bracket Exact}
    (hb : b.Halved) (hnext : b.next? h stop true = some b') : b'.Halved := by
  rcases hb with ⟨lower, upper, hlower, hupper, hwidth⟩
  have hmiddle : b.middle = .finite (1 / 2 * (lower + upper)) := by
    rw [middle, hlower, hupper, Exact.half_eq, Exact.finite_add, Exact.finite_mul]
  have hhalf : (upper - lower) / 2 = (1 / 2) ^ b'.iterations := by
    rw [hwidth, iterations_next hnext, pow_succ, mul_one_div]
  have hends := bisected_next hnext
  rw [hlower, hupper, hmiddle] at hends
  rcases hends with ⟨hl, hu⟩ | ⟨hl, hu⟩
  · exact ⟨_, _, hl, hu, by rw [← hhalf]; ring⟩
  · exact ⟨_, _, hl, hu, by rw [← hhalf]; ring⟩

theorem halved_crossing {h : Exact → Exact} (hinner : 0.0 < h 0.0) (stop : Stopping Exact) :
    (crossing h stop (h 1.0)).Halved := by
  rw [crossing_eq, bisects_eq_true hinner]
  exact narrow_induct (fun _ _ hb hnext => hb.next hnext) _ (Bracket.halved_whole _ _)

theorem width_report {h : Exact → Exact} {stop : Stopping Exact} {interior exterior : Point Exact}
    {worstAt : Point Exact → Option (ConstraintValue Exact)} (hinner : 0.0 < h 0.0) :
    (report h stop interior exterior worstAt).width =
      .finite ((1 / 2) ^ (report h stop interior exterior worstAt).iterations) := by
  by_cases hinside : h 1.0 ≤ 0.0
  · rw [report, if_pos hinside, Result.width, Exact.one_eq, Exact.zero_eq, Exact.finite_sub,
      pow_zero, sub_zero]
  · rcases halved_crossing hinner stop with ⟨lower, upper, hlower, hupper, hwidth⟩
    rw [report, if_neg hinside, Result.width]
    simp only [hlower, hupper, Exact.finite_sub, hwidth]

/-- A search keeps its budget. If it is over before, one evaluation more changes nothing, and
    there is a reason for it; if not, one evaluation more changes nothing or makes one
    step. From an infeasible inner point a step takes one half of the bracket, and
    in exact arithmetic the width is a power of one half. -/
theorem find_budget :
    (∀ (α : Type) [Scalar α] [Scalar.NumberOrder α] (p : Problem α) (interior exterior : Point α)
      (stop : Stopping α) (indices : List Nat) (wantWorst : Bool) (r : Result α),
      find p interior exterior stop indices wantWorst = .ok r →
      ∃ (h : α → α) (r' : Result α),
        (∀ t, profile? p interior exterior indices t = some (h t)) ∧
        find p interior exterior stop.extended indices wantWorst = .ok r' ∧
        r.iterations ≤ stop.maxIterations ∧
        (r.iterations < stop.maxIterations → r' = r ∧ Finished h stop r) ∧
        (r.iterations = stop.maxIterations → r' = r ∨ Tightened r r') ∧
        (0.0 < h 0.0 → r' = r ∨ Bisected r r')) ∧
    (∀ (p : Problem Exact) (interior exterior : Point Exact) (stop : Stopping Exact)
      (indices : List Nat) (wantWorst : Bool) (r : Result Exact) (v : Exact),
      find p interior exterior stop indices wantWorst = .ok r →
      profile? p interior exterior indices 0.0 = some v → 0.0 < v →
        r.width = .finite ((1 / 2) ^ r.iterations)) := by
  constructor
  · intro α _ _ p interior exterior stop indices wantWorst r hr
    rcases find_eq_ok_iff.1 hr with ⟨hi, he, first, rest, hlist, rfl⟩
    refine ⟨level first rest interior exterior, _, profile?_eq_some hlist interior exterior,
      find_eq_ok_iff.2 ⟨hi, he, first, rest, hlist, rfl⟩, ?_, report_of_budget_left, ?_, ?_⟩
    · unfold report
      split
      · exact Nat.zero_le _
      · exact (iterations_narrow _ _).trans_eq (Nat.zero_add _)
    · exact fun _ => (report_extended _ stop interior exterior _).imp_right And.left
    · intro hinner
      exact (report_extended _ stop interior exterior _).imp_right fun hmore =>
        hmore.2 (bisects_eq_true hinner)
  · intro p interior exterior stop indices wantWorst r v hr hv hpos
    rcases find_eq_ok_iff.1 hr with ⟨_, _, first, rest, hlist, rfl⟩
    rw [profile?_eq_some hlist, Option.some.injEq] at hv
    subst hv
    exact width_report hpos

/-- From an infeasible inner point two evaluations leave a quarter of the segment, and a third
    one takes one half of that. -/
theorem find_budget_cubic :
    (∃ r r' : Result Float,
      find cubic [2.0] [3.0] (.after 2) [0] false = .ok r ∧
        find cubic [2.0] [3.0] (Stopping.after 2).extended [0] false = .ok r' ∧
        r.iterations = 2 ∧ (r' = r ∨ Tightened r r') ∧ (r' = r ∨ Bisected r r')) ∧
      ∃ r : Result Exact, find cubic [2.0] [3.0] (.after 2) [0] false = .ok r ∧
        r.width = .finite (1 / 4) := by
  constructor
  · have hfound : ∃ r, find (cubic (α := Float)) [2.0] [3.0] (.after 2) [0] false = .ok r :=
      ⟨_, find_eq_ok_iff.2 ⟨rfl, rfl, _, _, rfl, rfl⟩⟩
    have htwo : (find (cubic (α := Float)) [2.0] [3.0] (.after 2) [0] false).toOption.all
        (fun r => r.iterations == 2) = true := by decide +kernel
    have hinner : (profile? (cubic (α := Float)) [2.0] [3.0] [0] 0.0).all
        (fun v => decide (0.0 < v)) = true := by decide +kernel
    rcases hfound with ⟨r, hr⟩
    rcases find_budget.1 Float cubic [2.0] [3.0] (.after 2) [0] false r hr with
      ⟨h, r', hprofile, hr', _, _, hmore, hhalf⟩
    rw [hr, Except.toOption, Option.all_some, beq_iff_eq] at htwo
    rw [hprofile, Option.all_some] at hinner
    exact ⟨r, r', hr, hr', htwo, hmore htwo, hhalf (of_decide_eq_true hinner)⟩
  · have hfound : ∃ r, find (cubic (α := Exact)) [2.0] [3.0] (.after 2) [0] false = .ok r :=
      ⟨_, find_eq_ok_iff.2 ⟨rfl, rfl, _, _, rfl, rfl⟩⟩
    have htwo : (find (cubic (α := Exact)) [2.0] [3.0] (.after 2) [0] false).toOption.all
        (fun r => r.iterations == 2) = true := by decide +kernel
    have hinner : ∃ v, profile? (cubic (α := Exact)) [2.0] [3.0] [0] 0.0 = some v ∧ 0.0 < v :=
      ⟨.finite 6, by decide +kernel, by decide +kernel⟩
    rcases hfound with ⟨r, hr⟩
    rcases hinner with ⟨v, hv, hpos⟩
    have hwidth := find_budget.2 cubic [2.0] [3.0] (.after 2) [0] false r v hr hv hpos
    rw [hr, Except.toOption, Option.all_some, beq_iff_eq] at htwo
    refine ⟨r, hr, ?_⟩
    rw [hwidth, htwo]
    norm_num

end LineSearch

end OuterApprox
