import OuterApprox.LineSearch

/-!
# Segments

Where a line search can end. Whatever the constraints do along the segment, a
search that gives a result was asked with two points of the right length, and
both ends of its final bracket are points of the segment between them.

A search has two ways to end. If the outer point is feasible the result is the
segment itself, and its ends are the points given, not points computed from the
parameters zero and one. Otherwise it is the final bracket.

## Main definitions

* `LineSearch.OnSegment`: The ends of a result lie on a segment.
* `LineSearch.Crossed`: A result is the final bracket of a search across the
  boundary.
* `LineSearch.report`: The result of a search whose arguments are all right.

## Theorems

* `checkDimension_eq_ok_iff`: The check passes exactly on points of the right
  length.
* `length_between`: A point of the segment has the length of its ends.
* `find_eq_ok_iff`: When there is a result, and which.
* `find_cases`: Where its ends are, in both cases.
* `find_onSegment`: A result was found on the segment it was asked for.
* `OnSegment.length_interior`: The inner end has one coordinate per variable.
-/

namespace OuterApprox

variable {α : Type}

theorem Problem.checkDimension_eq_ok_iff (p : Problem α) (x : Point α) :
    p.checkDimension x = .ok () ↔ x.length = p.dimension := by
  unfold checkDimension
  by_cases h : x.length = p.dimension
  · rw [if_pos h]
    exact ⟨fun _ => h, fun _ => rfl⟩
  · rw [if_neg h]
    exact ⟨fun hc => by simp only [reduceCtorEq] at hc, fun hc => absurd hc h⟩

variable [Scalar α]

theorem Point.length_between (a b : Point α) (t : α) (h : a.length = b.length) :
    (Point.between a b t).length = a.length := by
  rw [Point.between, List.length_zipWith, h, Nat.min_self]

namespace LineSearch

/-- The ends of a result lie on the segment from `interior` to `exterior`. -/
def OnSegment (interior exterior : Point α) (r : Result α) : Prop :=
  (r.interior = interior ∧ r.exterior = exterior) ∨
    (r.interior = Point.between interior exterior r.lower ∧
      r.exterior = Point.between interior exterior r.upper)

/-- A result is the final bracket of a search along a segment whose outer point is
    infeasible: `h` is the largest value of the constraints along it. -/
structure Crossed (h : α → α) (stop : Stopping α) (interior exterior : Point α)
    (r : Result α) : Prop where
  /-- The outer point is infeasible. -/
  outside : ¬ h 1.0 ≤ 0.0
  /-- The inner parameter is that of the bracket. -/
  lower : r.lower = (crossing h stop (h 1.0)).lower
  /-- The outer parameter is that of the bracket. -/
  upper : r.upper = (crossing h stop (h 1.0)).upper
  /-- The inner end is the point at its parameter. -/
  innerEnd : r.interior = Point.between interior exterior r.lower
  /-- The outer end is the point at its parameter. -/
  outerEnd : r.exterior = Point.between interior exterior r.upper

/-- What a search reports when nothing is wrong with its arguments: `h` is the largest
    value of the constraints along the segment, and `worstAt` the constraint it belongs
    to, where that is asked for. -/
def report (h : α → α) (stop : Stopping α) (interior exterior : Point α)
    (worstAt : Point α → Option (ConstraintValue α)) : Result α :=
  if h 1.0 ≤ 0.0 then
    { interior
      exterior
      iterations := 0
      lower := 0.0
      upper := 1.0
      mostDeviating := worstAt exterior
      remarks := [.exteriorFeasible (h 1.0)] }
  else
    let b := crossing h stop (h 1.0)
    { interior := Point.between interior exterior b.lower
      exterior := Point.between interior exterior b.upper
      iterations := b.iterations
      lower := b.lower
      upper := b.upper
      mostDeviating := worstAt (Point.between interior exterior b.upper)
      remarks := (if 0.0 < h 0.0 then [.interiorInfeasible (h 0.0)] else []) ++
        [.bracketed b.iterations b.lower b.upper b.lowerValue b.upperValue] }

/-- A search gives a result exactly if it is asked with two points of the right length
    and at least one constraint is where it looks for them. -/
theorem find_eq_ok_iff {p : Problem α} {interior exterior : Point α} {stop : Stopping α}
    {indices : List Nat} {wantWorst : Bool} {r : Result α} :
    find p interior exterior stop indices wantWorst = .ok r ↔
      interior.length = p.dimension ∧ exterior.length = p.dimension ∧
        ∃ first rest, p.constraintsAt indices = first :: rest ∧
          report (level first rest interior exterior) stop interior exterior
            (fun x => if wantWorst then p.maxValue? x indices else none) = r := by
  rw [← p.checkDimension_eq_ok_iff, ← p.checkDimension_eq_ok_iff]
  unfold find
  -- The two length checks come first, and a failed one ends the search.
  cases hi : p.checkDimension interior with
  | error e => simp only [bind, Except.bind, reduceCtorEq, false_and]
  | ok u =>
      cases he : p.checkDimension exterior with
      | error e => simp only [bind, Except.bind, reduceCtorEq, false_and, and_false]
      | ok v =>
          simp only [bind, Except.bind, true_and]
          -- Without constraints, listed or found, there is nothing to search along.
          cases hempty : indices.isEmpty with
          | true =>
              rw [List.isEmpty_iff.1 hempty]
              simp only [if_true, throw, throwThe, MonadExceptOf.throw, reduceCtorEq,
                Problem.constraintsAt, List.filterMap_nil, false_and, exists_false]
          | false =>
              simp only [Bool.false_eq_true, if_false, pure, Except.pure]
              cases hlist : p.constraintsAt indices with
              | nil =>
                  simp only [throw, throwThe, MonadExceptOf.throw, reduceCtorEq, false_and,
                    exists_false]
              | cons first rest =>
                  simp only [List.cons.injEq, and_assoc, exists_and_left, exists_eq_left']
                  rw [report]
                  split <;> simp only [Except.ok.injEq]

/-- A search that gives a result was asked with two points of the right length.
    It found the outer point feasible, or the boundary crossed. -/
theorem find_cases {p : Problem α} {interior exterior : Point α} {stop : Stopping α}
    {indices : List Nat} {wantWorst : Bool} {r : Result α}
    (h : find p interior exterior stop indices wantWorst = .ok r) :
    interior.length = p.dimension ∧ exterior.length = p.dimension ∧
      ∃ first rest, p.constraintsAt indices = first :: rest ∧
        ((r.interior = interior ∧ r.exterior = exterior) ∨
          Crossed (level first rest interior exterior) stop interior exterior r) := by
  obtain ⟨hi, he, first, rest, hlist, rfl⟩ := find_eq_ok_iff.1 h
  refine ⟨hi, he, first, rest, hlist, ?_⟩
  unfold report
  split
  · exact .inl ⟨rfl, rfl⟩
  -- Past that test the outer point is infeasible, and the bracket is crossed.
  next houtside => exact .inr ⟨houtside, rfl, rfl, rfl, rfl⟩

/-- A search that gives a result was asked with two points of the right length,
    and its result lies on the segment between them. -/
theorem find_onSegment {p : Problem α} {interior exterior : Point α} {stop : Stopping α}
    {indices : List Nat} {wantWorst : Bool} {r : Result α}
    (h : find p interior exterior stop indices wantWorst = .ok r) :
    interior.length = p.dimension ∧ exterior.length = p.dimension ∧
      OnSegment interior exterior r := by
  rcases find_cases h with ⟨hi, he, first, rest, _, hends | hcrossed⟩
  · exact ⟨hi, he, .inl hends⟩
  · exact ⟨hi, he, .inr ⟨hcrossed.innerEnd, hcrossed.outerEnd⟩⟩

theorem OnSegment.length_interior {interior exterior : Point α} {r : Result α}
    (h : OnSegment interior exterior r) (hlen : interior.length = exterior.length) :
    r.interior.length = interior.length := by
  rcases h with ⟨hin, _⟩ | ⟨hin, _⟩
  · rw [hin]
  · rw [hin, Point.length_between _ _ _ hlen]

end LineSearch

end OuterApprox
