import OuterApprox.Callback.Basic
import OuterApprox.Proofs.ExactArithmetic

/-!
# What a no-good cut forbids

When the local solver finds nothing for an assignment of binaries, the binaries
at one are forbidden to be one all at once again. The row that says so is
violated at the assignment itself, as it should be. It is violated just as well
at every other assignment that has those binaries at one, whatever the remaining
binaries are: the row does not look at the binaries at zero. So the cut forbids
the candidate together with everything above it, and is satisfied exactly where
some binary at one in the candidate is zero.

## Main definitions

* `Problem.BinaryAt`: The discrete variables are zero or one at a point.

## Theorems

* `mem_distinctIncreasing`: Sorting without repetition keeps the members.
* `getLast?_distinctIncreasing_any`: Comparing the last column compares them all.
* `FixedIntegerQueue.mem_onesAt_iff`: The binaries at one in a candidate.
* `weigh_ones_eq_countP`: The left-hand side of a no-good cut counts ones.
* `FixedIntegerQueue.noGood_violated_iff`: Which assignments a no-good cut
  forbids.
* `FixedIntegerQueue.noGood_forbids_more`: It forbids more than the candidate.
-/

namespace OuterApprox

theorem mem_distinctIncreasing (k : Nat) (l : List Nat) :
    k ∈ distinctIncreasing l ↔ k ∈ l := by
  induction l with
  | nil => exact Iff.rfl
  | cons i rest ih =>
      change k ∈ insertIncreasing i (distinctIncreasing rest) ↔ k ∈ i :: rest
      rw [mem_insertIncreasing, ih, List.mem_cons]

/-- The last column of an increasing list is the largest, so none is out of range if
    that one is not. -/
theorem getLast?_distinctIncreasing_any (n : Nat) (l : List Nat) :
    (distinctIncreasing l).getLast?.any (n ≤ ·) = false ↔ ∀ i ∈ l, i < n := by
  have hincreasing := distinctIncreasing_pairwise l
  have hmembers : (∀ i ∈ l, i < n) ↔ ∀ i ∈ distinctIncreasing l, i < n :=
    forall_congr' fun i => by rw [mem_distinctIncreasing]
  rw [hmembers]
  rcases List.eq_nil_or_concat (distinctIncreasing l) with hnil | ⟨init, last, hlast⟩
  · rw [hnil]
    exact iff_of_true rfl fun i hi => absurd hi List.not_mem_nil
  · rw [hlast] at hincreasing ⊢
    rw [List.concat_eq_append, List.getLast?_concat, Option.any_some, decide_eq_false_iff_not,
      Nat.not_le]
    rw [List.concat_eq_append, List.pairwise_append] at hincreasing
    constructor
    · intro hlt i hi
      rcases List.mem_append.1 hi with hi | hi
      · have hbelow := hincreasing.2.2 i hi last (List.mem_singleton_self last)
        omega
      · rw [List.mem_singleton.1 hi]
        exact hlt
    · exact fun hall => hall last (List.mem_append_right _ (List.mem_singleton_self last))

theorem Problem.lt_dimension_of_mem_discreteIndices {α : Type} {p : Problem α} {i : Nat}
    (h : i ∈ p.discreteIndices) : i < p.dimension := by
  simp only [discreteIndices, indicesWhere, List.mem_map, List.mem_filter] at h
  rcases h with ⟨⟨v, j⟩, ⟨hmem, _⟩, rfl⟩
  have hlt := List.snd_lt_add_of_mem_zipIdx hmem
  simpa only [dimension, Nat.add_zero, Nat.zero_add] using hlt

/-- The discrete variables are zero or one at a point. -/
def Problem.BinaryAt {α : Type} [Scalar α] (p : Problem α) (x : Point α) : Prop :=
  ∀ i ∈ p.discreteIndices, x[i]? = some 0.0 ∨ x[i]? = some 1.0

/-- With ones and zeros for coordinates, unit coefficients count the ones. -/
theorem weigh_ones_eq_countP (l : List Nat) (y : Point Exact)
    (hy : ∀ i ∈ l, y[i]? = some 0.0 ∨ y[i]? = some 1.0) :
    Weighable (l.map fun i => (i, (1.0 : Exact))) y ∧
      weigh (l.map fun i => (i, (1.0 : Exact))) y =
        (l.countP fun i => decide (y[i]? = some 1.0) : Nat) := by
  induction l with
  | nil => exact ⟨fun _ h => absurd h List.not_mem_nil, rfl⟩
  | cons i rest ih =>
      rcases ih fun j hj => hy j (List.mem_cons_of_mem _ hj) with ⟨hweigh, hcount⟩
      have hzero : ¬ (0.0 : Exact) = 1.0 := by decide +kernel
      rcases hy i List.mem_cons_self with hi | hi
      · have hcoord : y.coord i = .finite 0 := by
          rw [Point.coord, hi, Option.getD_some, Exact.zero_eq]
        refine ⟨List.forall_mem_cons.2 ⟨⟨?_, ?_⟩, hweigh⟩, ?_⟩
        · exact Exact.one_eq ▸ rfl
        · exact hcoord ▸ rfl
        · rw [List.map_cons, weigh_cons, hcoord, hcount,
            List.countP_cons_of_neg (by simp only [hi, Option.some.injEq, hzero, decide_false,
              Bool.false_eq_true, not_false_eq_true])]
          simp only [Exact.toRat_finite, mul_zero, zero_add]
      · have hcoord : y.coord i = .finite 1 := by
          rw [Point.coord, hi, Option.getD_some, Exact.one_eq]
        refine ⟨List.forall_mem_cons.2 ⟨⟨?_, ?_⟩, hweigh⟩, ?_⟩
        · exact Exact.one_eq ▸ rfl
        · exact hcoord ▸ rfl
        · rw [List.map_cons, weigh_cons, hcoord, hcount,
            List.countP_cons_of_pos (by simp only [hi, decide_true])]
          simp only [Exact.one_eq, Exact.toRat_finite, mul_one, Nat.cast_add, Nat.cast_one]
          ring

/-- The row over a list of existing columns, and where it is violated. -/
theorem noGoodRow_violated_iff (n : Nat) (indices : List Nat) (hne : indices ≠ [])
    (hlt : ∀ i ∈ indices, i < n) :
    ∃ row : Row Exact, noGoodRow n indices = some row ∧
      ∀ y : Point Exact, (∀ i ∈ indices, y[i]? = some 0.0 ∨ y[i]? = some 1.0) →
        (¬ row.Satisfied y ↔ ∀ i ∈ indices, y[i]? = some 1.0) := by
  have hmem : ∀ i, i ∈ distinctIncreasing indices ↔ i ∈ indices := fun i =>
    mem_distinctIncreasing i indices
  have hpos : 0 < (distinctIncreasing indices).length := by
    rcases List.exists_mem_of_ne_nil indices hne with ⟨i, hi⟩
    exact List.length_pos_of_mem ((hmem i).2 hi)
  have hbuilt : ¬ ((distinctIncreasing indices).isEmpty ||
      (distinctIncreasing indices).getLast?.any (n ≤ ·)) = true := by
    have hfull : (distinctIncreasing indices).isEmpty = false := by
      rw [List.isEmpty_eq_false_iff]
      exact List.ne_nil_of_length_pos hpos
    rw [hfull, (getLast?_distinctIncreasing_any n indices).2 hlt]
    decide
  refine ⟨_, if_neg hbuilt, fun y hy => ?_⟩
  rcases weigh_ones_eq_countP (distinctIncreasing indices) y
    (fun i hi => hy i ((hmem i).1 hi)) with ⟨hweigh, hcount⟩
  rw [Row.satisfied_iff _ y hweigh rfl, hcount, Nat.cast_le]
  -- A count that is not below the length is the length.
  have hle := List.countP_le_length (p := fun i => decide (y[i]? = some (1.0 : Exact)))
    (l := distinctIncreasing indices)
  have hall := List.countP_eq_length (p := fun i => decide (y[i]? = some (1.0 : Exact)))
    (l := distinctIncreasing indices)
  simp only [decide_eq_true_eq, hmem] at hall
  rw [← hall]
  omega

/-- A no-good cut that can be built is handed to the engine, taken or not. -/
theorem Turn.calls_flushIntegerCut {α : Type} [Scalar α] (e : Event α) (t : Turn α)
    (added : Nat) {S : List Nat} {row : Row α}
    (h : noGoodRow t.problem.dimension S = some row) :
    (Turn.flushIntegerCut e (t, added) S).1.calls =
      t.calls ++ [.row .noGood row (e.onRow (t.calls.countP Call.isRow) row).taken] := by
  simp only [Turn.flushIntegerCut]
  split
  next hnone =>
    rw [h] at hnone
    cases hnone
  next built hbuilt =>
    rw [h] at hbuilt
    cases hbuilt
    split
    next t' err heq =>
      rw [← (Prod.mk.inj heq).1]
      rfl
    next t' heq =>
      rw [← (Prod.mk.inj heq).1]
      rfl

namespace FixedIntegerQueue

/-- In a candidate with binary values, the collected binaries are those at one. -/
theorem mem_onesAt_iff {p : Problem Exact} {x : Point Exact} (hx : p.BinaryAt x) (i : Nat) :
    i ∈ onesAt p x ↔ i ∈ p.discreteIndices ∧ x[i]? = some 1.0 := by
  rw [onesAt, List.mem_filter]
  refine and_congr_right fun hi => ?_
  have hzero : decide ((0.5 : Exact) < 0.0) = false := by decide +kernel
  have hone : decide ((0.5 : Exact) < 1.0) = true := by decide +kernel
  have hne : ¬ (0.0 : Exact) = 1.0 := by decide +kernel
  rcases hx i hi with h | h
  · simp only [h, Option.any_some, hzero, Bool.false_eq_true, Option.some.injEq, hne]
  · simp only [h, Option.any_some, hone]

/-- A no-good cut comes from a dead end, and lists the binaries at one. -/
theorem noGood_eq_onesAt {q : FixedIntegerQueue Exact} {p : Problem Exact}
    {c : Candidate Exact} {S : List Nat} (h : (q.outcome p c).noGood? = some S) :
    S = onesAt p c.point ∧ S ≠ [] := by
  unfold outcome at h
  split at h
  · simp only [FixedIntegerOutcome.noGood?, reduceCtorEq] at h
  · split at h
    · simp only [deadEnd] at h
      split at h
      next hones =>
        have heq : onesAt p c.point = S := Option.some.inj h
        rw [Bool.and_eq_true, Bool.not_eq_true', List.isEmpty_eq_false_iff] at hones
        exact ⟨heq.symm, heq ▸ hones.2⟩
      · simp only [FixedIntegerOutcome.noGood?, reduceCtorEq] at h
    · split at h <;> simp only [FixedIntegerOutcome.noGood?, reduceCtorEq] at h

/-- The no-good cut for a candidate with binary values becomes a row, which is
    handed to the engine, and is violated exactly at the assignments that have
    every binary at one that the candidate has at one. The candidate's own
    assignment is among them. -/
theorem noGood_violated_iff (q : FixedIntegerQueue Exact) (p : Problem Exact)
    (c : Candidate Exact) (S : List Nat) (hc : p.BinaryAt c.point)
    (hcut : (q.outcome p c).noGood? = some S) :
    ∃ row : Row Exact, noGoodRow p.dimension S = some row ∧
      (∀ (e : Event Exact) (t : Turn Exact) (added : Nat), t.problem = p →
        (Turn.flushIntegerCut e (t, added) S).1.calls =
          t.calls ++ [.row .noGood row (e.onRow (t.calls.countP Call.isRow) row).taken]) ∧
      (∀ y, p.BinaryAt y →
        (¬ row.Satisfied y ↔
          ∀ i ∈ p.discreteIndices, c.point[i]? = some 1.0 → y[i]? = some 1.0)) ∧
      (∀ y, p.BinaryAt y → (∀ i ∈ p.discreteIndices, y[i]? = c.point[i]?) →
        ¬ row.Satisfied y) := by
  rcases noGood_eq_onesAt hcut with ⟨rfl, hne⟩
  -- The listed columns are the discrete ones at one in the candidate.
  have hones := mem_onesAt_iff hc
  have hdiscrete : ∀ i ∈ onesAt p c.point, i ∈ p.discreteIndices := fun i hi =>
    ((hones i).1 hi).1
  rcases noGoodRow_violated_iff p.dimension (onesAt p c.point) hne
    (fun i hi => Problem.lt_dimension_of_mem_discreteIndices (hdiscrete i hi)) with
    ⟨row, hrow, hviolated⟩
  have hiff : ∀ y, p.BinaryAt y → (¬ row.Satisfied y ↔
      ∀ i ∈ p.discreteIndices, c.point[i]? = some 1.0 → y[i]? = some 1.0) := by
    intro y hy
    rw [hviolated y fun i hi => hy i (hdiscrete i hi)]
    exact ⟨fun h i hi hone => h i ((hones i).2 ⟨hi, hone⟩),
      fun h i hi => h i ((hones i).1 hi).1 ((hones i).1 hi).2⟩
  refine ⟨row, hrow, ?_, hiff, fun y hy hsame => (hiff y hy).2 fun i hi hone => ?_⟩
  · intro e t added hp
    exact Turn.calls_flushIntegerCut e t added (hp ▸ hrow)
  · rw [hsame i hi, hone]

/-- Two binaries, and nothing else. -/
def twoSwitches : Problem Exact :=
  ((Problem.ofObjective (.affine ⟨[], 0.0⟩ .minimize)).addVariable "a" 0.0 1.0 .binary).addVariable
    "b" 0.0 1.0 .binary

/-- A local solver that never finds anything. -/
def hopeless : FixedIntegerQueue Exact := ⟨some fun _ _ _ => none, 0, [], none, false⟩

theorem binaryAt_twoSwitches (a b : Exact) (ha : a = 0.0 ∨ a = 1.0) (hb : b = 0.0 ∨ b = 1.0) :
    twoSwitches.BinaryAt [a, b] := by
  have hindices : twoSwitches.discreteIndices = [0, 1] := by decide +kernel
  intro i hi
  simp only [hindices, List.mem_cons, List.not_mem_nil, or_false] at hi
  rcases hi with rfl | rfl
  · exact ha.imp (congrArg some) (congrArg some)
  · exact hb.imp (congrArg some) (congrArg some)

/-- With both binaries at one in the candidate the cut forbids that assignment
    and no other. -/
theorem noGood_violated_iff_both :
    ∃ row : Row Exact, noGoodRow 2 [0, 1] = some row ∧ ¬ row.Satisfied [1.0, 1.0] ∧
      row.Satisfied [1.0, 0.0] := by
  -- The local solver gives up, which is a dead end with both binaries at one.
  have hcut : (hopeless.outcome twoSwitches
      (twoSwitches.candidate [1.0, 1.0] 1)).noGood? = some [0, 1] := by
    decide +kernel
  rcases noGood_violated_iff hopeless twoSwitches (twoSwitches.candidate [1.0, 1.0] 1) [0, 1]
    (binaryAt_twoSwitches _ _ (.inr rfl) (.inr rfl)) hcut with ⟨row, hrow, _, hiff, hself⟩
  refine ⟨row, hrow, hself _ (binaryAt_twoSwitches _ _ (.inr rfl) (.inr rfl)) fun _ _ => rfl, ?_⟩
  by_contra hviolated
  have hone := (hiff _ (binaryAt_twoSwitches _ _ (.inr rfl) (.inl rfl))).1 hviolated 1
    (by decide +kernel) rfl
  exact absurd hone (by decide +kernel)

/-- A candidate with one binary at one and the other at zero: its no-good cut also
    forbids the assignment with both at one, although the two differ. -/
theorem noGood_forbids_more :
    (hopeless.outcome twoSwitches (twoSwitches.candidate [1.0, 0.0] 1)).noGood? = some [0] ∧
    twoSwitches.BinaryAt [1.0, 0.0] ∧ twoSwitches.BinaryAt [1.0, 1.0] ∧
    (1 ∈ twoSwitches.discreteIndices ∧
      ([1.0, 1.0] : Point Exact)[1]? ≠ ([1.0, 0.0] : Point Exact)[1]?) ∧
    ∃ row : Row Exact, noGoodRow twoSwitches.dimension [0] = some row ∧
      ¬ row.Satisfied [1.0, 1.0] := by
  refine ⟨by decide +kernel, binaryAt_twoSwitches _ _ (.inr rfl) (.inl rfl),
    binaryAt_twoSwitches _ _ (.inr rfl) (.inr rfl), by decide +kernel, ?_⟩
  rcases noGoodRow_violated_iff twoSwitches.dimension [0] (by decide) (by decide) with
    ⟨row, hrow, hiff⟩
  refine ⟨row, hrow, (hiff [1.0, 1.0] ?_).2 ?_⟩
  · intro i hi
    rw [List.mem_singleton.1 hi]
    exact .inr rfl
  · intro i hi
    rw [List.mem_singleton.1 hi]
    rfl

end FixedIntegerQueue

end OuterApprox
