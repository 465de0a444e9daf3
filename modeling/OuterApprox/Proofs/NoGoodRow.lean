import OuterApprox.Proofs.NoGood
import OuterApprox.Proofs.WholeNumbers

/-!
# What a no-good row says

A no-good cut is a list of columns, as it was queued: in any order, and a column may
be listed twice. The row made of it depends on the set of the columns alone. They
are sorted and every repetition dropped first, and both the test whether the columns
exist and the right-hand side look at what is left. Counting before that would ask
for too little, since a column listed twice would count twice on the right and once
on the left.

That the row then forbids the listed columns to be one all at once is a matter of
counting, which is exact in the rationals, and in double precision up to `2 ^ 53`
columns.

## Main definitions

* `Row.Forbids`: The shape of a no-good row.
* `Point.BinaryOn`: The listed columns are zero or one.

## Theorems

* `distinctIncreasing_congr`: Sorting depends on the set of members alone.
* `DoubleOrder.whole_foldl`: The left-hand side counts ones, in double precision too.
* `noGoodRow_spec`: When there is a row, what it looks like, and what it says.
-/

namespace OuterApprox

/-- An increasing list is the only one with its members. -/
theorem distinctIncreasing_congr {l l' : List Nat} (h : ∀ i, i ∈ l' ↔ i ∈ l) :
    distinctIncreasing l' = distinctIncreasing l := by
  refine (distinctIncreasing_pairwise l').eq_of_mem_iff (distinctIncreasing_pairwise l) ?_
  intro i
  rw [mem_distinctIncreasing, mem_distinctIncreasing, h]

theorem length_distinctIncreasing (l : List Nat) :
    (distinctIncreasing l).length = l.toFinset.card := by
  rw [← List.toFinset_card_of_nodup (distinctIncreasing_pairwise l).nodup]
  congr 1
  ext i
  rw [List.mem_toFinset, List.mem_toFinset, mem_distinctIncreasing]

theorem distinctIncreasing_eq_nil_iff (l : List Nat) : distinctIncreasing l = [] ↔ l = [] := by
  simp only [List.eq_nil_iff_forall_not_mem, mem_distinctIncreasing]

/-- The row that forbids the listed columns to be one all at once: every listed column
    once, in increasing order and with coefficient one, and on the right-hand side one
    less than there are of them. -/
structure Row.Forbids {α : Type} [Scalar α] (row : Row α) (n : Nat) (indices : List Nat) :
    Prop where
  /-- The row is one over all columns. -/
  dimension : row.dimension = n
  /-- The columns are in order, and none is there twice. -/
  increasing : (row.terms.map Prod.fst).Pairwise (· < ·)
  /-- They are the listed ones. -/
  columns : ∀ i, i ∈ row.terms.map Prod.fst ↔ i ∈ indices
  /-- Every coefficient is one. -/
  coefficients : ∀ t ∈ row.terms, t.2 = 1.0
  /-- The right-hand side is one less than the number of columns. -/
  upper : row.upper = Scalar.ofNat (indices.toFinset.card - 1)

/-- The listed columns are zero or one at a point. -/
def Point.BinaryOn {α : Type} [Scalar α] (x : Point α) (indices : List Nat) : Prop :=
  ∀ i ∈ indices, x[i]? = some 0.0 ∨ x[i]? = some 1.0

instance {α : Type} [Scalar α] [DecidableEq α] (x : Point α) (indices : List Nat) :
    Decidable (x.BinaryOn indices) :=
  inferInstanceAs (Decidable (∀ i ∈ indices, _))

section

variable {α : Type} [Scalar α] (n : Nat) (indices : List Nat)

theorem noGoodRow_eq (h : indices ≠ [] ∧ ∀ i ∈ indices, i < n) :
    (noGoodRow n indices : Option (Row α)) = some {
      dimension := n
      terms := (distinctIncreasing indices).map fun i => (i, 1.0)
      upper := Scalar.ofNat (indices.toFinset.card - 1) } := by
  have hbuilt : ¬ ((distinctIncreasing indices).isEmpty ||
      (distinctIncreasing indices).getLast?.any (n ≤ ·)) = true := by
    rw [(getLast?_distinctIncreasing_any n indices).2 h.2, Bool.or_false, List.isEmpty_iff,
      distinctIncreasing_eq_nil_iff]
    exact h.1
  rw [← length_distinctIncreasing]
  exact if_neg hbuilt

theorem noGoodRow_eq_none (h : ¬ (indices ≠ [] ∧ ∀ i ∈ indices, i < n)) :
    (noGoodRow n indices : Option (Row α)) = none := by
  refine if_pos ?_
  rw [Bool.or_eq_true, List.isEmpty_iff, distinctIncreasing_eq_nil_iff]
  by_cases hempty : indices = []
  · exact .inl hempty
  · refine .inr ?_
    rw [← Bool.not_eq_false, getLast?_distinctIncreasing_any]
    exact fun hlt => h ⟨hempty, hlt⟩

theorem isSome_noGoodRow_iff :
    (noGoodRow n indices : Option (Row α)).isSome = true ↔
      indices ≠ [] ∧ ∀ i ∈ indices, i < n := by
  by_cases h : indices ≠ [] ∧ ∀ i ∈ indices, i < n
  · rw [noGoodRow_eq n indices h]
    exact iff_of_true rfl h
  · rw [noGoodRow_eq_none n indices h]
    exact iff_of_false Bool.false_ne_true h

variable {n indices}

theorem eq_of_noGoodRow {row : Row α} (h : noGoodRow n indices = some row) :
    row = {
      dimension := n
      terms := (distinctIncreasing indices).map fun i => (i, 1.0)
      upper := Scalar.ofNat (indices.toFinset.card - 1) } := by
  have hsome := (isSome_noGoodRow_iff (α := α) n indices).1 (by rw [h]; rfl)
  rw [noGoodRow_eq n indices hsome] at h
  exact (Option.some.inj h).symm

theorem forbids_noGoodRow {row : Row α} (h : noGoodRow n indices = some row) :
    row.Forbids n indices := by
  have hcolumns : row.terms.map Prod.fst = distinctIncreasing indices := by
    rw [eq_of_noGoodRow h, List.map_map]
    exact List.map_id _
  refine ⟨?_, ?_, ?_, ?_, ?_⟩
  · rw [eq_of_noGoodRow h]
  · rw [hcolumns]
    exact distinctIncreasing_pairwise indices
  · intro i
    rw [hcolumns, mem_distinctIncreasing]
  · intro t ht
    rw [eq_of_noGoodRow h] at ht
    rcases List.mem_map.1 ht with ⟨i, -, rfl⟩
    rfl
  · rw [eq_of_noGoodRow h]

/-- The order of the list does not matter, nor how often a column is listed. -/
theorem noGoodRow_congr {other : List Nat} (h : ∀ i, i ∈ other ↔ i ∈ indices) :
    (noGoodRow n other : Option (Row α)) = noGoodRow n indices := by
  unfold noGoodRow
  rw [distinctIncreasing_congr h]

/-- Where zero is not one, some listed column is zero unless all of them are one. -/
theorem Point.BinaryOn.exists_zero_iff {x : Point α} (hx : x.BinaryOn indices)
    (hne : (0.0 : α) ≠ 1.0) :
    (∃ i ∈ indices, x[i]? = some 0.0) ↔ ¬ ∀ i ∈ indices, x[i]? = some 1.0 := by
  constructor
  · rintro ⟨i, hi, hzero⟩ hones
    exact hne (Option.some.inj (hzero.symm.trans (hones i hi)))
  · intro hsome
    by_contra hnone
    refine hsome fun i hi => (hx i hi).resolve_left fun hzero => hnone ⟨i, hi, hzero⟩

end

namespace DoubleOrder

/-- Ones and zeros add up to the number of ones, with nothing lost to rounding. -/
theorem whole_foldl (l : List Nat) (x : Point Float) (hx : x.BinaryOn l) {v : Float} {k : Nat}
    (hv : Whole v k) (hle : k + l.length ≤ 2 ^ 53) :
    Whole ((l.map fun i => (i, (1.0 : Float))).foldl (fun s t => s + t.2 * x.coord t.1) v)
      (k + l.countP fun i => decide (x[i]? = some 1.0)) := by
  induction l generalizing v k with
  | nil => exact hv
  | cons i rest ih =>
      have hrest : x.BinaryOn rest := fun j hj => hx j (List.mem_cons_of_mem _ hj)
      rw [List.length_cons] at hle
      rw [List.map_cons, List.foldl_cons, List.countP_cons]
      rcases hx i List.mem_cons_self with hi | hi
      · have hterm : (1.0 : Float) * x.coord i = 0.0 := by
          rw [Point.coord, hi]
          decide +kernel
        have hne : ¬ (0.0 : Float) = 1.0 := by decide +kernel
        have hsum := hv.add whole_zero (by omega)
        simp only [hi, hterm, Option.some.injEq, hne]
        exact ih hrest hsum (by omega)
      · have hterm : (1.0 : Float) * x.coord i = 1.0 := by
          rw [Point.coord, hi]
          decide +kernel
        have hsum := hv.add whole_one (by omega)
        have hall := ih hrest hsum (by omega)
        simp only [hi, hterm, decide_true, if_true]
        rw [add_assoc, add_comm 1] at hall
        exact hall

end DoubleOrder

open DoubleOrder in
/-- In double precision the row is satisfied unless every listed column is one. -/
theorem satisfied_noGoodRow_double {n : Nat} {indices : List Nat} {row : Row Float}
    (h : noGoodRow n indices = some row) (hcard : indices.toFinset.card ≤ 2 ^ 53)
    (x : Point Float) (hx : x.BinaryOn indices) :
    row.Satisfied x ↔ ¬ ∀ i ∈ indices, x[i]? = some 1.0 := by
  have hlength := length_distinctIncreasing indices
  have hne := ((isSome_noGoodRow_iff (α := Float) n indices).1 (by rw [h]; rfl)).1
  have hpos : 0 < indices.toFinset.card :=
    Finset.card_pos.2 (List.toFinset_nonempty_iff indices |>.2 hne)
  have hsum := whole_foldl (distinctIncreasing indices) x
    (fun i hi => hx i ((mem_distinctIncreasing i indices).1 hi)) whole_zero (by omega)
  have hupper := whole_ofNat (k := indices.toFinset.card - 1) (by omega)
  rw [eq_of_noGoodRow h]
  refine (hsum.le_iff hupper).trans ?_
  -- The ones are fewer than the columns unless they are all of them.
  have hcount := List.countP_le_length (p := fun i => decide (x[i]? = some (1.0 : Float)))
    (l := distinctIncreasing indices)
  have hall := List.countP_eq_length (p := fun i => decide (x[i]? = some (1.0 : Float)))
    (l := distinctIncreasing indices)
  simp only [decide_eq_true_eq, mem_distinctIncreasing] at hall
  rw [← hall]
  omega

/-- There is a row exactly if the list is not empty and all its columns exist. It has
    every listed column once, in increasing order and with coefficient one, and one less
    than there are of them on the right, so it is the same for every list of the same
    columns. A point with zeros and ones there satisfies it exactly if one of them is a
    zero: always in exact arithmetic, and in double precision as long as there are no
    more columns than can be counted. -/
theorem noGoodRow_spec (n : Nat) (indices : List Nat) :
    (∀ (α : Type) [Scalar α],
      ((noGoodRow n indices : Option (Row α)).isSome = true ↔
        indices ≠ [] ∧ ∀ i ∈ indices, i < n) ∧
      (∀ row : Row α, noGoodRow n indices = some row → row.Forbids n indices) ∧
      ∀ other : List Nat, (∀ i, i ∈ other ↔ i ∈ indices) →
        (noGoodRow n other : Option (Row α)) = noGoodRow n indices) ∧
    (∀ row : Row Exact, noGoodRow n indices = some row → ∀ x : Point Exact,
      x.BinaryOn indices → (row.Satisfied x ↔ ∃ i ∈ indices, x[i]? = some 0.0)) ∧
    (indices.toFinset.card ≤ 2 ^ 53 → ∀ row : Row Float, noGoodRow n indices = some row →
      ∀ x : Point Float, x.BinaryOn indices →
        (row.Satisfied x ↔ ∃ i ∈ indices, x[i]? = some 0.0)) := by
  refine ⟨?_, ?_, ?_⟩
  · intro α _
    exact ⟨isSome_noGoodRow_iff n indices, fun row => forbids_noGoodRow,
      fun other => noGoodRow_congr⟩
  · intro row hrow x hx
    rcases (isSome_noGoodRow_iff (α := Exact) n indices).1 (by rw [hrow]; rfl) with ⟨hne, hlt⟩
    rcases noGoodRow_violated_iff n indices hne hlt with ⟨built, hbuilt, hviolated⟩
    obtain rfl : built = row := Option.some.inj (hbuilt.symm.trans hrow)
    rw [hx.exists_zero_iff (by decide +kernel), ← hviolated x hx, not_not]
  · intro hcard row hrow x hx
    rw [hx.exists_zero_iff (by decide +kernel)]
    exact satisfied_noGoodRow_double hrow hcard x hx

/-- Two of four columns, one of them listed twice and the larger one first: the list
    without the repetition gives the same row, and the row forbids the two to be one
    together and looks at nothing else. -/
theorem noGoodRow_spec_repeated :
    (noGoodRow 4 [3, 1, 3] : Option (Row Float)) = noGoodRow 4 [1, 3] ∧
    ∃ row : Row Float, noGoodRow 4 [3, 1, 3] = some row ∧ row.Forbids 4 [3, 1, 3] ∧
      row.Satisfied [7.0, 1.0, 0.5, 0.0] ∧ ¬ row.Satisfied [7.0, 1.0, 0.5, 1.0] := by
  obtain ⟨hshape, -, hdouble⟩ := noGoodRow_spec 4 [3, 1, 3]
  obtain ⟨hsome, hforbids, hsame⟩ := hshape Float
  obtain ⟨row, hrow⟩ := Option.isSome_iff_exists.1 (hsome.2 (by decide))
  have hmembers : ∀ i, i ∈ [1, 3] ↔ i ∈ [3, 1, 3] := by
    intro i
    simp only [List.mem_cons, List.not_mem_nil, or_false]
    omega
  have hsatisfied := hdouble (by decide) row hrow
  refine ⟨(hsame [1, 3] hmembers).symm, row, hrow, hforbids row hrow, ?_, ?_⟩
  · rw [hsatisfied _ (by decide +kernel)]
    decide +kernel
  · rw [hsatisfied _ (by decide +kernel)]
    decide +kernel

end OuterApprox
