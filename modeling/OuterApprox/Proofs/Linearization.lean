import OuterApprox.Cut.Linearize
import OuterApprox.Proofs.ExactArithmetic

/-!
# First-order expansions

What a linearization says, in exact arithmetic. A request is turned into a row in
several moves: the value and the gradient are evaluated, each coefficient is
checked, its product with the coordinate is subtracted from the constant,
vanishing coefficients are dropped, and the constant becomes the right-hand side
with its sign turned. The row holds at a point exactly if the first-order
expansion around the request's point is not positive there, and everything later
is said in terms of that expansion.

Nothing is required of the request. If a row comes out at all, every coordinate
that a nonzero coefficient applies to is a number, because a single one that is
not would have spoiled the constant, and a constant that is no number is
discarded. In the other direction, an expansion with a usable gradient that is
positive somewhere always gives a row: one without coefficients is discarded only
if its constant is not positive.

The gradient of the epigraph residual is that of the objective with the sign of
the sense, and with the sign taken off at the variable that carries the
objective. That variable may already have a coefficient, which is then merged.

## Main definitions

* `SmoothFunction.Evaluates`: A function has a value and a gradient at a point.
* `SmoothFunction.firstOrder`: The first-order expansion of a function.
* `Linearized`: What is known of a linearization that was built.

## Theorems

* `Problem.collectTerms_spec`, `Problem.collectTerms_eq_ok`: What the constant
  is, and when there is one.
* `Problem.linearize_eq`, `Problem.linearize_eq_ok_iff`: The same for a linearization.
* `Problem.exists_linearize`: When there is one for sure.
* `Linearized.satisfied_iff`: A row holds where the expansion is not positive.
* `SparseVector.weighBy_alterEntries`, `SparseVector.weighBy_map_mul`: Gradients that
  are altered or scaled.
* `Linearized.constraint_iff`, `Linearized.epigraph_iff`: The rows of a
  constraint and of the epigraph.
-/

namespace OuterApprox

/-- Coefficients are numbers, belong to variables that exist, and apply to
    coordinates that are numbers unless they vanish. -/
def Usable (n : Nat) (terms : List (Nat × Exact)) (x : Point Exact) : Prop :=
  ∀ t ∈ terms, t.1 < n ∧ Scalar.isFinite t.2 = true ∧
    (t.2.toRat ≠ 0 → Scalar.isFinite (x.coord t.1) = true)

theorem Usable.tail {n : Nat} {t : Nat × Exact} {rest : List (Nat × Exact)} {x : Point Exact}
    (h : Usable n (t :: rest) x) : Usable n rest x :=
  fun u hu => h u (List.mem_cons_of_mem _ hu)

theorem Usable.weighable_filter {n : Nat} {terms : List (Nat × Exact)} {x : Point Exact}
    (h : Usable n terms x) {y : Point Exact} (hlength : y.length = n) (hy : y.Finite) :
    Weighable (terms.filter fun t => !(t.2 == 0.0)) y := by
  intro t ht
  have ht := h t (List.mem_of_mem_filter ht)
  exact ⟨ht.2.1, hy.coord (hlength ▸ ht.1)⟩

/-- At the point that they are usable for, the coefficients that do not vanish apply to
    numbers. -/
theorem Usable.weighable_filter_self {n : Nat} {terms : List (Nat × Exact)} {x : Point Exact}
    (h : Usable n terms x) : Weighable (terms.filter fun t => !(t.2 == 0.0)) x := by
  intro t ht
  obtain ⟨ht, hkept⟩ := List.mem_filter.1 ht
  obtain ⟨-, hfinite, hcoord⟩ := h t ht
  exact ⟨hfinite, hcoord ((Exact.not_beq_zero_iff hfinite).1 hkept)⟩

/-- Coefficients that are numbers are usable at every point made of numbers. -/
theorem Usable.of_finite {n : Nat} {terms : List (Nat × Exact)} {x : Point Exact}
    (h : ∀ t ∈ terms, t.1 < n ∧ Scalar.isFinite t.2 = true) (hx : x.Finite)
    (hlength : x.length = n) : Usable n terms x :=
  fun t ht => ⟨(h t ht).1, (h t ht).2, fun _ => hx.coord (hlength ▸ (h t ht).1)⟩

namespace Problem

variable {p : Problem Exact} {x : Point Exact}

/-- If the constant comes out as a number, the coefficients are usable and the
    constant is the start less the sum. -/
theorem collectTerms_spec {subject : CutSubject} {terms : List (Nat × Exact)}
    {start constant : Exact}
    (h : p.collectTerms subject x terms start = .ok constant)
    (hconstant : Scalar.isFinite constant = true) :
    Scalar.isFinite start = true ∧ Usable p.dimension terms x ∧
      constant = .finite (start.toRat - weigh terms x) := by
  -- Term by term, with what was taken off so far.
  induction terms generalizing start with
  | nil =>
      rw [collectTerms, Except.ok.injEq] at h
      refine ⟨h ▸ hconstant, fun _ ht => absurd ht List.not_mem_nil, ?_⟩
      rw [weigh_nil, sub_zero, h]
      exact Exact.eq_finite hconstant
  | cons t rest ih =>
      rcases t with ⟨i, c⟩
      rw [collectTerms] at h
      cases hvar : p.vars[i]? with
      | none => simp only [hvar, reduceCtorEq] at h
      | some v =>
          have hi : i < p.dimension := (List.getElem?_eq_some_iff.1 hvar).1
          simp only [hvar] at h
          by_cases hc : Scalar.isFinite c = true
          · simp only [hc, Bool.not_true, Bool.false_eq_true, if_false] at h
            -- A vanishing coefficient is skipped, and its coordinate never looked at.
            by_cases hzero : c.toRat = 0
            · have hbeq : (c == (0.0 : Exact)) = true := by
                rw [Exact.eq_finite hc]
                exact (Exact.beq_zero_iff _).2 hzero
              rw [hbeq, if_pos rfl] at h
              rcases ih h with ⟨hstart, husable, hsum⟩
              refine ⟨hstart, List.forall_mem_cons.2 ⟨⟨hi, hc, fun hne => absurd hzero hne⟩,
                husable⟩, ?_⟩
              rw [hsum, weigh_cons, hzero, zero_mul, zero_add]
            · have hbeq : (c == (0.0 : Exact)) = false := by
                rw [Exact.eq_finite hc, Bool.eq_false_iff]
                exact fun hb => hzero ((Exact.beq_zero_iff _).1 hb)
              rw [hbeq, if_neg Bool.false_ne_true] at h
              rcases ih h with ⟨hstart, husable, hsum⟩
              -- The difference is a number, so both of its sides are.
              rcases Exact.isFinite_of_sub hstart with ⟨hold, hproduct⟩
              have hcoord : Scalar.isFinite (x.coord i) = true := by
                rw [Exact.eq_finite hc] at hproduct
                exact Exact.isFinite_of_mul hzero hproduct
              refine ⟨hold, List.forall_mem_cons.2 ⟨⟨hi, hc, fun _ => hcoord⟩, husable⟩, ?_⟩
              rw [hsum, weigh_cons, Exact.eq_finite hold, Exact.eq_finite hc,
                Exact.eq_finite hcoord]
              simp only [Exact.finite_mul, Exact.finite_sub, Exact.toRat_finite]
              rw [sub_sub]
          · simp only [hc, Bool.not_false, if_true, reduceCtorEq] at h

/-- Usable coefficients give a constant. -/
theorem collectTerms_eq_ok (subject : CutSubject) {terms : List (Nat × Exact)}
    (h : Usable p.dimension terms x) (q : ℚ) :
    p.collectTerms subject x terms (.finite q) = .ok (.finite (q - weigh terms x)) := by
  induction terms generalizing q with
  | nil => rw [collectTerms, weigh_nil, sub_zero]
  | cons t rest ih =>
      rcases t with ⟨i, c⟩
      obtain ⟨hi, hc, hcoord⟩ := h (i, c) List.mem_cons_self
      have hrest := ih h.tail
      simp only [] at hi hc hcoord
      cases hvar : p.vars[i]? with
      | none => exact absurd hi (not_lt.2 (List.getElem?_eq_none_iff.1 hvar))
      | some v =>
          simp only [collectTerms, hvar, hc, Bool.not_true, Bool.false_eq_true, if_false]
          split
          -- A vanishing coefficient adds nothing to the sum.
          next hbeq =>
            rw [Exact.eq_finite hc] at hbeq
            rw [hrest, weigh_cons, (Exact.beq_zero_iff _).1 hbeq, zero_mul, zero_add]
          next hbeq =>
            rw [Exact.eq_finite hc] at hbeq
            have hne : c.toRat ≠ 0 := fun hzero => hbeq ((Exact.beq_zero_iff _).2 hzero)
            rw [weigh_cons, Exact.eq_finite hc, Exact.eq_finite (hcoord hne)]
            simp only [Exact.finite_mul, Exact.finite_sub, Exact.toRat_finite]
            rw [hrest, sub_sub]

end Problem

/-- What is known of a linearization that was built at `x` from a value and a
    gradient. -/
structure Linearized (p : Problem Exact) (x : Point Exact) (value : Exact)
    (g : SparseVector Exact) (l : Linearization Exact) : Prop where
  /-- The point has one coordinate per variable. -/
  length : x.length = p.dimension
  /-- The value is a number. -/
  isNumber : Scalar.isFinite value = true
  /-- The gradient is usable. -/
  usable : Usable p.dimension g.entries x
  /-- Only vanishing coefficients are dropped. -/
  terms : l.terms.entries = g.entries.filter fun t => !(t.2 == 0.0)
  /-- The constant moves the expansion to the origin. -/
  constant : l.constant = .finite (value.toRat - weigh g.entries x)

namespace Problem

variable {p : Problem Exact} {h : Hyperplane Exact} {l : Linearization Exact}

/-- What an expansion with a usable gradient is turned into. -/
theorem linearize_eq {subject : CutSubject} {value : Exact} {g : SparseVector Exact}
    (hexpansion : p.expansion h.target h.point = .ok ⟨subject, value, .ok g⟩)
    (hl : Linearized p h.point value g l) (hdimension : l.dimension = p.dimension) :
    p.linearize h = if l.terms.entries.isEmpty && decide (l.constant ≤ 0.0) then
      .error (.redundant subject) else .ok l := by
  have hcollect := collectTerms_eq_ok subject hl.usable value.toRat
  rw [← Exact.eq_finite hl.isNumber, ← hl.constant] at hcollect
  have hfinite : Scalar.isFinite l.constant = true := by
    rw [hl.constant, Exact.isFinite_finite]
  -- What is kept of the gradient are its nonzero entries.
  have hterms : (g.filter fun c => !(c == 0.0)) = l.terms := by
    rcases hentries : l.terms with ⟨entries, hsorted⟩
    simp only [SparseVector.filter, ← hl.terms, hentries]
  unfold linearize
  rw [if_neg (not_not.2 hl.length), hexpansion]
  simp only [hl.isNumber, Bool.not_true, Bool.false_eq_true, if_false, hcollect, hfinite,
    hterms, ← hdimension]

/-- A linearization is built from the expansion of its target, and kept unless it has neither
    coefficients nor a positive constant. -/
theorem linearize_eq_ok_iff : p.linearize h = .ok l ↔ ∃ subject value g,
    p.expansion h.target h.point = .ok ⟨subject, value, .ok g⟩ ∧
      Linearized p h.point value g l ∧ l.dimension = p.dimension ∧
      (l.terms.entries ≠ [] ∨ ¬ l.constant ≤ 0.0) := by
  constructor
  -- Down through every test that the program makes, in its order.
  · intro hl
    unfold linearize at hl
    split at hl
    · simp only [reduceCtorEq] at hl
    next hlength =>
      split at hl
      · simp only [reduceCtorEq] at hl
      · simp only [reduceCtorEq] at hl
      next subject value g hexpansion =>
        refine ⟨subject, value, g, hexpansion, ?_⟩
        split at hl
        · simp only [reduceCtorEq] at hl
        next hvalue =>
          split at hl
          · simp only [reduceCtorEq] at hl
          next constant hcollect =>
            simp only [] at hl
            split at hl
            · simp only [reduceCtorEq] at hl
            next hfinite =>
              split at hl
              · simp only [reduceCtorEq] at hl
              next hkept =>
                rcases collectTerms_spec hcollect (by simpa using hfinite) with
                  ⟨hstart, husable, hconstant⟩
                cases hl
                refine ⟨⟨not_not.1 hlength, hstart, husable, rfl, hconstant⟩, rfl, ?_⟩
                rwa [Bool.and_eq_true, List.isEmpty_iff, decide_eq_true_iff, not_and_or] at hkept
  · rintro ⟨subject, value, g, hexpansion, hl, hdimension, hkept⟩
    have hnot : (l.terms.entries.isEmpty && decide (l.constant ≤ 0.0)) ≠ true := by
      rwa [ne_eq, Bool.and_eq_true, List.isEmpty_iff, decide_eq_true_iff, not_and_or]
    rw [linearize_eq hexpansion hl hdimension, if_neg hnot]

/-- A linearization was built from the expansion of its target. -/
theorem linearize_spec (hl : p.linearize h = .ok l) :
    ∃ subject value g, p.expansion h.target h.point = .ok ⟨subject, value, .ok g⟩ ∧
      Linearized p h.point value g l := by
  obtain ⟨subject, value, g, hexpansion, hspec, -⟩ := linearize_eq_ok_iff.1 hl
  exact ⟨subject, value, g, hexpansion, hspec⟩

/-- What an expansion with a usable gradient is turned into, unless nothing is left of it. -/
theorem exists_linearize_of_kept {subject : CutSubject} {v : ℚ} {g : SparseVector Exact}
    (hlength : h.point.length = p.dimension)
    (hexpansion : p.expansion h.target h.point = .ok ⟨subject, .finite v, .ok g⟩)
    (husable : Usable p.dimension g.entries h.point)
    (hkept : (g.filter fun c => !(c == 0.0)).entries ≠ [] ∨ 0 < v - weigh g.entries h.point) :
    ∃ l, p.linearize h = .ok l := by
  refine ⟨⟨p.dimension, g.filter fun c => !(c == 0.0), .finite (v - weigh g.entries h.point)⟩,
    linearize_eq_ok_iff.2 ⟨subject, .finite v, g, hexpansion, ⟨hlength, rfl, husable, rfl, rfl⟩,
      rfl, hkept.imp_right fun hpos => ?_⟩⟩
  rw [Exact.zero_eq, Exact.finite_le]
  exact not_le.2 hpos

/-- With a usable gradient at a point made of numbers, an expansion that is positive
    somewhere gives a linearization. -/
theorem exists_linearize {subject : CutSubject} {v : ℚ} {g : SparseVector Exact}
    (hlength : h.point.length = p.dimension) (hpoint : h.point.Finite)
    (hexpansion : p.expansion h.target h.point = .ok ⟨subject, .finite v, .ok g⟩)
    (hg : ∀ t ∈ g.entries, t.1 < p.dimension ∧ Scalar.isFinite t.2 = true) {y : Point Exact}
    (hv : 0 < v + (weigh g.entries y - weigh g.entries h.point)) :
    ∃ l, p.linearize h = .ok l := by
  refine exists_linearize_of_kept hlength hexpansion (.of_finite hg hpoint hlength) ?_
  by_cases hempty : (g.filter fun c => !(c == 0.0)).entries = []
  · -- Without coefficients the expansion is its constant.
    have hzero : weigh g.entries y = 0 := by
      rw [← weigh_filter_ne_zero _ _ fun t ht => (hg t ht).2]
      exact congrArg (weigh · y) hempty
    rw [hzero] at hv
    exact .inr (by linarith)
  · exact .inl hempty

end Problem

namespace Linearized

variable {p : Problem Exact} {x : Point Exact} {value : Exact} {g : SparseVector Exact}
variable {l : Linearization Exact}

/-- A row holds exactly where the expansion is not positive, at every point whose coordinates
    are numbers as far as the row looks at them. -/
theorem satisfied_iff_of_weighable (h : Linearized p x value g l) {y : Point Exact}
    (hy : Weighable l.terms.entries y) :
    l.row.Satisfied y ↔ value.toRat + (weigh g.entries y - weigh g.entries x) ≤ 0 := by
  -- The row lists the nonzero coefficients, which give the same sum.
  have hweigh : weigh l.row.terms y = weigh g.entries y := by
    change weigh l.terms.entries y = weigh g.entries y
    rw [h.terms, weigh_filter_ne_zero _ _ fun t ht => (h.usable t ht).2.1]
  -- The constant moves to the other side with its sign turned.
  have hupper : l.row.upper = .finite (-(value.toRat - weigh g.entries x)) := by
    change -l.constant = _
    rw [h.constant, Exact.finite_neg]
  rw [Row.satisfied_iff _ _ hy hupper, hweigh]
  constructor <;> intro hle <;> linarith

/-- A row holds at a point made of numbers exactly if the expansion is not positive
    there. -/
theorem satisfied_iff (h : Linearized p x value g l) {y : Point Exact}
    (hlength : y.length = p.dimension) (hy : y.Finite) :
    l.row.Satisfied y ↔ value.toRat + (weigh g.entries y - weigh g.entries x) ≤ 0 := by
  refine h.satisfied_iff_of_weighable ?_
  rw [h.terms]
  exact h.usable.weighable_filter hlength hy

end Linearized

namespace SparseVector

/-- An entry of an altered vector is an old one, or the one that was altered. -/
theorem mem_alterEntries {i : Nat} {f : Option Exact → Exact} {l : List (Nat × Exact)}
    {t : Nat × Exact} (h : t ∈ alterEntries i f l) :
    t ∈ l ∨ t = (i, f none) ∨ ∃ c, (i, c) ∈ l ∧ t = (i, f (some c)) := by
  induction l with
  | nil => exact .inr (.inl (List.mem_singleton.1 h))
  | cons u rest ih =>
      rcases u with ⟨j, c⟩
      simp only [alterEntries] at h
      -- In a sorted list the place is before the first entry, at it, or further on.
      split at h
      · rcases List.mem_cons.1 h with rfl | h
        · exact .inr (.inl rfl)
        · exact .inl h
      · split at h
        next heq =>
          rcases List.mem_cons.1 h with rfl | h
          · exact .inr (.inr ⟨c, heq ▸ List.mem_cons_self, rfl⟩)
          · exact .inl (List.mem_cons_of_mem _ h)
        · rcases List.mem_cons.1 h with rfl | h
          · exact .inl List.mem_cons_self
          · rcases ih h with h | h | ⟨d, hd, h⟩
            · exact .inl (List.mem_cons_of_mem _ h)
            · exact .inr (.inl h)
            · exact .inr (.inr ⟨d, List.mem_cons_of_mem _ hd, h⟩)

/-- An old entry stays, or is the one that was altered. -/
theorem mem_alterEntries_of_mem {i : Nat} {f : Option Exact → Exact} {l : List (Nat × Exact)}
    {t : Nat × Exact} (h : t ∈ l) :
    t ∈ alterEntries i f l ∨ (t.1 = i ∧ (i, f (some t.2)) ∈ alterEntries i f l) := by
  induction l with
  | nil => exact absurd h List.not_mem_nil
  | cons u rest ih =>
      rcases u with ⟨j, c⟩
      simp only [alterEntries]
      -- An entry stays, or it is the one that is altered.
      split
      · exact .inl (List.mem_cons_of_mem _ h)
      · split
        next heq =>
          rcases List.mem_cons.1 h with rfl | h
          · exact .inr ⟨heq.symm, List.mem_cons_self⟩
          · exact .inl (List.mem_cons_of_mem _ h)
        · rcases List.mem_cons.1 h with rfl | h
          · exact .inl List.mem_cons_self
          · exact (ih h).imp (List.mem_cons_of_mem _)
              fun hi => ⟨hi.1, List.mem_cons_of_mem _ hi.2⟩

/-- The sum of coefficients times the weights of their variables. -/
def weighBy (terms : List (Nat × Exact)) (w : Nat → ℚ) : ℚ :=
  (terms.map fun t => t.2.toRat * w t.1).sum

@[simp] theorem weighBy_nil (w : Nat → ℚ) : weighBy [] w = 0 := rfl

@[simp] theorem weighBy_cons (t : Nat × Exact) (rest : List (Nat × Exact)) (w : Nat → ℚ) :
    weighBy (t :: rest) w = t.2.toRat * w t.1 + weighBy rest w := by
  rw [weighBy, List.map_cons, List.sum_cons, weighBy]

theorem weighBy_concat (l : List (Nat × Exact)) (t : Nat × Exact) (w : Nat → ℚ) :
    weighBy (l ++ [t]) w = weighBy l w + t.2.toRat * w t.1 := by
  rw [weighBy, List.map_append, List.sum_append, List.map_singleton, List.sum_singleton, weighBy]

/-- Adding `s` to the coefficient at `i` adds `s` times that weight to the sum,
    whether the coefficient was there before or not. -/
theorem weighBy_alterEntries {i : Nat} {s : ℚ} {l : List (Nat × Exact)} (w : Nat → ℚ)
    (hl : ∀ t ∈ l, Scalar.isFinite t.2 = true) :
    weighBy (alterEntries i (fun old => old.getD 0.0 + .finite s) l) w =
      weighBy l w + s * w i := by
  -- The new coefficient is put where it belongs in the order.
  induction l with
  | nil =>
      simp only [alterEntries, Option.getD_none, Exact.zero_eq, Exact.finite_add, weighBy_cons,
        weighBy_nil, Exact.toRat_finite]
      ring
  | cons u rest ih =>
      rcases u with ⟨j, c⟩
      have hc : c = .finite c.toRat := Exact.eq_finite (hl (j, c) List.mem_cons_self)
      have hrest := ih fun t ht => hl t (List.mem_cons_of_mem _ ht)
      simp only [alterEntries]
      split
      · simp only [Option.getD_none, Exact.zero_eq, Exact.finite_add, weighBy_cons,
          Exact.toRat_finite]
        ring
      · split
        next heq =>
          subst heq
          -- The coefficient is there already and is merged.
          rw [weighBy_cons, weighBy_cons, Option.getD_some, hc]
          simp only [Exact.finite_add, Exact.toRat_finite]
          ring
        · rw [weighBy_cons, weighBy_cons, hrest]
          ring

/-- Adding a number to the coefficient of a variable leaves numbers that belong to variables. -/
theorem isFinite_alterEntries {n i : Nat} {s : ℚ} {l : List (Nat × Exact)} (hi : i < n)
    (hl : ∀ t ∈ l, t.1 < n ∧ Scalar.isFinite t.2 = true) :
    ∀ t ∈ alterEntries i (fun old => old.getD 0.0 + .finite s) l,
      t.1 < n ∧ Scalar.isFinite t.2 = true := by
  intro t ht
  rcases mem_alterEntries ht with hold | rfl | ⟨c, hc, rfl⟩
  · exact hl t hold
  · refine ⟨hi, ?_⟩
    rw [Option.getD_none, Exact.zero_eq, Exact.finite_add, Exact.isFinite_finite]
  · have hnumber : c = .finite c.toRat := Exact.eq_finite (hl (i, c) hc).2
    refine ⟨hi, ?_⟩
    rw [Option.getD_some, hnumber, Exact.finite_add, Exact.isFinite_finite]

/-- Scaling all coefficients scales the sum. -/
theorem weighBy_map_mul {s : ℚ} {l : List (Nat × Exact)} (w : Nat → ℚ)
    (hl : ∀ t ∈ l, Scalar.isFinite t.2 = true) :
    weighBy (l.map fun t => (t.1, t.2 * .finite s)) w = s * weighBy l w := by
  induction l with
  | nil => rw [List.map_nil, weighBy_nil, mul_zero]
  | cons t rest ih =>
      have ht := Exact.eq_finite (hl t List.mem_cons_self)
      rw [List.map_cons, weighBy_cons, weighBy_cons,
        ih fun u hu => hl u (List.mem_cons_of_mem _ hu), ht, Exact.finite_mul]
      simp only [Exact.toRat_finite]
      ring

/-- The sum of the gradient of the epigraph: that of the objective's, less the
    variable that carries it, both with the sign of the sense. -/
theorem weighBy_epigraph {aux : Nat} {s : ℚ} {l : List (Nat × Exact)} (w : Nat → ℚ)
    (hl : ∀ t ∈ l, Scalar.isFinite t.2 = true) :
    weighBy (alterEntries aux (fun old => old.getD 0.0 - .finite s)
      (l.map fun t => (t.1, t.2 * .finite s))) w = s * weighBy l w - s * w aux := by
  simp only [Exact.sub_finite]
  rw [weighBy_alterEntries w, weighBy_map_mul w hl]
  · ring
  · intro t ht
    rcases List.mem_map.1 ht with ⟨u, hu, rfl⟩
    rw [Exact.eq_finite (hl u hu), Exact.finite_mul, Exact.isFinite_finite]

/-- The same, weighed by the coordinates of a point. -/
theorem weigh_epigraph {aux : Nat} {s : ℚ} {l : List (Nat × Exact)} (y : Point Exact)
    (hl : ∀ t ∈ l, Scalar.isFinite t.2 = true) :
    weigh (alterEntries aux (fun old => old.getD 0.0 - .finite s)
      (l.map fun t => (t.1, t.2 * .finite s))) y =
        s * weigh l y - s * (y.coord aux).toRat :=
  weighBy_epigraph (fun i => (y.coord i).toRat) hl

/-- The coefficients of the epigraph are numbers and belong to variables if those of the
    objective are and do. -/
theorem isFinite_epigraph {n aux : Nat} {s : ℚ} {l : List (Nat × Exact)} (haux : aux < n)
    (hl : ∀ t ∈ l, t.1 < n ∧ Scalar.isFinite t.2 = true) :
    ∀ t ∈ alterEntries aux (fun old => old.getD 0.0 - .finite s)
      (l.map fun t => (t.1, t.2 * .finite s)), t.1 < n ∧ Scalar.isFinite t.2 = true := by
  simp only [Exact.sub_finite]
  refine isFinite_alterEntries haux fun t ht => ?_
  rcases List.mem_map.1 ht with ⟨u, hu, rfl⟩
  refine ⟨(hl u hu).1, ?_⟩
  rw [Exact.eq_finite (hl u hu).2, Exact.finite_mul, Exact.isFinite_finite]

end SparseVector

/-- A function has a value and a usable gradient at a point, in a space with `n`
    variables. -/
structure SmoothFunction.Evaluates (f : SmoothFunction Exact) (n : Nat) (x : Point Exact)
    (g : SparseVector Exact) : Prop where
  /-- The value is a number. -/
  value : Scalar.isFinite (f.value x) = true
  /-- There is a gradient. -/
  gradient : f.gradient x = .ok g
  /-- Its coefficients are usable. -/
  usable : Usable n g.entries x

/-- The first-order expansion of a function around `x`, at `y`. -/
def SmoothFunction.firstOrder (f : SmoothFunction Exact) (g : SparseVector Exact)
    (x y : Point Exact) : ℚ :=
  (f.value x).toRat + (weigh g.entries y - weigh g.entries x)

/-- The sign that turns a sense into minimization, as a number. -/
def Sense.signum : Sense → ℚ
  | minimize => 1
  | maximize => -1

theorem Sense.sign_eq (s : Sense) : (s.sign : Exact) = .finite s.signum := by
  cases s with
  | minimize => exact Exact.one_eq
  | maximize => exact congrArg Neg.neg Exact.one_eq

theorem Sense.signum_ne_zero (s : Sense) : s.signum ≠ 0 := by
  cases s <;> decide

/-- A residual in the direction of the sense is a number exactly if both sides are, and then it
    is their difference with the sign of the sense. -/
theorem Sense.residual_eq_finite_iff (s : Sense) {a b : Exact} {v : ℚ} :
    (match s with | minimize => a - b | maximize => b - a) = .finite v ↔
      Scalar.isFinite a = true ∧ Scalar.isFinite b = true ∧
        v = s.signum * (a.toRat - b.toRat) := by
  -- A difference is a number if both sides are.
  have hnumber {a b : Exact} (h : a - b = .finite v) :
      Scalar.isFinite a = true ∧ Scalar.isFinite b = true ∧ v = a.toRat - b.toRat := by
    obtain ⟨ha, hb⟩ := Exact.isFinite_of_sub (h ▸ Exact.isFinite_finite v)
    rw [Exact.eq_finite ha, Exact.eq_finite hb, Exact.finite_sub, Exact.finite.injEq] at h
    exact ⟨ha, hb, h.symm⟩
  constructor
  · intro h
    cases s with
    | minimize =>
        obtain ⟨ha, hb, hv⟩ := hnumber h
        exact ⟨ha, hb, by rw [hv, signum, one_mul]⟩
    | maximize =>
        obtain ⟨hb, ha, hv⟩ := hnumber h
        exact ⟨ha, hb, by rw [hv, signum]; ring⟩
  · rintro ⟨ha, hb, rfl⟩
    rw [Exact.eq_finite ha, Exact.eq_finite hb]
    cases s with
    | minimize => simp only [Exact.finite_sub, Exact.toRat_finite, signum, one_mul]
    | maximize =>
        simp only [Exact.finite_sub, Exact.toRat_finite, signum, Exact.finite.injEq]
        ring

namespace Linearized

variable {p : Problem Exact} {x : Point Exact} {subject : CutSubject} {value : Exact}
variable {g : SparseVector Exact} {l : Linearization Exact}

/-- The row of a constraint holds where the expansion of its function is at most
    the right-hand side, which is a number. -/
theorem constraint_iff (h : Linearized p x value g l) {i : Nat}
    (hexpansion : p.expansion (.constraint i) x = .ok ⟨subject, value, .ok g⟩) :
    ∃ c, p.constraints[i]? = some c ∧ c.function.Evaluates p.dimension x g ∧
      Scalar.isFinite c.upper = true ∧
      ∀ y : Point Exact, y.length = p.dimension → y.Finite →
        (l.row.Satisfied y ↔ c.function.firstOrder g x y ≤ c.upper.toRat) := by
  simp only [Problem.expansion] at hexpansion
  split at hexpansion
  · simp only [reduceCtorEq] at hexpansion
  next c hc =>
    simp only [Except.ok.injEq, Expansion.mk.injEq] at hexpansion
    rcases hexpansion with ⟨_, hvalue, hgradient⟩
    have hnumber := h.isNumber
    rw [← hvalue] at hnumber
    -- The residual is a number, so the value and the right-hand side are.
    rcases Exact.isFinite_of_sub hnumber with ⟨hf, hu⟩
    refine ⟨c, hc, ⟨hf, hgradient, h.usable⟩, hu, fun y hlength hy => ?_⟩
    rw [h.satisfied_iff hlength hy, ← hvalue, Constraint.residual, Exact.eq_finite hf,
      Exact.eq_finite hu, Exact.finite_sub, SmoothFunction.firstOrder]
    simp only [Exact.toRat_finite]
    constructor <;> intro hle <;> linarith

end Linearized

/-- What the epigraph residual and its gradient are made of. -/
theorem Problem.expansion_objective {p : Problem Exact} {x : Point Exact}
    {subject : CutSubject} {value : Exact} {g : SparseVector Exact}
    (h : p.expansion .objective x = .ok ⟨subject, value, .ok g⟩) :
    ∃ aux level f, p.auxiliary = some aux ∧ x[aux]? = some level ∧
      p.objective.function.gradient x = .ok f ∧
      value = (match p.sense with
        | .minimize => p.objectiveValue x - level
        | .maximize => level - p.objectiveValue x) ∧
      g.entries = SparseVector.alterEntries aux
        (fun old => old.getD 0.0 - .finite p.sense.signum)
        (f.entries.map fun t => (t.1, t.2 * .finite p.sense.signum)) := by
  simp only [expansion, epigraphValue] at h
  -- There is an epigraph variable, and the point has a coordinate for it.
  cases haux : p.auxiliary with
  | none => simp only [haux, Option.bind_none, reduceCtorEq] at h
  | some aux =>
      simp only [haux, Option.bind_some] at h
      cases hlevel : x[aux]? with
      | none => simp only [hlevel, Option.map_none, reduceCtorEq] at h
      | some level =>
          simp only [hlevel, Option.map_some, Except.ok.injEq, Expansion.mk.injEq] at h
          rcases h with ⟨_, hvalue, hgradient⟩
          simp only [epigraphGradient, haux] at hgradient
          split at hgradient
          · simp only [reduceCtorEq] at hgradient
          next f hf =>
            refine ⟨aux, level, f, rfl, hlevel, hf, hvalue.symm, ?_⟩
            rw [← Except.ok.inj hgradient, Sense.sign_eq]
            rfl

/-- With an auxiliary variable and a gradient of the objective, there is an expansion of
    the epigraph. -/
theorem Problem.exists_expansion_objective {p : Problem Exact} {x : Point Exact} {aux : Nat}
    {residual : Exact} {f : SparseVector Exact} (haux : p.auxiliary = some aux)
    (hresidual : p.epigraphValue x = some residual)
    (hf : p.objective.function.gradient x = .ok f) :
    ∃ g : SparseVector Exact, p.expansion .objective x = .ok ⟨.objective, residual, .ok g⟩ ∧
      g.entries = SparseVector.alterEntries aux
        (fun old => old.getD 0.0 - .finite p.sense.signum)
        (f.entries.map fun t => (t.1, t.2 * .finite p.sense.signum)) := by
  simp only [expansion, hresidual, epigraphGradient, haux, hf, Sense.sign_eq]
  exact ⟨_, rfl, rfl⟩

/-- The gradient of the objective is usable if that of the epigraph is. -/
theorem Usable.of_epigraph {n aux : Nat} {s : ℚ} (hs : s ≠ 0) {f : List (Nat × Exact)}
    {x : Point Exact} (haux : Scalar.isFinite (x.coord aux) = true)
    (h : Usable n (SparseVector.alterEntries aux (fun old => old.getD 0.0 - .finite s)
      (f.map fun t => (t.1, t.2 * .finite s))) x) : Usable n f x := by
  intro t ht
  have hscaled : (t.1, t.2 * .finite s) ∈ f.map fun t => (t.1, t.2 * .finite s) :=
    List.mem_map_of_mem ht
  -- An entry of the scaled gradient stays, or it is the one of the epigraph variable.
  rcases SparseVector.mem_alterEntries_of_mem (i := aux)
    (f := fun old => old.getD 0.0 - .finite s) hscaled with hmem | ⟨hindex, hmem⟩
  · have hkept := h _ hmem
    have hfinite := Exact.isFinite_of_mul_finite hs hkept.2.1
    refine ⟨hkept.1, hfinite, fun hne => hkept.2.2 ?_⟩
    change (t.2 * .finite s).toRat ≠ 0
    rw [Exact.eq_finite hfinite, Exact.finite_mul, Exact.toRat_finite]
    exact mul_ne_zero hne hs
  · -- The altered coefficient is a difference with the old one.
    have haltered := h _ hmem
    have hfinite := Exact.isFinite_of_mul_finite hs (Exact.isFinite_of_sub haltered.2.1).1
    have hindex : t.1 = aux := hindex
    exact ⟨hindex ▸ haltered.1, hfinite, fun _ => hindex ▸ haux⟩

/-- The row of the epigraph holds where the expansion of the objective is not
    beyond the variable that carries it. -/
theorem Linearized.epigraph_iff {p : Problem Exact} {x : Point Exact} {subject : CutSubject}
    {value : Exact} {g : SparseVector Exact} {l : Linearization Exact}
    (h : Linearized p x value g l)
    (hexpansion : p.expansion .objective x = .ok ⟨subject, value, .ok g⟩) :
    ∃ aux f, p.auxiliary = some aux ∧ p.objective.function.Evaluates p.dimension x f ∧
      ∀ y : Point Exact, y.length = p.dimension → y.Finite →
        (l.row.Satisfied y ↔
          p.sense.signum * (p.objective.function.firstOrder f x y - (y.coord aux).toRat) ≤ 0) := by
  rcases Problem.expansion_objective hexpansion with
    ⟨aux, level, f, haux, hlevel, hf, hvalue, hentries⟩
  -- The residual compares the objective with the level the point has.
  have hcoord : x.coord aux = level := by rw [Point.coord, hlevel, Option.getD_some]
  -- Both sides of the residual are numbers, in either sense.
  obtain ⟨hv, hl, hresidual⟩ :=
    p.sense.residual_eq_finite_iff.1 (hvalue.symm.trans (Exact.eq_finite h.isNumber))
  have husable := h.usable
  rw [hentries] at husable
  have hfusable := husable.of_epigraph p.sense.signum_ne_zero (hcoord ▸ hl)
  have hfinite : ∀ t ∈ f.entries, Scalar.isFinite t.2 = true := fun t ht => (hfusable t ht).2.1
  have hweigh : ∀ y, weigh g.entries y =
      p.sense.signum * weigh f.entries y - p.sense.signum * (y.coord aux).toRat :=
    fun y => hentries ▸ SparseVector.weigh_epigraph y hfinite
  refine ⟨aux, f, haux, ⟨hv, hf, hfusable⟩, fun y hlength hy => ?_⟩
  rw [h.satisfied_iff hlength hy, hweigh, hweigh, hresidual, hcoord,
    SmoothFunction.firstOrder, ← Problem.objectiveValue]
  constructor <;> intro hle <;> linarith

end OuterApprox
