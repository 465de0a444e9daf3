import OuterApprox.Proofs.Taylor

/-!
# Rows of affine constraints

What a constraint on an affine function is linearized to, in exact arithmetic. Such a function
is read in two ways. Its value is added up term by term in the order given, and a variable may
have several terms. Its gradient has one coefficient per variable, those of its terms added up
one after the other, and a coefficient that comes out as zero is not even handed to the row. The
two readings agree for every list of terms, since merging a term into a vector changes a weighed
sum by exactly that term.

A linearization is taken at a point and then moved to the origin, and for an affine function
nothing of the point is left after that: the row is the constraint itself with its terms merged.
So it has the value of the constraint everywhere, because it has it where it is taken and might
have been taken anywhere. It is discarded only if all terms cancel and the constant is within the
bound, and then the constraint holds at every point. If the terms cancel and the constant is not
within the bound, the row stays, without coefficients, and no point satisfies it.

## Main definitions

* `Affine.Over`: An affine function of some number of variables.
* `Affine.linearization`: The requirement that it is at most a bound, with its terms merged.

## Theorems

* `SparseVector.isFinite_collect`, `SparseVector.weighBy_collect`: Merging terms keeps numbers
  numbers and changes no weighed sum.
* `Affine.Over.value_eq`: The value of an affine function.
* `Affine.Over.linearized`: What it is linearized to, wherever that is done.
* `Affine.Over.redundant_iff`: When nothing is left of it.
* `Problem.linearize_affine`: The row of an affine constraint.
-/

namespace OuterApprox

namespace SparseVector

variable {l : List (Nat × Exact)}

/-- A term at the end is merged into what the others gave. -/
theorem entries_collect_concat (l : List (Nat × Exact)) {t : Nat × Exact}
    (ht : Scalar.isFinite t.2 = true) :
    (collect (l ++ [t])).entries =
      alterEntries t.1 (fun old => old.getD 0.0 + .finite t.2.toRat) (collect l).entries := by
  rw [← Exact.eq_finite ht, collect, List.foldl_append]
  rfl

/-- Merged coefficients are numbers that belong to variables if those of the terms are and do. -/
theorem isFinite_collect {n : Nat} (hl : ∀ t ∈ l, t.1 < n ∧ Scalar.isFinite t.2 = true) :
    ∀ t ∈ (collect l).entries, t.1 < n ∧ Scalar.isFinite t.2 = true := by
  -- The terms are merged from the front, so the last one meets the vector of the others.
  induction l using List.reverseRecOn with
  | nil => exact fun t ht => absurd ht List.not_mem_nil
  | append_singleton l t ih =>
      obtain ⟨hl, ht⟩ := List.forall_mem_append.1 hl
      obtain ⟨hi, hc⟩ := ht t List.mem_cons_self
      rw [entries_collect_concat l hc]
      exact isFinite_alterEntries hi (ih hl)

/-- Merging the terms of one variable changes no weighed sum. -/
theorem weighBy_collect {n : Nat} (hl : ∀ t ∈ l, t.1 < n ∧ Scalar.isFinite t.2 = true)
    (w : Nat → ℚ) : weighBy (collect l).entries w = weighBy l w := by
  induction l using List.reverseRecOn with
  | nil => rfl
  | append_singleton l t ih =>
      obtain ⟨hl, ht⟩ := List.forall_mem_append.1 hl
      have hfinite := isFinite_collect hl
      rw [entries_collect_concat l (ht t List.mem_cons_self).2,
        weighBy_alterEntries w fun u hu => (hfinite u hu).2, ih hl, weighBy_concat]

end SparseVector

open SparseVector

/-- The requirement that an affine function of `n` variables is at most `upper`, with its terms
    merged. -/
def Affine.linearization {α : Type} [Scalar α] (f : Affine α) (n : Nat) (upper : α) :
    Linearization α :=
  ⟨n, f.gradient.filter fun c => !(c == 0.0), f.constant - upper⟩

/-- An affine function of `n` variables. Its terms come in any order, and a variable may have
    several terms that add up or cancel. -/
structure Affine.Over (f : Affine Exact) (n : Nat) : Prop where
  /-- Terms belong to variables and have numbers as coefficients. -/
  terms : ∀ t ∈ f.terms, t.1 < n ∧ Scalar.isFinite t.2 = true
  /-- The constant is a number. -/
  constant : Scalar.isFinite f.constant = true

namespace Affine.Over

variable {f : Affine Exact} {n : Nat} {x : Point Exact}

/-- The value of an affine function is the sum of its terms and its constant. -/
theorem value_eq (hf : f.Over n) (hlength : x.length = n) (hx : x.Finite) :
    f.value x = .finite (weigh f.terms x + f.constant.toRat) := by
  have hweighable : Weighable f.terms x := fun t ht =>
    ⟨(hf.terms t ht).2, hx.coord (hlength ▸ (hf.terms t ht).1)⟩
  rw [Affine.value, sum_mul_coord _ _ hweighable, Exact.eq_finite hf.constant, Exact.finite_add,
    Exact.toRat_finite]

/-- Where all terms cancel the value is the constant. -/
theorem value_eq_constant (hf : f.Over n) (hlength : x.length = n) (hx : x.Finite)
    (hslope : ∀ j, slope f.terms j = 0) : f.value x = f.constant := by
  have hsum : weigh f.terms x = 0 := by
    rw [weigh_eq_sum fun t ht => (hf.terms t ht).1]
    exact Finset.sum_eq_zero fun j _ => by rw [hslope j, zero_mul]
  rw [hf.value_eq hlength hx, hsum, zero_add, ← Exact.eq_finite hf.constant]

/-- A constraint on an affine function is linearized to that constraint with its terms merged,
    at every point. -/
theorem linearized {p : Problem Exact} {upper : Exact} (hf : f.Over p.dimension)
    (hupper : Scalar.isFinite upper = true) (hlength : x.length = p.dimension) (hx : x.Finite) :
    Linearized p x (f.value x - upper) f.gradient (f.linearization p.dimension upper) := by
  have hvalue : f.value x - upper =
      .finite (weigh f.terms x + f.constant.toRat - upper.toRat) := by
    rw [hf.value_eq hlength hx, Exact.eq_finite hupper, Exact.finite_sub, Exact.toRat_finite]
  have hmerged : weigh f.gradient.entries x = weigh f.terms x :=
    weighBy_collect hf.terms fun i => (x.coord i).toRat
  refine ⟨hlength, hvalue ▸ rfl, .of_finite (isFinite_collect hf.terms) hx hlength, rfl, ?_⟩
  -- The terms at the point are taken off the value, which leaves the constant.
  rw [hvalue, hmerged, Exact.toRat_finite, linearization, Exact.eq_finite hf.constant,
    Exact.eq_finite hupper, Exact.finite_sub, Exact.finite.injEq, Exact.toRat_finite,
    Exact.toRat_finite]
  ring

/-- Nothing is left of a constraint exactly if all terms cancel and the constant is within the
    bound. -/
theorem redundant_iff {upper : Exact} (hf : f.Over n) (hupper : Scalar.isFinite upper = true) :
    ((f.linearization n upper).terms.entries.isEmpty &&
        decide ((f.linearization n upper).constant ≤ 0.0)) = true ↔
      (∀ j, slope f.terms j = 0) ∧ f.constant ≤ upper := by
  have hsome := filter_ne_nil_iff f.gradient fun t ht => (isFinite_collect hf.terms t ht).2
  have hmerged : ∀ j, slope f.gradient.entries j = slope f.terms j :=
    fun j => weighBy_collect hf.terms _
  rw [Bool.and_eq_true, List.isEmpty_iff, decide_eq_true_iff]
  refine and_congr ?_ ?_
  · simp only [hmerged] at hsome
    rw [← not_iff_not, not_forall]
    exact hsome
  · rw [linearization, Exact.eq_finite hf.constant, Exact.eq_finite hupper, Exact.finite_sub,
      Exact.zero_eq, Exact.finite_le, Exact.finite_le, sub_nonpos]

end Affine.Over

/-- What an affine constraint is linearized to does not depend on the point or on how that was
    obtained. If there is a row, its value is `f(x) - ub` at every point. There is none exactly
    if the coefficients of each variable add up to zero and the constant is within the bound; it
    is then discarded as redundant, and the constraint does hold at every point. -/
theorem Problem.linearize_affine {p : Problem Exact} {i : Nat} {c : Constraint Exact}
    {f : Affine Exact} (hc : p.constraints[i]? = some c) (hfunction : c.function = f.toFunction)
    (hf : f.Over p.dimension) (hupper : Scalar.isFinite c.upper = true) :
    ∃ r : Except (Discard Exact) (Linearization Exact),
      (∀ (x₀ : Point Exact) (s : CutSource), x₀.length = p.dimension → x₀.Finite →
        p.linearize ⟨.constraint i, x₀, s⟩ = r) ∧
      (∀ l, r = .ok l → ∀ x : Point Exact, x.length = p.dimension → x.Finite →
        l.valueAt x = f.value x - c.upper) ∧
      (∀ e, r = .error e ↔ e = .redundant (.constraint c.name) ∧
        (∀ j, slope f.terms j = 0) ∧ f.constant ≤ c.upper) ∧
      ((∃ e, r = .error e) → ∀ x : Point Exact, x.length = p.dimension → x.Finite →
        f.value x ≤ c.upper) := by
  have hexpansion : ∀ x₀ : Point Exact, p.expansion (.constraint i) x₀ =
      .ok ⟨.constraint c.name, f.value x₀ - c.upper, .ok f.gradient⟩ := by
    intro x₀
    simp only [expansion, hc, Constraint.residual, hfunction, Affine.toFunction]
  -- One outcome for all points: the merged constraint, unless it is redundant.
  have hsame : ∀ (x₀ : Point Exact) (s : CutSource), x₀.length = p.dimension → x₀.Finite →
      p.linearize ⟨.constraint i, x₀, s⟩ =
        if (f.linearization p.dimension c.upper).terms.entries.isEmpty &&
            decide ((f.linearization p.dimension c.upper).constant ≤ 0.0) then
          .error (.redundant (.constraint c.name))
        else .ok (f.linearization p.dimension c.upper) := by
    intro x₀ s hlength hx₀
    have hspec := hf.linearized hupper hlength hx₀
    exact linearize_eq (h := ⟨.constraint i, x₀, s⟩) (hexpansion x₀) hspec rfl
  by_cases hnone : (∀ j, slope f.terms j = 0) ∧ f.constant ≤ c.upper
  · rw [if_pos ((hf.redundant_iff hupper).2 hnone)] at hsame
    refine ⟨.error (.redundant (.constraint c.name)), hsame, fun l hl => ?_, fun e => ?_,
      fun _ x hlength hx => ?_⟩
    · cases hl
    · rw [Except.error.injEq, eq_comm, and_iff_left hnone]
    · rw [hf.value_eq_constant hlength hx hnone.1]
      exact hnone.2
  · rw [if_neg (mt (hf.redundant_iff hupper).1 hnone)] at hsame
    refine ⟨.ok (f.linearization p.dimension c.upper), hsame, fun l hl x hlength hx => ?_,
      fun e => ⟨fun he => ?_, fun he => absurd he.2 hnone⟩, ?_⟩
    · -- The row might have been taken at this very point, where it has the right value.
      cases hl
      exact (hf.linearized hupper hlength hx).valueAt_self
    · cases he
    · rintro ⟨e, he⟩
      cases he

/-! ## Terms that cancel -/

namespace Cancelling

/-- Four terms of two variables, of which those of the second one cancel. -/
def net : Affine Exact := ⟨[(1, 2.0), (0, 3.0), (1, -2.0), (0, -1.0)], 1.0⟩

/-- Two terms that cancel. -/
def void : Affine Exact := ⟨[(0, 1.0), (0, -1.0)], 2.0⟩

/-- Two variables and a constraint on each function. -/
def problem : Problem Exact :=
  ((((Problem.ofObjective (.affine ⟨[(0, 1.0)], 0.0⟩ .minimize)).addVariable
    "x" (-10.0) 10.0 .real).addVariable "y" (-10.0) 10.0 .real).addConstraint
      ⟨"net", net.toFunction, 5.0, true⟩).addConstraint ⟨"void", void.toFunction, 2.0, true⟩

theorem net_over : net.Over 2 := ⟨by decide +kernel, by decide +kernel⟩

theorem void_over : void.Over 2 := ⟨by decide +kernel, by decide +kernel⟩

theorem slope_void (j : Nat) : slope void.terms j = 0 := by
  have hterms : void.terms = [(0, .finite 1), (0, .finite (-1))] := by decide +kernel
  rw [hterms, slope_cons, slope_cons, slope_nil]
  split <;> norm_num

/-- One constraint has the same row everywhere, the other one has none. -/
theorem linearize_affine_cancelling :
    (∃ l, (∀ (x₀ : Point Exact) (s : CutSource), x₀.length = 2 → x₀.Finite →
        problem.linearize ⟨.constraint 0, x₀, s⟩ = .ok l) ∧
      ∀ x : Point Exact, x.length = 2 → x.Finite → l.valueAt x = net.value x - 5.0) ∧
    (∀ (x₀ : Point Exact) (s : CutSource), x₀.length = 2 → x₀.Finite →
      problem.linearize ⟨.constraint 1, x₀, s⟩ = .error (.redundant (.constraint "void"))) ∧
    ∀ x : Point Exact, x.length = 2 → x.Finite → void.value x ≤ 2.0 := by
  constructor
  · obtain ⟨r, hsame, hvalue, hnone, -⟩ :=
      Problem.linearize_affine (p := problem) (i := 0) (f := net) rfl rfl net_over (by decide)
    cases r with
    | ok l => exact ⟨l, hsame, hvalue l rfl⟩
    | error e =>
        -- The coefficients of the first variable add up to two.
        have hslope : slope net.terms 0 = 2 := by decide +kernel
        have hzero := ((hnone e).1 rfl).2.1 0
        rw [hslope] at hzero
        exact absurd hzero two_ne_zero
  · obtain ⟨r, hsame, -, hnone, hholds⟩ :=
      Problem.linearize_affine (p := problem) (i := 1) (f := void) rfl rfl void_over (by decide)
    have hr : r = .error (.redundant (.constraint "void")) :=
      (hnone _).2 ⟨rfl, slope_void, by decide +kernel⟩
    exact ⟨fun x₀ s hlength hx₀ => (hsame x₀ s hlength hx₀).trans hr, hholds ⟨_, hr⟩⟩

end Cancelling

end OuterApprox
