import OuterApprox.Proofs.Bracket
import OuterApprox.Proofs.Incumbent
import OuterApprox.Proofs.Violation

/-!
# Staying inside

The interior point that the cut store keeps stays strictly inside. It is replaced
only by an incumbent whose recorded deviation is negative, or by a point halfway
to one whose deviation is evaluated and found negative; and a negative worst
deviation means that every constraint holds strictly. So the hypothesis that the
point installed by the caller is strictly inside is enough for every point that
follows it, as long as the incumbents are what the bound ledger says they are.

## Main definitions

* `Problem.Inside`: A point of the problem that satisfies all constraints
  strictly.
* `Problem.Valued`: Every point of the problem has numbers for values.
* `FixedIntegerSolver.AnswersNumbers`: A local solver answers with points made of
  numbers.
* `Session.Enclosed`: The invariant of a session.

## Theorems

* `Point.length_midpoint`, `Point.Finite.midpoint`: Midpoints.
* `Problem.inside_of_maxDeviation_neg`: A negative deviation means inside.
* `InteriorTracker.inside_of_successor?`, `InteriorTracker.inside_consider`:
  Looking at an incumbent stays inside.
* `Session.Enclosed.step`: Every step of a turn keeps the invariant.
* `Session.enclosed_invariant`: So does everything that happens in a solve.
-/

namespace OuterApprox

/-- A point of the problem, made of numbers, that satisfies all constraints
    strictly. -/
structure Problem.Inside (p : Problem Exact) (z : Point Exact) : Prop where
  /-- There is one coordinate per variable. -/
  length : z.length = p.dimension
  /-- All coordinates are numbers. -/
  finite : z.Finite
  /-- All constraints hold strictly. -/
  strict : ∀ c ∈ p.constraints, c.function.value z < c.upper

theorem Point.length_midpoint {α : Type} [Scalar α] {a b : Point α}
    (h : a.length = b.length) : (Point.midpoint a b).length = a.length := by
  rw [midpoint, List.length_zipWith, h, Nat.min_self]

theorem Point.Finite.midpoint {a b : Point Exact} (ha : a.Finite) (hb : b.Finite) :
    (Point.midpoint a b).Finite := by
  intro v hv
  rcases List.mem_iff_getElem.1 hv with ⟨i, hi, rfl⟩
  rw [Point.midpoint, List.length_zipWith, Nat.lt_min] at hi
  simp only [Point.midpoint, List.getElem_zipWith]
  rw [Exact.eq_finite (ha _ (List.getElem_mem hi.1)),
    Exact.eq_finite (hb _ (List.getElem_mem hi.2)), Exact.half_eq]
  simp only [Exact.finite_add, Exact.finite_mul, Exact.isFinite_finite]

/-- Every point of the problem gives all constraints numbers for values. -/
def Problem.Valued (p : Problem Exact) : Prop :=
  ∀ x : Point Exact, x.length = p.dimension → x.Finite → p.ValuedAt x

variable {p : Problem Exact}

theorem Problem.inside_of_maxDeviation_neg (hp : p.Valued) {z : Point Exact}
    (hlength : z.length = p.dimension) (hfinite : z.Finite) {d : Deviation Exact}
    (hd : p.maxDeviation z = some d) (hneg : d.value < 0.0) : p.Inside z where
  length := hlength
  finite := hfinite
  strict := lt_upper_of_maxDeviation_neg (hp z hlength hfinite) hd hneg

namespace InteriorTracker

/-- A candidate is deeper only if its deviation is negative. -/
theorem deviation_of_isDeeper {α : Type} [Scalar α] {t : InteriorTracker α} {c : Candidate α}
    (h : t.isDeeper c = true) : ∃ d, c.deviation = some d ∧ d.value < 0.0 := by
  unfold isDeeper at h
  cases hd : c.deviation with
  | none => rw [hd] at h; exact absurd h Bool.false_ne_true
  | some d =>
      simp only [hd, Bool.and_eq_true, decide_eq_true_eq] at h
      exact ⟨d, rfl, h.1⟩

/-- The point halfway between two points inside is inside, or the second point takes
    its place. -/
theorem inside_halfway (hp : p.Valued) {now c : Candidate Exact} (hnow : p.Inside now.point)
    (hc : p.Inside c.point) : p.Inside (halfway p now c).point := by
  simp only [halfway]
  split
  next hmid =>
    -- The midpoint takes over only if its own deviation was found negative.
    have hlength := Point.length_midpoint (hnow.length.trans hc.length.symm)
    cases hd : p.maxDeviation (Point.midpoint now.point c.point) with
    | none => simp only [Problem.candidate, hd, Option.any_none, Bool.false_eq_true] at hmid
    | some d =>
        simp only [Problem.candidate, hd, Option.any_some, decide_eq_true_eq] at hmid
        exact Problem.inside_of_maxDeviation_neg hp (hlength.trans hnow.length)
          (hnow.finite.midpoint hc.finite) hd hmid
  · exact hc

/-- A candidate that is to be looked at is the incumbent's. -/
theorem exists_of_pending? {α : Type} [Scalar α] {t : InteriorTracker α} {rule : InteriorUpdate}
    {incumbent : Option (PrimalSolution α)} {c : Candidate α}
    (h : t.pending? rule incumbent = some c) : ∃ i ∈ incumbent, i.candidate = c := by
  unfold pending? at h
  split at h
  · simp only [reduceCtorEq] at h
  · cases incumbent with
    | none => simp only [reduceCtorEq] at h
    | some i =>
        simp only [Option.ite_none_left_eq_some, Option.some.injEq] at h
        exact ⟨i, rfl, h.2⟩

/-- Whatever a candidate makes of the interior point is inside, if the recorded deviation
    of the candidate is that of its point. -/
theorem inside_of_successor? (hp : p.Valued) {t : InteriorTracker Exact} {rule : InteriorUpdate}
    {c next : Candidate Exact} (ht : ∀ z ∈ t.current, p.Inside z.point)
    (hlength : c.point.length = p.dimension) (hfinite : c.point.Finite)
    (hdeviation : c.deviation = p.maxDeviation c.point)
    (h : t.successor? p rule c = some next) : p.Inside next.point := by
  unfold successor? at h
  split at h
  · simp only [reduceCtorEq] at h
  next hdeeper =>
    rcases deviation_of_isDeeper (by simpa using hdeeper) with ⟨d, hd, hneg⟩
    -- Being deeper means a negative deviation, so the candidate itself is inside.
    have hinside := Problem.inside_of_maxDeviation_neg hp hlength hfinite
      (hdeviation.symm.trans hd) hneg
    split at h
    next now hcurrent =>
      rw [← Option.some.inj h]
      exact inside_halfway hp (ht now hcurrent) hinside
    · rw [← Option.some.inj h]
      exact hinside

/-- Looking at an incumbent leaves the interior point inside. -/
theorem inside_consider (hp : p.Valued) {t : InteriorTracker Exact} (rule : InteriorUpdate)
    {incumbent : Option (PrimalSolution Exact)}
    (ht : ∀ z ∈ t.current, p.Inside z.point)
    (hincumbent : ∀ i ∈ incumbent, i.candidate.point.length = p.dimension ∧
      i.candidate.point.Finite ∧ i.candidate.deviation = p.maxDeviation i.candidate.point) :
    ∀ z ∈ (t.consider p rule incumbent).1.current, p.Inside z.point := by
  unfold consider
  cases hpending : t.pending? rule incumbent with
  | none => exact ht
  | some c =>
      cases hnext : t.successor? p rule c with
      | none => simpa only [hnext] using ht
      | some next =>
          simp only [hnext, Option.mem_def, Option.some.injEq]
          rintro z rfl
          rcases exists_of_pending? hpending with ⟨i, hi, rfl⟩
          rcases hincumbent i hi with ⟨hlength, hfinite, hdeviation⟩
          exact inside_of_successor? hp ht hlength hfinite hdeviation hnext

end InteriorTracker

/-- The answers of a local solver are made of numbers. -/
def FixedIntegerSolver.AnswersNumbers (solve : FixedIntegerSolver Exact) (p : Problem Exact) :
    Prop :=
  ∀ asked c x, solve asked p c = some x → x.length = p.dimension → Point.Finite x

theorem Point.Finite.anchorAt {a b : Point Exact} (ha : a.Finite) (hb : b.Finite)
    (p : Problem Exact) : (p.anchorAt a b).Finite := by
  intro v hv
  rcases List.mem_mapIdx.1 hv with ⟨i, hi, rfl⟩
  have hown := ha a[i] (List.getElem_mem hi)
  split
  · cases hget : b[i]? with
    | none => exact hown
    | some u => exact hb u (List.mem_of_getElem? hget)
  · exact hown

namespace Session

/-- What stays true of a session and its cut store in exact arithmetic: the bound
    ledger tells the truth, incumbents are made of numbers, and the interior point
    is inside. -/
structure Enclosed (p : Problem Exact) (given : Settings Exact)
    (solver : Option (FixedIntegerSolver Exact)) (s : Session Exact) (st : CutStore Exact) :
    Prop where
  /-- The ledger tells the truth, and incumbents are made of numbers. -/
  kept : Kept p given solver Point.Finite s st
  /-- The interior point is inside. -/
  inside : ∀ z ∈ st.interior.current, p.Inside z.point

variable {p : Problem Exact} {given : Settings Exact}
variable {solver : Option (FixedIntegerSolver Exact)} {e : Event Exact} {t t' : Turn Exact}

/-- A point that is offered is made of numbers, whatever its source. -/
theorem Enclosed.finite_offered (hsolver : ∀ solve ∈ solver, solve.AnswersNumbers p)
    (hevent : Reported p Point.Finite e) (h : Enclosed p given solver t.session t.store)
    {x : Point Exact} {source : PrimalSource} (hlength : x.length = p.dimension)
    (hfrom : Turn.Offered e t x source) : x.Finite := by
  have hproblem : t.problem = p := h.kept.problem
  cases hfrom with
  | solution hreason hvalues => exact hevent hreason x hvalues hlength
  | line inner y stop r hreason hvalues hinner hfind hx _ =>
      rw [hproblem] at hfind
      -- Both ends of the segment are made of numbers, so the inner end of the result is.
      have hy := hevent hreason y hvalues (LineSearch.find_cases hfind).2.1
      rw [hx]
      exact LineSearch.finite_interior hfind ((h.inside inner hinner).finite.anchorAt hy p) hy
  | solved solve asked c hsome hanswer =>
      exact hsolver solve (h.kept.solver ▸ hsome) asked c x (hproblem ▸ hanswer) hlength

theorem Enclosed.step (hp : p.Valued) (hsolver : ∀ solve ∈ solver, solve.AnswersNumbers p)
    (hevent : Reported p Point.Finite e) (hstep : Turn.Step e t t')
    (h : Enclosed p given solver t.session t.store) :
    Enclosed p given solver t'.session t'.store where
  kept := h.kept.step hstep fun _ _ => h.finite_offered hsolver hevent
  inside := by
    cases hstep with
    | quiet hq => exact hq.interior ▸ h.inside
    | primal | dual | cut => exact h.inside
    | interior rule =>
        -- The incumbent that is looked at is one the ledger tells the truth about.
        have hproblem : t.problem = p := h.kept.problem
        have hkept := h.kept
        rw [hproblem]
        exact InteriorTracker.inside_consider hp rule h.inside fun i hi =>
          ⟨hkept.truthful.length i hi, hkept.supplied i hi, hkept.truthful.deviation i hi⟩

theorem Enclosed.steps (hp : p.Valued) (hsolver : ∀ solve ∈ solver, solve.AnswersNumbers p)
    (hevent : Reported p Point.Finite e) (hsteps : Turn.Steps e t t')
    (h : Enclosed p given solver t.session t.store) :
    Enclosed p given solver t'.session t'.store := by
  induction hsteps with
  | refl => exact h
  | tail _ hstep ih => exact ih.step hp hsolver hevent hstep

/-- The invariant survives everything that happens in a solve, if the points from
    outside are made of numbers. -/
theorem enclosed_invariant (hp : p.Valued)
    (hsolver : ∀ solve ∈ solver, solve.AnswersNumbers p) :
    Callback.Invariant (Reported p Point.Finite) (Enclosed p given solver) where
  event c e hevent h := h.steps hp hsolver hevent (c.steps_handle e)
  statistics _ _ _ h := ⟨h.kept.of_eq rfl rfl rfl rfl, h.inside⟩
  note _ _ _ h := ⟨h.kept.of_eq rfl rfl rfl rfl, h.inside⟩
  dual _ _ d h := ⟨h.kept.offerDual d, h.inside⟩
  repaired _ _ h := ⟨h.kept.of_eq rfl rfl rfl rfl, h.inside⟩

end Session

end OuterApprox
