import OuterApprox.Heuristic.FixedInteger
import OuterApprox.Scalar.Exact
import Mathlib.Data.List.Chain
import Mathlib.Data.List.Induction

/-!
# Which candidates go to the local solver

A rule decides on one candidate at a time, and remembers what it needs of those that went in:
their assignments, or the iteration of the last one. Here the decisions on any number of
candidates, one after the other, are told from the candidates alone.

Under the rule for new assignments, a candidate goes in exactly if none before it had the same
one. Under the rule for every `n` iterations, the first candidate goes in, and a later one
exactly if the iteration `n` after that of the last one that went in has come. That iteration is
a sum of two words. No candidate that goes in is too early, so those that go in are `n`
iterations apart. But a candidate that has to stay out may find that the sum is no word, and
then it is not told so: there is no verdict on it, nor on any candidate after it.

## Main definitions

* `FixedIntegerQueue.enrolAll`, `FixedIntegerQueue.runs`: The queue after several candidates,
  and those among them that went in.
* `FixedIntegerQueue.Due`: The iteration of a candidate has come.

## Theorems

* `FixedIntegerQueue.mem_tried_enrolAll`, `FixedIntegerQueue.lastIteration_enrolAll`: What the
  queue remembers.
* `FixedIntegerQueue.wants_newAssignment_iff`, `FixedIntegerQueue.verdict_every_eq`: One decision
  under either rule.
* `FixedIntegerQueue.isChain_runs`: Those that go in are far enough apart.
* `FixedIntegerQueue.overflowed_enrolAll_iff`: When a queue is marked.
* `FixedIntegerQueue.runs_decided`: What is decided on any candidates.
* `FixedIntegerQueue.every_not_answered`: Under the second rule not everything is.
-/

namespace OuterApprox

namespace FixedIntegerQueue

variable {α : Type} [Scalar α]

section Runs

variable (rule : FixedIntegerRule) (p : Problem α)

/-- The queue after deciding on several candidates, one after the other. -/
def enrolAll (q : FixedIntegerQueue α) (cs : List (Candidate α)) : FixedIntegerQueue α :=
  cs.foldl (fun q c => q.enrol rule p c) q

/-- Those of several candidates that go in, decided on one after the other. -/
def runs (q : FixedIntegerQueue α) : List (Candidate α) → List (Candidate α)
  | [] => []
  | c :: rest =>
    (if q.wants rule p c then [c] else []) ++ runs (q.enrol rule p c) rest

variable {rule p}

theorem enrolAll_concat (q : FixedIntegerQueue α) (cs : List (Candidate α)) (c : Candidate α) :
    q.enrolAll rule p (cs ++ [c]) = (q.enrolAll rule p cs).enrol rule p c :=
  List.foldl_concat ..

theorem runs_concat (q : FixedIntegerQueue α) (cs : List (Candidate α)) (c : Candidate α) :
    q.runs rule p (cs ++ [c]) =
      q.runs rule p cs ++ if (q.enrolAll rule p cs).wants rule p c then [c] else [] := by
  induction cs generalizing q with
  | nil => exact List.append_nil _
  | cons first rest ih => rw [List.cons_append, runs, ih, runs, List.append_assoc]; rfl

/-- What goes in was decided on. -/
theorem runs_sublist (q : FixedIntegerQueue α) (cs : List (Candidate α)) :
    (q.runs rule p cs).Sublist cs := by
  induction cs generalizing q with
  | nil => exact List.Sublist.refl _
  | cons c rest ih =>
      rw [runs]
      split
      · exact (ih _).cons_cons c
      · exact (ih _).cons c

theorem mem_of_mem_getLast?_runs {q : FixedIntegerQueue α} {cs : List (Candidate α)}
    {l : Candidate α} (h : l ∈ (q.runs rule p cs).getLast?) : l ∈ cs :=
  (runs_sublist q cs).subset (List.mem_of_getLast? h)

theorem solver_enrolAll (q : FixedIntegerQueue α) (cs : List (Candidate α)) :
    (q.enrolAll rule p cs).solver = q.solver := by
  induction cs using List.reverseRecOn with
  | nil => rfl
  | append_singleton cs c ih =>
      rw [enrolAll_concat, solver_enrol]
      exact ih

/-- The iteration that is remembered is that of the last candidate that went in. -/
theorem lastIteration_enrolAll (q : FixedIntegerQueue α) (hlast : q.lastIteration = none)
    (cs : List (Candidate α)) :
    (q.enrolAll rule p cs).lastIteration =
      (q.runs rule p cs).getLast?.map (·.iteration) := by
  induction cs using List.reverseRecOn with
  | nil => exact hlast
  | append_singleton cs c ih =>
      rw [enrolAll_concat, runs_concat]
      split
      next hin =>
        rw [enrol_of_wants hin, List.getLast?_concat]
        rfl
      next hout =>
        rw [enrol_of_not_wants (Bool.eq_false_iff.2 hout), List.append_nil]
        exact ih

/-- The mark of an overflow stays, and comes from one of the candidates. -/
theorem overflowed_enrolAll_iff (q : FixedIntegerQueue α) (hfresh : q.overflowed = false)
    (cs : List (Candidate α)) :
    (q.enrolAll rule p cs).overflowed = true ↔ ∃ before c rest, cs = before ++ c :: rest ∧
      (q.enrolAll rule p before).verdict rule p c = .overflow := by
  induction cs using List.reverseRecOn with
  | nil =>
      refine iff_of_false (fun hmark => Bool.noConfusion (hfresh.symm.trans hmark)) ?_
      rintro ⟨before, c, rest, hnil, -⟩
      exact absurd hnil (by simp)
  | append_singleton cs c ih =>
      -- The mark is made by the last candidate or stood there before.
      have hlast : ((q.enrolAll rule p cs).enrol rule p c).overflowed = true ↔
          (q.enrolAll rule p cs).overflowed = true ∨
            (q.enrolAll rule p cs).verdict rule p c = .overflow := by
        cases hin : (q.enrolAll rule p cs).wants rule p c with
        | true =>
            rw [enrol_of_wants hin, (wants_iff _ _ _ _).1 hin]
            simp
        | false => simp [enrol_of_not_wants hin]
      rw [enrolAll_concat, hlast, ih]
      constructor
      · rintro (⟨before, b, rest, rfl, hover⟩ | hover)
        · exact ⟨before, b, rest ++ [c], by simp, hover⟩
        · exact ⟨cs, c, [], rfl, hover⟩
      · rintro ⟨before, b, rest, hsplit, hover⟩
        -- The candidate in question is the last one, or among the others.
        rcases List.eq_nil_or_concat rest with rfl | ⟨rest, last, rfl⟩
        · obtain ⟨rfl, hb⟩ := List.append_inj' hsplit rfl
          obtain rfl : c = b := List.singleton_inj.1 hb
          exact .inr hover
        · rw [List.concat_eq_append, ← List.cons_append, ← List.append_assoc] at hsplit
          exact .inl ⟨before, b, rest, (List.append_inj' hsplit rfl).1, hover⟩

end Runs

variable {p : Problem α}

/-- An assignment that was not tried goes in. -/
theorem wants_newAssignment {q : FixedIntegerQueue α} (hsolver : q.solver.isSome = true)
    (c : Candidate α) :
    q.wants .newAssignment p c = true ↔ p.assignment c.point ∉ q.tried := by
  have hinstalled : q.solver.isNone = false := by
    rw [← Option.not_isSome, hsolver, Bool.not_true]
  simp only [wants_iff, verdict, hinstalled, Bool.false_eq_true, if_false, List.contains_iff_mem]
  split_ifs with hold
  · exact iff_of_false (by simp) (not_not.2 hold)
  · exact iff_of_true rfl hold

theorem verdict_newAssignment_ne_overflow (q : FixedIntegerQueue α) (c : Candidate α) :
    q.verdict .newAssignment p c ≠ .overflow := by
  unfold verdict
  split_ifs <;> simp

/-- The assignments that are remembered are those of the candidates decided on, whether they
    went in or not. -/
theorem mem_tried_enrolAll {q : FixedIntegerQueue α} (hsolver : q.solver.isSome = true)
    (cs : List (Candidate α)) (a : List Int) :
    a ∈ (q.enrolAll .newAssignment p cs).tried ↔
      a ∈ q.tried ∨ ∃ b ∈ cs, p.assignment b.point = a := by
  induction cs using List.reverseRecOn with
  | nil => exact ⟨.inl, fun h => h.resolve_right fun ⟨_, hb, _⟩ => absurd hb List.not_mem_nil⟩
  | append_singleton cs c ih =>
      have hinstalled : (q.enrolAll .newAssignment p cs).solver.isSome = true := by
        rw [solver_enrolAll, hsolver]
      simp only [List.mem_append, List.mem_singleton, or_and_right, exists_or, exists_eq_left,
        ← or_assoc, ← ih]
      rw [enrolAll_concat]
      -- A new assignment is remembered at the end.
      by_cases hold : p.assignment c.point ∈ (q.enrolAll .newAssignment p cs).tried
      · -- An assignment that is not new was remembered before.
        have hout := mt (wants_newAssignment hinstalled c).1 (not_not.2 hold)
        rw [enrol_of_not_wants (Bool.eq_false_iff.2 hout)]
        refine ⟨.inl, fun h => h.elim id ?_⟩
        rintro rfl
        exact hold
      · rw [enrol_of_wants ((wants_newAssignment hinstalled c).2 hold), if_pos rfl,
          List.mem_append, List.mem_singleton]
        exact or_congr_right eq_comm

/-- Under the rule for new assignments, a candidate goes in if no candidate before it had the
    same one. -/
theorem wants_newAssignment_iff {q : FixedIntegerQueue α} (hsolver : q.solver.isSome = true)
    (htried : q.tried = []) (before : List (Candidate α)) (c : Candidate α) :
    (q.enrolAll .newAssignment p before).wants .newAssignment p c = true ↔
      ∀ b ∈ before, p.assignment b.point ≠ p.assignment c.point := by
  have hmem := mem_tried_enrolAll (p := p) hsolver before (p.assignment c.point)
  rw [htried] at hmem
  rw [wants_newAssignment (by rw [solver_enrolAll, hsolver]), hmem]
  simp only [List.not_mem_nil, false_or, not_exists, not_and, ne_eq]

/-- The verdict on a candidate, if only so many iterations may go in, depends on the last one that
    went in. -/
theorem verdict_every_eq {q : FixedIntegerQueue α} (hsolver : q.solver.isSome = true)
    (hlast : q.lastIteration = none) (n : Nat) (before : List (Candidate α)) (c : Candidate α) :
    (q.enrolAll (.every n) p before).verdict (.every n) p c =
      match (q.runs (.every n) p before).getLast? with
      | none => .goesIn
      | some l =>
        if Word.size ≤ l.iteration + n then .overflow
        else if l.iteration + n ≤ c.iteration then .goesIn
        else .staysOut := by
  have hinstalled : (q.enrolAll (.every n) p before).solver.isNone = false := by
    rw [solver_enrolAll, ← Option.not_isSome, hsolver, Bool.not_true]
  simp only [verdict, hinstalled, Bool.false_eq_true, if_false, lastIteration_enrolAll q hlast]
  cases (q.runs (.every n) p before).getLast? <;> rfl

/-- The first of several candidates goes in, so that one has gone in once any were decided
    on. -/
theorem runs_every_eq_nil_iff {q : FixedIntegerQueue α} (hsolver : q.solver.isSome = true)
    (hlast : q.lastIteration = none) (n : Nat) (cs : List (Candidate α)) :
    q.runs (.every n) p cs = [] ↔ cs = [] := by
  cases cs with
  | nil => exact Iff.rfl
  | cons c rest =>
      have hfirst : q.wants (.every n) p c = true :=
        (wants_iff _ _ _ _).2 (verdict_every_eq hsolver hlast n [] c)
      rw [runs, if_pos hfirst]
      exact iff_of_false (List.cons_ne_nil _ _) (List.cons_ne_nil _ _)

/-- Every candidate that goes in comes `n` iterations after the one before it, or later. -/
theorem isChain_runs {q : FixedIntegerQueue α} (hsolver : q.solver.isSome = true)
    (hlast : q.lastIteration = none) (n : Nat) (cs : List (Candidate α)) :
    (q.runs (.every n) p cs).IsChain (fun a b => a.iteration + n ≤ b.iteration) := by
  induction cs using List.reverseRecOn with
  | nil => exact .nil
  | append_singleton cs c ih =>
      rw [runs_concat]
      split
      next hin =>
        refine List.isChain_append.2 ⟨ih, .singleton c, fun l hl b hb => ?_⟩
        obtain rfl : c = b := Option.some.inj hb
        -- The last one before is next to the new one, and let it in.
        have hverdict := (wants_iff _ _ _ _).1 hin
        rw [verdict_every_eq hsolver hlast, Option.mem_def.1 hl] at hverdict
        dsimp only at hverdict
        split_ifs at hverdict with hover hle
        exact hle
      · rw [List.append_nil]
        exact ih

/-- The iteration of a candidate has come: it is the first one, or `n` iterations after the last
    one that went in. -/
def Due (q : FixedIntegerQueue α) (p : Problem α) (n : Nat) (before : List (Candidate α))
    (c : Candidate α) : Prop :=
  before = [] ∨ ∃ l ∈ (q.runs (.every n) p before).getLast?, l.iteration + n ≤ c.iteration

/-- What is due goes in: an iteration that has come is a word. -/
theorem goesIn_every_iff {q : FixedIntegerQueue α} (hsolver : q.solver.isSome = true)
    (hlast : q.lastIteration = none) (n : Nat) (before : List (Candidate α)) {c : Candidate α}
    (hc : c.iteration < Word.size) :
    (q.enrolAll (.every n) p before).verdict (.every n) p c = .goesIn ↔ q.Due p n before c := by
  rw [verdict_every_eq hsolver hlast, Due]
  cases hlatest : (q.runs (.every n) p before).getLast? with
  | none =>
      -- Only the first candidate finds that none went in.
      have hfirst : before = [] :=
        (runs_every_eq_nil_iff hsolver hlast n before).1 (List.getLast?_eq_none_iff.1 hlatest)
      exact iff_of_true rfl (.inl hfirst)
  | some l =>
      have hne : before ≠ [] := List.ne_nil_of_mem (mem_of_mem_getLast?_runs hlatest)
      simp only [hne, Option.mem_some_iff, exists_eq_left', false_or]
      split_ifs with hover hle
      · exact iff_of_false (by simp) fun hle => absurd (Nat.lt_of_le_of_lt hle hc) (by omega)
      · exact iff_of_true rfl hle
      · exact iff_of_false (by simp) hle

theorem overflow_every_iff {q : FixedIntegerQueue α} (hsolver : q.solver.isSome = true)
    (hlast : q.lastIteration = none) (n : Nat) (before : List (Candidate α)) (c : Candidate α) :
    (q.enrolAll (.every n) p before).verdict (.every n) p c = .overflow ↔
      ∃ l ∈ (q.runs (.every n) p before).getLast?, Word.size ≤ l.iteration + n := by
  rw [verdict_every_eq hsolver hlast]
  cases (q.runs (.every n) p before).getLast? with
  | none => exact iff_of_false (by simp) fun ⟨_, hl, _⟩ => nomatch hl
  | some l =>
      simp only [Option.mem_some_iff, exists_eq_left']
      split_ifs with hover hle
      · exact iff_of_true rfl hover
      · exact iff_of_false (by simp) hover
      · exact iff_of_false (by simp) hover

/-- What a queue with a local solver that has decided on nothing yet decides on any candidates,
    one after the other. Under the rule for new assignments a candidate goes in if and only if
    none before it had the same assignment, and there is a verdict on each. Under the rule for
    every `n` iterations it goes in if and only if it is the first, or the iteration `n` after that
    of the last one that went in has come. If that iteration is no word there is no verdict on
    it, although it would have to stay out, and the queue is marked exactly if that happened to
    one of the candidates. Those that go in are `n` iterations apart in any case. -/
theorem runs_decided (solver : FixedIntegerSolver α) (p : Problem α) :
    let fresh : FixedIntegerQueue α := FixedIntegerQueue.empty.install solver
    (∀ before c,
      ((fresh.enrolAll .newAssignment p before).verdict .newAssignment p c = .goesIn ↔
        ∀ b ∈ before, p.assignment b.point ≠ p.assignment c.point) ∧
      (fresh.enrolAll .newAssignment p before).verdict .newAssignment p c ≠ .overflow) ∧
    ∀ (n : Nat) (calls : List (Candidate α)), (∀ c ∈ calls, c.iteration < Word.size) →
      let runs := fresh.runs (.every n) p
      (∀ before c rest, calls = before ++ c :: rest →
        let verdict := (fresh.enrolAll (.every n) p before).verdict (.every n) p c
        (verdict = .goesIn ↔ fresh.Due p n before c) ∧
        (verdict = .overflow ↔
          ∃ l ∈ (runs before).getLast?, Word.size ≤ l.iteration + n) ∧
        (verdict = .overflow → ¬ fresh.Due p n before c)) ∧
      ((fresh.enrolAll (.every n) p calls).overflowed = true ↔
        ∃ before c rest, calls = before ++ c :: rest ∧
          ∃ l ∈ (runs before).getLast?, Word.size ≤ l.iteration + n) ∧
      (runs calls).IsChain fun a b => a.iteration + n ≤ b.iteration := by
  intro fresh
  refine ⟨fun before c => ⟨?_, ?_⟩, fun n calls hcalls => ⟨?_, ?_, isChain_runs rfl rfl n calls⟩⟩
  · rw [← wants_iff]
    exact wants_newAssignment_iff rfl rfl before c
  · exact verdict_newAssignment_ne_overflow _ c
  -- The number of the candidate is in range, so a sum beyond it is not due.
  · rintro before c rest rfl verdict
    have hgoes : verdict = .goesIn ↔ fresh.Due p n before c :=
      goesIn_every_iff rfl rfl n before
        (hcalls c (List.mem_append_right _ List.mem_cons_self))
    refine ⟨hgoes, overflow_every_iff rfl rfl n before c, fun hover hdue => ?_⟩
    exact nomatch hover.symm.trans (hgoes.2 hdue)
  · rw [overflowed_enrolAll_iff fresh rfl]
    simp only [overflow_every_iff (q := fresh) rfl rfl]

/-- A problem with a binary variable. -/
def oneBinary : Problem α :=
  (Problem.ofObjective (.affine ⟨[(0, 1.0)], 0.0⟩ .minimize)).addVariable "x" 0.0 1.0 .binary

/-- The origin, found in an iteration. -/
def originAt (iteration : Nat) : Candidate α := oneBinary.candidate [0.0] iteration

/-- Every second iteration the candidate goes in, though its assignment is not new. -/
theorem runs_decided_origin :
    let fresh : FixedIntegerQueue Exact := FixedIntegerQueue.empty.install fun _ _ _ => none
    let calls := [originAt 1, originAt 2, originAt 3]
    (fresh.runs (.every 2) oneBinary calls).map (·.iteration) = [1, 3] ∧
      (fresh.runs (.every 2) oneBinary calls).IsChain (fun a b => a.iteration + 2 ≤ b.iteration) ∧
      (fresh.enrolAll (.every 2) oneBinary [originAt 1, originAt 2]).wants (.every 2) oneBinary
        (originAt 3) = true ∧
      (fresh.enrolAll .newAssignment oneBinary [originAt 1]).wants .newAssignment oneBinary
        (originAt 2) = false := by
  intro fresh calls
  have hruns : (fresh.runs (.every 2) oneBinary calls).map (·.iteration) = [1, 3] := by
    decide +kernel
  obtain ⟨hnew, hevery⟩ := runs_decided (fun _ _ _ => none) (oneBinary (α := Exact))
  obtain ⟨hverdict, -, hchain⟩ := hevery 2 calls (by decide +kernel)
  obtain ⟨hgoes, -⟩ := hverdict [originAt 1, originAt 2] (originAt 3) [] rfl
  refine ⟨hruns, hchain, (wants_iff _ _ _ _).2 (hgoes.2 (.inr ?_)), ?_⟩
  -- Two iterations after the first one it is due.
  · exact ⟨originAt 1, rfl, by decide +kernel⟩
  · refine Bool.eq_false_iff.2 fun hsame => ?_
    have hdiffer := (hnew [originAt 1] (originAt 2)).1.1 ((wants_iff _ _ _ _).1 hsame)
    exact hdiffer _ List.mem_cons_self rfl

/-- With the largest word for the number of iterations, the second candidate would have to wait,
    and is not told so. -/
theorem every_not_answered :
    ¬ ∀ (solver : FixedIntegerSolver Exact) (p : Problem Exact) (n : Nat),
      0 < n → n < Word.size →
      ∀ (before : List (Candidate Exact)) (c : Candidate Exact),
        (∀ b ∈ before ++ [c], b.iteration < Word.size) →
        let fresh : FixedIntegerQueue Exact := FixedIntegerQueue.empty.install solver
        let verdict := (fresh.enrolAll (.every n) p before).verdict (.every n) p c
        (fresh.Due p n before c → verdict = .goesIn) ∧
          (¬ fresh.Due p n before c → verdict = .staysOut) := by
  intro hanswered
  obtain ⟨hgoes, hstays⟩ := hanswered (fun _ _ _ => none) oneBinary Word.largest (by decide)
    (by decide) [originAt 1] (originAt 2) (by decide +kernel)
  have hover : ((FixedIntegerQueue.empty.install fun _ _ _ => none).enrolAll
      (.every Word.largest) oneBinary [originAt 1]).verdict (.every Word.largest) oneBinary
        (originAt 2 : Candidate Exact) = .overflow := by decide +kernel
  -- Neither answer is given, whether the candidate is due or not.
  refine nomatch hover.symm.trans (hstays fun hdue => ?_)
  exact nomatch hover.symm.trans (hgoes hdue)

end FixedIntegerQueue

end OuterApprox
