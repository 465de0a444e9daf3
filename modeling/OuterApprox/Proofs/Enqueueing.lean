import OuterApprox.Proofs.CutPoints

/-!
# Filling the waiting list

A selection lists the hyperplanes it asks for, and they go behind those that wait already.
A program that works through candidates and constraints would rather put each one on the
list as it comes, count it, and leave off at the cap. These are the loops of such a program:
over the deviations at a point, over the candidates, and over the candidates once more for
the objective. Each carries the list and the number put on it so far.

They come to the same. The room that a selection hands on is the cap without the number put
on the list, and a loop that says that there is room for more has some left. So every pass
only appends, returns the number it appended, and keeps the cap, for any candidates, any
interior point and either strategy. A pass for a candidate that is not accepted puts at
least one hyperplane on the list, or the pass for the objective does.

## Main definitions

* `Filling`: A waiting list and the number put on it.
* `Filling.Extends`: A pass only appends, counts, and keeps the cap.
* `Session.fillDeviations`, `Session.fillAll`, `Session.fillSelected`: The loops of a strategy.
* `Session.fillLifted`, `Session.fillEpigraph`: The loop for the objective.
* `Session.Fills`: A step of a loop does what a selection asks for.

## Theorems

* `Session.fills_deviations`, `Session.fills_supporting`: The steps.
* `Session.fillAll_eq`, `Session.fillSelected_eq`: A strategy asks for what its loops put on
  the list.
* `Session.fillEpigraph_eq`: So does the objective.
* `Turn.rejected_enqueues`: Passes for a candidate that is not accepted.
-/

namespace OuterApprox

/-- A waiting list that is being filled. -/
structure Filling (α : Type) where
  /-- The waiting list. -/
  waiting : List (Hyperplane α)
  /-- The number of hyperplanes put on it so far. -/
  added : Nat

namespace Filling

variable {α : Type}

/-- Put a hyperplane on the list. -/
def push (f : Filling α) (h : Hyperplane α) : Filling α := ⟨f.waiting ++ [h], f.added + 1⟩

/-- Put several hyperplanes on the list. -/
def pushAll (f : Filling α) (hs : List (Hyperplane α)) : Filling α :=
  ⟨f.waiting ++ hs, f.added + hs.length⟩

theorem pushAll_nil (f : Filling α) : f.pushAll [] = f := by
  rw [pushAll, List.append_nil]
  rfl

theorem pushAll_append (f : Filling α) (hs hs' : List (Hyperplane α)) :
    f.pushAll (hs ++ hs') = (f.pushAll hs).pushAll hs' := by
  rw [pushAll, pushAll, pushAll, List.append_assoc, List.length_append, Nat.add_assoc]

theorem pushAll_cons (f : Filling α) (h : Hyperplane α) (hs : List (Hyperplane α)) :
    f.pushAll (h :: hs) = (f.push h).pushAll hs := f.pushAll_append [h] hs

/-- What a pass leaves behind that began with a waiting list: it only appended, it returns the
    number it appended, and it kept the cap. -/
structure Extends (f : Filling α) (waiting : List (Hyperplane α)) (cap : Nat) : Prop where
  /-- Nothing that waited was touched. -/
  appended : waiting <+: f.waiting
  /-- What was appended was counted. -/
  counted : f.waiting.length = waiting.length + f.added
  /-- No more was appended than is allowed. -/
  capped : f.added ≤ cap

theorem extends_pushAll {waiting hs : List (Hyperplane α)} {cap : Nat} (h : hs.length ≤ cap) :
    (pushAll ⟨waiting, 0⟩ hs).Extends waiting cap where
  appended := List.prefix_append _ _
  counted := by
    rw [pushAll, List.length_append, Nat.zero_add]
  capped := by
    rw [pushAll, Nat.zero_add]
    exact h

end Filling

namespace Session

variable {α : Type} [Scalar α]

/-! ## The loops -/

/-- Put hyperplanes for deviations on the list while it has less than `cap`. The second
    component tells whether there is room for more. -/
def fillDeviations (x : Point α) (source : CutSource) (cap : Nat) :
    List (Deviation α) → Filling α → Filling α × Bool
  | [], f => (f, decide (f.added < cap))
  | d :: rest, f =>
    if cap ≤ f.added then (f, false)
    else if d.value < 0.0 then fillDeviations x source cap rest f
    else fillDeviations x source cap rest (f.push ⟨.constraint d.constraint, x, source⟩)

/-- Put hyperplanes for the most deviating constraints at a point on the list. -/
def fillAt (s : Session α) (x : Point α) (source : CutSource) (f : Filling α) :
    Filling α × Bool :=
  fillDeviations x source s.settings.dual.maxHyperplanes
    (s.problem.mostDeviating x s.settings.cuttingPlane.selectionFactor) f

/-- Put cutting planes for one candidate on the list. -/
def fillCutting (s : Session α) (milp : Bool) (position : Nat) (c : Candidate α)
    (f : Filling α) : Filling α × Bool :=
  s.fillAt c.point (.ofPosition position milp false) f

/-- Put supporting hyperplanes for one candidate on the list. -/
def fillSupporting (s : Session α) (interior : Candidate α) (milp : Bool) (position : Nat)
    (c : Candidate α) (f : Filling α) : Filling α × Bool :=
  match s.projected? interior c with
  | some boundary => s.fillAt boundary (.ofPosition position milp true) f
  | none => s.fillAt c.point (.ofPosition position milp false) f

/-- Visit candidates in order until there is no more room. -/
def fillAll (visit : Nat → Candidate α → Filling α → Filling α × Bool) :
    Nat → List (Candidate α) → Filling α → Filling α
  | _, [], f => f
  | position, c :: rest, f =>
    let (f, more) := visit position c f
    if more then fillAll visit (position + 1) rest f else f

/-- The pass of a strategy over candidates. -/
def fillSelected (s : Session α) (strategy : CutStrategy) (interior : Option (Candidate α))
    (candidates : List (Candidate α)) (milp : Bool) (waiting : List (Hyperplane α)) :
    Filling α :=
  match strategy, interior with
  | .supportingHyperplane, some z => fillAll (s.fillSupporting z milp) 0 candidates ⟨waiting, 0⟩
  | _, _ => fillAll (s.fillCutting milp) 0 candidates ⟨waiting, 0⟩

/-- Put candidates below the epigraph on the list, lifted, while it has less than allowed. -/
def fillLifted (s : Session α) (aux : Nat) : List (Candidate α) → Filling α → Filling α
  | [], f => f
  | c :: rest, f =>
    if s.settings.dual.maxHyperplanes ≤ f.added then f
    else
      match s.epigraphRequest? aux c with
      | none => fillLifted s aux rest f
      | some h => fillLifted s aux rest (f.push h)

/-- The pass for the objective over candidates. -/
def fillEpigraph (s : Session α) (candidates : List (Candidate α))
    (waiting : List (Hyperplane α)) : Filling α :=
  if !s.objectiveNeedsCuts then ⟨waiting, 0⟩
  else
    match s.problem.auxiliary with
    | none => ⟨waiting, 0⟩
    | some aux => s.fillLifted aux candidates ⟨waiting, 0⟩

/-! ## Loops and selections -/

/-- A step of a loop puts on the list what is asked for with the room that is left. It keeps
    the cap, and tells whether it was reached. -/
def Fills (cap : Nat) (step : Filling α → Filling α × Bool) (ask : Nat → Requests α) : Prop :=
  ∀ f : Filling α, f.added ≤ cap →
    step f = (f.pushAll (ask (cap - f.added)).hyperplanes,
      decide ((f.pushAll (ask (cap - f.added)).hyperplanes).added < cap)) ∧
      (f.pushAll (ask (cap - f.added)).hyperplanes).added ≤ cap

theorem fills_deviations (x : Point α) (source : CutSource) (cap : Nat)
    (ds : List (Deviation α)) :
    Fills cap (fillDeviations x source cap ds) fun room => requestsFor x source room ds := by
  induction ds with
  | nil =>
      intro f hf
      have hnone : (requestsFor x source (cap - f.added) []).hyperplanes = [] := by
        simp only [requestsFor, Requests.empty]
      simp only [hnone, f.pushAll_nil]
      exact ⟨rfl, hf⟩
  | cons d rest ih =>
      intro f hf
      simp only [fillDeviations]
      split
      next hfull =>
        -- Without room nothing is asked for.
        rw [Nat.sub_eq_zero_of_le hfull]
        have hnone : (requestsFor x source 0 (d :: rest)).hyperplanes = [] := by
          simp only [requestsFor, Requests.empty]
        simp only [hnone, f.pushAll_nil, decide_eq_false (Nat.not_lt.2 hfull)]
        exact ⟨trivial, hf⟩
      next hroom =>
        obtain ⟨room, hrest⟩ : ∃ room, cap - f.added = room + 1 :=
          Nat.exists_eq_succ_of_ne_zero (by omega)
        split
        next hinside =>
          have hskip : (requestsFor x source (cap - f.added) (d :: rest)).hyperplanes =
              (requestsFor x source (cap - f.added) rest).hyperplanes := by
            rw [hrest, requestsFor, if_pos hinside]
            rfl
          rw [hskip]
          exact ih f hf
        next hinside =>
          have htake : (requestsFor x source (cap - f.added) (d :: rest)).hyperplanes =
              ⟨.constraint d.constraint, x, source⟩ ::
                (requestsFor x source (cap - (f.added + 1)) rest).hyperplanes := by
            rw [hrest, requestsFor, if_neg hinside, show cap - (f.added + 1) = room by omega]
            rfl
          rw [htake, Filling.pushAll_cons]
          exact ih (f.push _) (Nat.lt_of_not_le hroom)

omit [Scalar α] in
/-- Steps that ask for the same hyperplanes put the same on the list. -/
theorem Fills.congr {cap : Nat} {step : Filling α → Filling α × Bool} {ask ask' : Nat → Requests α}
    (h : Fills cap step ask) (hsame : ∀ room, (ask' room).hyperplanes = (ask room).hyperplanes) :
    Fills cap step ask' := by
  intro f hf
  simp only [hsame]
  exact h f hf

variable (s : Session α) (milp : Bool)

theorem fills_at (x : Point α) (source : CutSource) :
    Fills s.settings.dual.maxHyperplanes (s.fillAt x source) (s.requestsAt x source) :=
  fills_deviations x source _ _

theorem fills_supporting (z : Candidate α) (position : Nat) (c : Candidate α) :
    Fills s.settings.dual.maxHyperplanes (s.fillSupporting z milp position c)
      (s.supportingAt LineSearch.find z milp position c) := by
  have hask := fun room => s.hyperplanes_supportingAt z c milp position room
  unfold fillSupporting
  cases hprojected : s.projected? z c with
  | none =>
      simp only [hprojected] at hask ⊢
      exact (s.fills_at c.point (.ofPosition position milp false)).congr hask
  | some w =>
      simp only [hprojected] at hask ⊢
      exact (s.fills_at w (.ofPosition position milp true)).congr hask

omit [Scalar α] in
/-- Visiting candidates puts on the list what is asked for while there is room. -/
theorem fillAll_eq {cap : Nat} {visit : Nat → Candidate α → Filling α → Filling α × Bool}
    {ask : Nat → Candidate α → Nat → Requests α}
    (hvisit : ∀ position c, Fills cap (visit position c) (ask position c))
    (candidates : List (Candidate α)) (position : Nat) {f : Filling α} (hf : f.added ≤ cap) :
    fillAll visit position candidates f =
        f.pushAll (visitAll ask position (cap - f.added) candidates).hyperplanes ∧
      (fillAll visit position candidates f).added ≤ cap := by
  induction candidates generalizing position f with
  | nil => exact ⟨f.pushAll_nil.symm, hf⟩
  | cons c rest ih =>
      obtain ⟨hstep, hcap⟩ := hvisit position c f hf
      simp only [fillAll, visitAll, hstep, decide_eq_true_eq]
      generalize ask position c (cap - f.added) = here at *
      -- There is room for more exactly if not all of it was used.
      have hroom : cap - f.added - here.hyperplanes.length =
          cap - (f.pushAll here.hyperplanes).added := by
        rw [Filling.pushAll, Nat.sub_sub]
      rw [hroom]
      by_cases hmore : (f.pushAll here.hyperplanes).added < cap
      · rw [if_pos hmore, if_neg (Nat.sub_ne_zero_of_lt hmore), Requests.append,
          Filling.pushAll_append]
        exact ih (position + 1) hcap
      · rw [if_neg hmore, if_pos (Nat.sub_eq_zero_of_le (Nat.not_lt.1 hmore))]
        exact ⟨rfl, hcap⟩

omit [Scalar α] in
/-- A whole pass over candidates begins with nothing put on the list. -/
theorem fillAll_fresh {cap : Nat} {visit : Nat → Candidate α → Filling α → Filling α × Bool}
    {ask : Nat → Candidate α → Nat → Requests α}
    (hvisit : ∀ position c, Fills cap (visit position c) (ask position c))
    (candidates : List (Candidate α)) (waiting : List (Hyperplane α)) :
    fillAll visit 0 candidates ⟨waiting, 0⟩ =
        .pushAll ⟨waiting, 0⟩ (visitAll ask 0 cap candidates).hyperplanes ∧
      (visitAll ask 0 cap candidates).hyperplanes.length ≤ cap := by
  obtain ⟨hfilled, hcap⟩ := fillAll_eq hvisit candidates 0 (f := ⟨waiting, 0⟩) (Nat.zero_le cap)
  rw [hfilled, Filling.pushAll, Nat.sub_zero, Nat.zero_add] at hcap
  exact ⟨hfilled, hcap⟩

/-- The pass of a strategy puts on the list what the strategy asks for. -/
theorem fillSelected_eq (strategy : CutStrategy) (interior : Option (Candidate α))
    (candidates : List (Candidate α)) (waiting : List (Hyperplane α)) :
    s.fillSelected strategy interior candidates milp waiting =
        .pushAll ⟨waiting, 0⟩ (s.select strategy interior candidates milp).hyperplanes ∧
      (s.select strategy interior candidates milp).hyperplanes.length ≤
        s.settings.dual.maxHyperplanes := by
  have hcutting := fillAll_fresh
    (fun position c => s.fills_at c.point (.ofPosition position milp false)) candidates waiting
  cases strategy with
  | cuttingPlane => exact hcutting
  | supportingHyperplane =>
      cases interior with
      | none => exact hcutting
      | some z => exact fillAll_fresh (s.fills_supporting milp z) candidates waiting

theorem fillLifted_eq (aux : Nat) (candidates : List (Candidate α)) (f : Filling α) :
    s.fillLifted aux candidates f =
      f.pushAll ((candidates.filterMap (s.epigraphRequest? aux)).take
        (s.settings.dual.maxHyperplanes - f.added)) := by
  induction candidates generalizing f with
  | nil => rw [fillLifted, List.filterMap_nil, List.take_nil, f.pushAll_nil]
  | cons c rest ih =>
      rw [fillLifted]
      split
      next hfull => rw [Nat.sub_eq_zero_of_le hfull, List.take_zero, f.pushAll_nil]
      next hroom =>
        cases hrequest : s.epigraphRequest? aux c with
        | none => rw [List.filterMap_cons_none hrequest]; exact ih f
        | some h =>
            rw [List.filterMap_cons_some hrequest, show s.settings.dual.maxHyperplanes - f.added =
              s.settings.dual.maxHyperplanes - (f.added + 1) + 1 by omega, List.take_succ_cons,
              Filling.pushAll_cons]
            exact ih (f.push h)

/-- The pass for the objective puts on the list what is asked for it. -/
theorem fillEpigraph_eq (candidates : List (Candidate α)) (waiting : List (Hyperplane α)) :
    s.fillEpigraph candidates waiting =
        .pushAll ⟨waiting, 0⟩ (s.epigraphRequests candidates).hyperplanes ∧
      (s.epigraphRequests candidates).hyperplanes.length ≤ s.settings.dual.maxHyperplanes := by
  simp only [fillEpigraph, epigraphRequests]
  split
  · exact ⟨(Filling.pushAll_nil _).symm, Nat.zero_le _⟩
  · cases s.problem.auxiliary with
    | none => exact ⟨(Filling.pushAll_nil _).symm, Nat.zero_le _⟩
    | some aux => exact ⟨s.fillLifted_eq aux candidates _, List.length_take_le _ _⟩

/-! ## Passes -/

theorem extends_fillSelected (strategy : CutStrategy) (interior : Option (Candidate α))
    (candidates : List (Candidate α)) (waiting : List (Hyperplane α)) :
    (s.fillSelected strategy interior candidates milp waiting).Extends waiting
      s.settings.dual.maxHyperplanes := by
  obtain ⟨hfilled, hcap⟩ := s.fillSelected_eq milp strategy interior candidates waiting
  rw [hfilled]
  exact Filling.extends_pushAll hcap

theorem extends_fillEpigraph (candidates : List (Candidate α)) (waiting : List (Hyperplane α)) :
    (s.fillEpigraph candidates waiting).Extends waiting s.settings.dual.maxHyperplanes := by
  obtain ⟨hfilled, hcap⟩ := s.fillEpigraph_eq candidates waiting
  rw [hfilled]
  exact Filling.extends_pushAll hcap

variable {s}

/-- A candidate that is not accepted is asked for by the strategy or for the objective. -/
theorem exists_request [Scalar.ScaledOrder α] (hvalid : s.settings.validate = .ok ())
    (hupper : ∀ c ∈ s.problem.constraints, Scalar.isFinite c.upper = true)
    (strategy : CutStrategy) (interior : Option (Candidate α)) {x : Point α}
    (hresidual : s.objectiveNeedsCuts = true → ∀ residual ∈ s.problem.epigraphValue x,
      Scalar.isUndefined residual = false)
    (number : Nat) (hrejected : s.accepts (s.problem.candidate x number) = false) :
    (s.select strategy interior [s.problem.candidate x number] milp).hyperplanes ≠ [] ∨
      (s.epigraphRequests [s.problem.candidate x number]).hyperplanes ≠ [] := by
  rcases outside_or_below hvalid hrejected with
    ⟨top, htop, hpos⟩ | ⟨hneeds, residual, heq, hbelow⟩
  · obtain ⟨_, _, _, _, _, _, hmem⟩ := exists_mem_select
      (c := s.problem.candidate x number) hvalid hupper strategy interior milp htop hpos
    exact .inl (List.ne_nil_of_mem hmem)
  · -- There is a residual only if a variable carries the objective.
    obtain ⟨aux, haux, _⟩ := Option.bind_eq_some_iff.1 heq
    have hlifted := lifted_mem_epigraphRequests (c := s.problem.candidate x number) hvalid hneeds
      haux heq (hresidual hneeds residual heq) hbelow
    exact .inr (List.ne_nil_of_mem hlifted.2)

end Session

namespace Turn

variable {α : Type} [Scalar α]

/-- Acceptance and the two passes agree, whatever state the callback is in, and wherever its
    interior point lies. Both passes only append to the waiting list, return the number they
    appended, and keep the cap; and if a candidate is not accepted, they append something. -/
theorem rejected_enqueues [Scalar.ScaledOrder α] (t : Turn α)
    (hvalid : t.session.settings.validate = .ok ())
    (hupper : ∀ c ∈ t.problem.constraints, Scalar.isFinite c.upper = true) (x : Point α)
    (hresidual : t.session.objectiveNeedsCuts = true → ∀ residual ∈ t.problem.epigraphValue x,
      Scalar.isUndefined residual = false)
    (number : Nat) (milp : Bool) :
    let c := t.problem.candidate x number
    let cap := t.session.settings.dual.maxHyperplanes
    let chosen := t.session.fillSelected t.callback.strategy t.store.interior.current [c] milp
      t.store.waiting
    let lifted := t.session.fillEpigraph [c] chosen.waiting
    chosen.Extends t.store.waiting cap ∧ lifted.Extends chosen.waiting cap ∧
      (t.requestCuts c milp).store.waiting = chosen.waiting ∧
      ((t.requestCuts c milp).requestEpigraph c).store.waiting = lifted.waiting ∧
      (t.session.accepts c = false → 0 < chosen.added + lifted.added) := by
  intro c cap chosen lifted
  have hchosen := (t.session.fillSelected_eq milp t.callback.strategy t.store.interior.current [c]
    t.store.waiting).1
  have hlifted := (t.session.fillEpigraph_eq [c] chosen.waiting).1
  have hstore : (t.requestCuts c milp).store.waiting = chosen.waiting :=
    (congrArg Filling.waiting hchosen).symm
  refine ⟨t.session.extends_fillSelected milp _ _ _ _, t.session.extends_fillEpigraph _ _, hstore,
    ?_, fun hrejected => ?_⟩
  · calc ((t.requestCuts c milp).requestEpigraph c).store.waiting
        = (t.requestCuts c milp).store.waiting ++
            (t.session.epigraphRequests [c]).hyperplanes := rfl
      _ = chosen.waiting ++ (t.session.epigraphRequests [c]).hyperplanes := by rw [hstore]
      _ = lifted.waiting := (congrArg Filling.waiting hlifted).symm
  · rw [show chosen = _ from hchosen, show lifted = _ from hlifted]
    simp only [Filling.pushAll, Nat.zero_add]
    rcases t.session.exists_request milp hvalid hupper t.callback.strategy
      t.store.interior.current hresidual number hrejected with hne | hne
    · exact Nat.add_pos_left (List.length_pos_iff.2 hne) _
    · exact Nat.add_pos_right _ (List.length_pos_iff.2 hne)

/-- The sum of the squares of two variables, carried by a third one, in a disc and in a larger
    one. -/
def disc : Problem α :=
  let squares : SmoothFunction α :=
    { value := fun x => x.coord 0 * x.coord 0 + x.coord 1 * x.coord 1
      gradient := fun x => .ok (.ofList [(0, 2.0 * x.coord 0), (1, 2.0 * x.coord 1)]) }
  { ((((((Problem.ofObjective ⟨squares, .nonlinear, .minimize⟩).addVariable "x" (-5.0) 5.0
      .real).addVariable "y" (-5.0) 5.0 .real).addVariable "level" (-100.0) 100.0
        .real).addConstraint ⟨"disc", squares, 1.0, true⟩).addConstraint
          ⟨"larger", squares, 1.125, true⟩) with auxiliary := some 2 }

/-- A callback that may request one hyperplane at a time, and projects candidates from the
    centre of the disc with few evaluations. -/
def projecting : Turn α :=
  { callback := .start
      { problem := disc
        settings := { Settings.standard.withMaxHyperplanes 1 with
          boundary := ⟨3, 1e-12, 1e-8, .average⟩ }
        bounds := .fresh .minimize Settings.standard.termination
        iterations := .empty
        statistics := {}
        clock := .still ⟨0⟩
        journal := #[] }
      { CutStore.empty with interior := ⟨some (disc.candidate [0.0, 0.0, 0.0] 0), none⟩ }
      .supportingHyperplane
    calls := [] }

/-- A point outside both discs and below the objective: each pass appends as much as it may. -/
theorem rejected_enqueues_disc :
    let t : Turn Float := projecting
    let c := t.problem.candidate [1.0, 0.5, 0.0] 1
    let chosen := t.session.fillSelected t.callback.strategy t.store.interior.current [c] true
      t.store.waiting
    let lifted := t.session.fillEpigraph [c] chosen.waiting
    t.session.accepts c = false ∧ chosen.added = 1 ∧ lifted.added = 1 ∧
      chosen.Extends t.store.waiting 1 ∧ lifted.Extends chosen.waiting 1 ∧
      (t.requestCuts c true).store.waiting = chosen.waiting ∧
      ((t.requestCuts c true).requestEpigraph c).store.waiting = lifted.waiting ∧
      0 < chosen.added + lifted.added := by
  intro t c chosen lifted
  have hrejected : t.session.accepts c = false := by decide +kernel
  have hupper : (t.problem.constraints.all fun c => Scalar.isFinite c.upper) = true := by
    decide +kernel
  have hresidual : ((t.problem.epigraphValue [1.0, 0.5, 0.0]).all fun residual =>
      Scalar.isUndefined residual == false) = true := by decide +kernel
  obtain ⟨hchosen, hlifted, hwaiting, hwaiting', hsome⟩ := rejected_enqueues t
    ((Settings.validate_eq_ok_iff _).2 (List.all_eq_true.1 (by decide +kernel)))
    (List.all_eq_true.1 hupper) [1.0, 0.5, 0.0]
    (fun _ residual hmem => by
      rw [Option.mem_def.1 hmem, Option.all_some] at hresidual
      exact eq_of_beq hresidual) 1 true
  exact ⟨hrejected, by decide +kernel, by decide +kernel, hchosen, hlifted, hwaiting, hwaiting',
    hsome hrejected⟩

end Turn

end OuterApprox
