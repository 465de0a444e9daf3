import OuterApprox.Proofs.Lasting

/-!
# What the handling of events depends on

Two callbacks that differ in their journals, in how often the local solver was asked, in ledger
entries that are no rows of the model, or in what their clocks tell besides whether time is up,
handle an event in the same way. What is left when these are taken away is the gist of a callback.
Whether two more things are looked at is a matter of regard: no-good cuts, those in the queue and
the number of those added, and what the local solver was tried on.

Every function that handles a part of an event leads turns with the same gist to turns with the
same gist. Most of them change a session or a cut store in a way that depends on its gist only;
those are the coarse changes, for which this is said once. Two functions ask for more. The local
solver has to answer the same however often it was asked, and it must be possible to tell whether
it is asked: either what it was tried on is looked at, or the rule does not look at it. And rows
are answered by their place among the calls of an event, so up to the last hyperplane of an event
every row has to be looked at. No-good rows come after all hyperplanes, and from there on they
may be left out together with the no-good cuts.

## Main definitions

* `Regard`: What is looked at besides what everything depends on.
* `Session.gist`, `CutStore.gist`, `Callback.gist`, `Turn.gist`: What is left.
* `Session.Coarse`, `CutStore.Coarse`: Changes that depend on the gist only.
* `Turn.Alike`: Turns with the same gist.
* `FixedIntegerQueue.Steady`, `Callback.Steady`: The local solver can be foretold.

## Theorems

* `Session.coarse_of_clock`, `Session.stopReason?_gist`: The clock need not be looked at closely.
* `Turn.Alike.coarse`, `Turn.Alike.coarseStore`: Coarse changes lead to the same gist.
* `Turn.Alike.flushHyperplanes`, `Turn.Alike.fixIntegers`: So do the two that ask for more.
* `Turn.gist_flushIntegerCuts`: No-good cuts may be left out.
* `Callback.gist_handle`: The same for a whole event.
-/

namespace OuterApprox

variable {α : Type}

/-- Whether a no-good row was handed over. -/
def Call.isNoGood : Call α → Bool
  | .row .noGood _ _ => true
  | _ => false

/-- What is looked at besides what everything depends on. -/
structure Regard where
  /-- No-good cuts: those in the queue and the number of those added. -/
  cuts : Bool
  /-- What the local search was tried on. -/
  memory : Bool
  /-- No-good rows among the calls. -/
  rows : Bool

/-- A session without its remarks, without the number of no-good cuts unless they are looked at,
    and without what its clock tells but whether time is up. -/
def Session.gist (r : Regard) (s : Session α) : Session α :=
  { s with
    statistics :=
      { s.statistics with integerCuts := bif r.cuts then s.statistics.integerCuts else 0 }
    clock := s.clock.coarse s.settings.termination.timeLimit
    journal := #[] }

/-- A queue without the number of questions, and without what was tried unless that is
    looked at. -/
def FixedIntegerQueue.gist (r : Regard) (q : FixedIntegerQueue α) : FixedIntegerQueue α where
  solver := q.solver
  asked := 0
  tried := bif r.memory then q.tried else []
  lastIteration := bif r.memory then q.lastIteration else none
  overflowed := q.overflowed

/-- A cut store with the entries that are rows of the model, and without what is not looked
    at. -/
def CutStore.gist (r : Regard) (st : CutStore α) : CutStore α :=
  { st with
    ledger := ⟨st.ledger.entries.filter (·.row.isSome)⟩
    integerCuts := bif r.cuts then st.integerCuts else []
    fixedInteger := st.fixedInteger.gist r }

def Callback.gist (r : Regard) (c : Callback α) : Callback α :=
  { c with session := c.session.gist r, store := c.store.gist r }

def Turn.gist (r : Regard) (t : Turn α) : Turn α where
  callback := t.callback.gist r
  calls := t.calls.filter fun c => r.rows || !c.isNoGood

namespace FixedIntegerQueue

/-- The local solver answers the same however often it was asked before. -/
def Steady (q : FixedIntegerQueue α) : Prop :=
  ∀ solver ∈ q.solver, ∀ n n' p c, solver n p c = solver n' p c

variable {r : Regard} {q q' : FixedIntegerQueue α}

/-- The local solver is looked at whatever the regard. -/
theorem solver_eq_of_gist (h : q.gist r = q'.gist r) : q.solver = q'.solver := by
  have hsolver := congrArg FixedIntegerQueue.solver h
  exact hsolver

/-- With an eye on the memory, what was tried and when it was tried last are the same. -/
theorem memory_eq_of_gist (h : q.gist r = q'.gist r) (hr : r.memory = true) :
    q.tried = q'.tried ∧ q.lastIteration = q'.lastIteration := by
  have htried := congrArg FixedIntegerQueue.tried h
  have hlast := congrArg FixedIntegerQueue.lastIteration h
  simp only [gist, hr, cond_true] at htried hlast
  exact ⟨htried, hlast⟩

/-- Whether the count of the iterations has overflowed is always looked at. -/
theorem overflowed_eq_of_gist (h : q.gist r = q'.gist r) : q.overflowed = q'.overflowed := by
  have hmark := congrArg FixedIntegerQueue.overflowed h
  exact hmark

variable [Scalar α]

/-- Some rules do not look at what was tried. -/
theorem verdict_congr (h : q.gist r = q'.gist r) {rule : FixedIntegerRule}
    (hrule : r.memory = true ∨ rule = .never ∨ rule = .always) (p : Problem α)
    (c : Candidate α) : q.verdict rule p c = q'.verdict rule p c := by
  have hsolver := solver_eq_of_gist h
  -- The other rules read the memory as well, these two read the solver only.
  rcases hrule with hr | rfl | rfl
  · obtain ⟨htried, hlast⟩ := memory_eq_of_gist h hr
    simp only [verdict, hsolver, htried, hlast]
  · simp only [verdict, hsolver]
  · simp only [verdict, hsolver]

/-- Whether the local solver is asked about a candidate can be told from the gist. -/
theorem wants_congr (h : q.gist r = q'.gist r) {rule : FixedIntegerRule}
    (hrule : r.memory = true ∨ rule = .never ∨ rule = .always) (p : Problem α)
    (c : Candidate α) : q.wants rule p c = q'.wants rule p c := by
  simp only [wants, verdict_congr h hrule]

/-- What a steady local solver answers does not depend on how often it was asked. -/
theorem outcome_congr (hsteady : q.Steady) (h : q.solver = q'.solver) (p : Problem α)
    (c : Candidate α) : q.outcome p c = q'.outcome p c := by
  unfold outcome
  rw [← h]
  cases hsolver : q.solver with
  | none => rfl
  | some solver => simp only [hsteady solver hsolver q.asked q'.asked]

/-- What is left of the queue after it was decided on a candidate. -/
theorem gist_enrol (h : q.gist r = q'.gist r) {rule : FixedIntegerRule}
    (hrule : r.memory = true ∨ rule = .never ∨ rule = .always) (p : Problem α)
    (c : Candidate α) : (q.enrol rule p c).gist r = (q'.enrol rule p c).gist r := by
  have hsolver := solver_eq_of_gist h
  have hmark : q.overflowed = q'.overflowed := overflowed_eq_of_gist h
  simp only [enrol, verdict_congr h hrule]
  cases q'.verdict rule p c with
  | staysOut => exact h
  -- The mark is put over the gist, where the verdict came from.
  | overflow => exact congrArg (fun u : FixedIntegerQueue α => { u with overflowed := true }) h
  | goesIn =>
    cases hr : r.memory with
    | true =>
      obtain ⟨htried, -⟩ := memory_eq_of_gist h hr
      simp only [gist, hr, hsolver, hmark, htried, cond_true]
    | false => simp only [gist, hr, hsolver, hmark, cond_false]

omit [Scalar α] in
/-- The number of questions is not looked at. -/
theorem gist_afterAsking (q : FixedIntegerQueue α) : q.afterAsking.gist r = q.gist r := by
  unfold afterAsking
  split <;> rfl

end FixedIntegerQueue

/-! ## Changes that go by the gist -/

/-- A change of a session whose gist depends on that of the session only. -/
def Session.Coarse (r : Regard) (f : Session α → Session α) : Prop :=
  ∀ s, (f s).gist r = (f (s.gist r)).gist r

/-- A change of a cut store whose gist depends on that of the store only. -/
def CutStore.Coarse (r : Regard) (f : CutStore α → CutStore α) : Prop :=
  ∀ st, (f st).gist r = (f (st.gist r)).gist r

namespace Session

variable [Scalar α] (r : Regard)

omit [Scalar α] in
/-- A change that leaves the settings and the clock as they are may be judged with the clock left
    out. -/
theorem coarse_of_clock {f : Session α → Session α} (hsettings : ∀ s, (f s).settings = s.settings)
    (hclock : ∀ s, (f s).clock = s.clock)
    (h : ∀ s, { (f s).gist r with clock := s.clock } =
      { (f (s.gist r)).gist r with clock := s.clock }) : Coarse r f := by
  intro s
  -- The clocks of both sides agree: a clock that is coarse already stays as it is.
  have hcoarse : ((f s).gist r).clock = ((f (s.gist r)).gist r).clock := by
    simp only [gist, hsettings, hclock, Clock.coarse_coarse]
  -- So the equation without clocks is an equation with them.
  calc (f s).gist r
      = { { (f s).gist r with clock := s.clock } with clock := ((f s).gist r).clock } := rfl
    _ = { { (f (s.gist r)).gist r with clock := s.clock } with
          clock := ((f (s.gist r)).gist r).clock } := by rw [h, hcoarse]
    _ = (f (s.gist r)).gist r := rfl

/-- An offer to the bounds reads them and the problem, all of which the gist keeps. -/
theorem coarse_offerPrimal (c : Candidate α) (source : PrimalSource) :
    Coarse r fun s : Session α => s.offerPrimal c source :=
  coarse_of_clock r (fun _ => rfl) (fun _ => rfl) fun _ => by rcases r with ⟨_ | _, _, _⟩ <;> rfl

/-- The same for a dual bound. -/
theorem coarse_offerDual (d : DualBound α) : Coarse r fun s : Session α => s.offerDual d :=
  coarse_of_clock r (fun _ => rfl) (fun _ => rfl) fun _ => by rcases r with ⟨_ | _, _, _⟩ <;> rfl

/-- A new iteration is numbered and filled from the iterations and the settings. -/
theorem coarse_openIteration (milp : Bool) :
    Coarse r fun s : Session α => s.openIteration milp :=
  coarse_of_clock r (fun _ => rfl) (fun _ => rfl) fun _ => by rcases r with ⟨_ | _, _, _⟩ <;> rfl

omit [Scalar α] in
/-- Iterations are not touched by taking the gist. -/
theorem coarse_modifyIteration (f : Iteration α → Iteration α) :
    Coarse r fun s : Session α => s.modifyIteration f :=
  coarse_of_clock r (fun _ => rfl) (fun _ => rfl) fun _ => by rcases r with ⟨_ | _, _, _⟩ <;> rfl

omit [Scalar α] in
/-- A look at the clock is a look at the clock of the gist. -/
theorem gist_look (s : Session α) : s.look.gist r = (s.gist r).look :=
  congrArg (fun clock => { s.gist r with clock })
    (Clock.coarse_tick s.settings.termination.timeLimit s.clock).symm

/-- Whether there is a reason to stop is told by the gist. -/
theorem stopReason?_gist (s : Session α) : (s.gist r).stopReason? = s.stopReason? := by
  simp only [stopReason?, iterationLimitReached, timeLimitReached, gist, Clock.reached_coarse]
  rfl

end Session

namespace CutStore

variable (r : Regard)

/-- Hyperplanes join those that wait, which the gist keeps. -/
theorem coarse_request (hs : List (Hyperplane α)) :
    Coarse r fun st : CutStore α => st.request hs := by
  intro st
  rcases r with ⟨_ | _, _ | _, _⟩ <;> simp only [gist, request, FixedIntegerQueue.gist,
    List.filter_filter, Bool.and_self, cond_true, cond_false]

/-- A no-good cut is put at the end of the queue, or the queue is not looked at. -/
theorem coarse_queueIntegerCut (indices : List Nat) :
    Coarse r fun st : CutStore α => st.queueIntegerCut indices := by
  intro st
  rcases r with ⟨_ | _, _ | _, _⟩ <;> simp only [gist, queueIntegerCut, FixedIntegerQueue.gist,
    List.filter_filter, Bool.and_self, cond_true, cond_false]

/-- An entry that is no row of the model is not looked at. -/
theorem gist_record (st : CutStore α) (x : Hyperplane α) (number : Nat) (lazy convex : Bool) :
    ({ st with ledger := st.ledger.record x number lazy convex none } : CutStore α).gist r =
      st.gist r := by
  simp only [gist, CutLedger.record, List.filter_append, List.filter_cons, List.filter_nil,
    Option.isSome_none, Bool.false_eq_true, if_false, List.append_nil]

end CutStore

namespace Turn

/-- Two turns with the same gist. -/
def Alike (r : Regard) (t t' : Turn α) : Prop := t.gist r = t'.gist r

namespace Alike

variable {r : Regard} {t t' : Turn α}

/-- The sessions have the same gist. -/
theorem session (h : Alike r t t') : t.session.gist r = t'.session.gist r :=
  congrArg (fun u => u.callback.session) h

/-- So have the cut stores. -/
theorem store (h : Alike r t t') : t.store.gist r = t'.store.gist r :=
  congrArg (fun u => u.callback.store) h

/-- The problem is kept in the gist, and so are the settings, the bounds and the iterations. -/
theorem problem (h : Alike r t t') : t.session.problem = t'.session.problem :=
  congrArg (fun u => u.callback.session.problem) h

theorem settings (h : Alike r t t') : t.session.settings = t'.session.settings :=
  congrArg (fun u => u.callback.session.settings) h

theorem bounds (h : Alike r t t') : t.session.bounds = t'.session.bounds :=
  congrArg (fun u => u.callback.session.bounds) h

theorem iterations (h : Alike r t t') : t.session.iterations = t'.session.iterations :=
  congrArg (fun u => u.callback.session.iterations) h

/-- Where rows are looked at, the calls are the same. -/
theorem calls (h : Alike r t t') (hr : r.rows = true) : t.calls = t'.calls := by
  have hall : ∀ calls : List (Call α),
      calls.filter (fun c => r.rows || !c.isNoGood) = calls := fun calls =>
    List.filter_eq_self.2 fun c _ => by rw [hr, Bool.true_or]
  have hcalls := congrArg Turn.calls h
  rw [gist, gist, hall, hall] at hcalls
  exact hcalls

/-- A change of the sessions may be judged by the sessions alone. -/
theorem mapSession (h : Alike r t t') (f f' : Session α → Session α)
    (hf : (f t.session).gist r = (f' t'.session).gist r) :
    Alike r (t.mapSession f) (t'.mapSession f') := by
  -- The gist of a turn is put together from that of its session and the rest.
  change (⟨{ (t.gist r).callback with session := (f t.session).gist r }, (t.gist r).calls⟩ :
    Turn α) = ⟨{ (t'.gist r).callback with session := (f' t'.session).gist r },
      (t'.gist r).calls⟩
  rw [hf, h]

/-- A change of the cut stores may be judged by the stores alone. -/
theorem mapStore (h : Alike r t t') (f f' : CutStore α → CutStore α)
    (hf : (f t.store).gist r = (f' t'.store).gist r) :
    Alike r (t.mapStore f) (t'.mapStore f') := by
  change (⟨{ (t.gist r).callback with store := (f t.store).gist r }, (t.gist r).calls⟩ :
    Turn α) = ⟨{ (t'.gist r).callback with store := (f' t'.store).gist r }, (t'.gist r).calls⟩
  rw [hf, h]

/-- A coarse change of the session leads to the same gist. -/
theorem coarse {f : Session α → Session α} (h : Alike r t t') (hf : Session.Coarse r f) :
    Alike r (t.mapSession f) (t'.mapSession f) :=
  h.mapSession f f (by rw [hf, h.session, ← hf])

/-- A coarse change of the cut store leads to the same gist. -/
theorem coarseStore {f : CutStore α → CutStore α} (h : Alike r t t')
    (hf : CutStore.Coarse r f) : Alike r (t.mapStore f) (t'.mapStore f) :=
  h.mapStore f f (by rw [hf, h.store, ← hf])

/-- The same call is seen by both, or by neither. -/
theorem call (h : Alike r t t') (c : Call α) : Alike r (t.call c) (t'.call c) := by
  have hcalls : (t.gist r).calls = (t'.gist r).calls := congrArg Turn.calls h
  have hcallback : (t.gist r).callback = (t'.gist r).callback := congrArg Turn.callback h
  simp only [gist] at hcalls hcallback
  simp only [Alike, gist, Turn.call, List.filter_append, hcalls, hcallback]

/-- Remarks are not looked at, so they need not be the same. -/
theorem note (h : Alike r t t') (remarks remarks' : List (Diagnostic α)) :
    Alike r (t.note remarks) (t'.note remarks') := h

/-- A failure leaves a remark only. -/
theorem fail (h : Alike r t t') (step step' : EventStep) (e e' : EngineError) :
    Alike r (t.fail step e) (t'.fail step' e') := h

/-- A change of the callback that goes by its gist. -/
theorem mapCallback {f : Callback α → Callback α} (h : Alike r t t')
    (hf : ∀ c : Callback α, (f c).gist r = f (c.gist r)) :
    Alike r { t with callback := f t.callback } { t' with callback := f t'.callback } := by
  have hcalls : (t.gist r).calls = (t'.gist r).calls := congrArg Turn.calls h
  have hcallback : t.callback.gist r = t'.callback.gist r := congrArg Turn.callback h
  simp only [gist] at hcalls
  simp only [Alike, gist, hf, hcalls, hcallback]

/-- The phase is a field of its own. -/
theorem enter (h : Alike r t t') (phase : Phase) : Alike r (t.enter phase) (t'.enter phase) :=
  (h.note _ _).mapCallback (f := fun c => { c with phase }) fun _ => rfl

/-- What the engine reports about its nodes is written down by both. -/
theorem recordProgress (h : Alike r t t') (e : Event α) :
    Alike r (t.recordProgress e) (t'.recordProgress e) := by
  have hopen : ∀ {u u' : Turn α}, Alike r u u' → ∀ n, Alike r
      { u with callback := { u.callback with openNodes := n } }
      { u' with callback := { u'.callback with openNodes := n } } := fun hu n =>
    hu.mapCallback (f := fun c => { c with openNodes := n }) fun _ => rfl
  -- The two numbers are read one after the other, and each may fail to come.
  unfold Turn.recordProgress
  cases e.explored with
  | error err =>
    cases e.openNodes with
    | error err' => exact h
    | ok n => exact hopen (h.fail _ _ _ _) n
  | ok k =>
    have hexplored := h.mapCallback (f := fun c => { c with explored := k }) fun _ => rfl
    cases e.openNodes with
    | error err' => exact hexplored
    | ok n => exact hopen hexplored n

variable [Scalar α]

/-- Both find the same reason to stop, or none: of the clock it takes only whether time is up. -/
theorem checkTermination (h : Alike r t t') :
    Alike r t.checkTermination t'.checkTermination := by
  have hentered := h.enter .checkingTermination
  have hreason : (t.enter .checkingTermination).session.stopReason? =
      (t'.enter .checkingTermination).session.stopReason? := by
    rw [← Session.stopReason?_gist r, hentered.session, Session.stopReason?_gist]
  have hlooked := hentered.mapSession (·.look) (·.look) (by
    rw [Session.gist_look, Session.gist_look, hentered.session])
  simp only [Turn.checkTermination, hreason]
  split
  · exact hlooked
  · exact ((hlooked.note _ _).call .abort).mapCallback
      (f := fun c => { c with aborted := true }) fun _ => rfl

/-- The bound of the engine is judged by the dual bound, and offered or not by both. -/
theorem updateDualBound (h : Alike r t t') (e : Event α) :
    Alike r (t.updateDualBound e) (t'.updateDualBound e) := by
  have hentered := h.enter .updatingBounds
  have hbounds := hentered.bounds
  have hnumber : (t.enter .updatingBounds).iteration = (t'.enter .updatingBounds).iteration :=
    congrArg IterationLedger.lastNumber hentered.iterations
  simp only [Turn.updateDualBound, hbounds, hnumber]
  cases e.bound with
  | error err => exact hentered.fail _ _ _ _
  | ok bound =>
    dsimp only
    split
    · exact hentered.coarse (Session.coarse_offerDual r _)
    · exact hentered

/-! ### Handing over -/

/-- A row is answered by its place among the calls, so all of them must be looked at. -/
theorem flushHyperplane {acc acc' : Turn α × Nat} (hr : r.rows = true)
    (h : Alike r acc.1 acc'.1 ∧ acc.2 = acc'.2) (e : Event α) (number : Nat)
    (x : Hyperplane α) :
    Alike r (Turn.flushHyperplane e number acc x).1 (Turn.flushHyperplane e number acc' x).1 ∧
      (Turn.flushHyperplane e number acc x).2 = (Turn.flushHyperplane e number acc' x).2 := by
  obtain ⟨t, n⟩ := acc
  obtain ⟨t', n'⟩ := acc'
  obtain ⟨h, rfl⟩ : Alike r t t' ∧ n = n' := h
  have hproblem : (t.note (t.problem.linearizeRemarks x)).problem =
      (t'.note (t'.problem.linearizeRemarks x)).problem := h.problem
  have hcalls : (t.note (t.problem.linearizeRemarks x)).calls =
      (t'.note (t'.problem.linearizeRemarks x)).calls := h.calls hr
  -- Both make the same row of the hyperplane, and ask about it in the same place.
  simp only [Turn.flushHyperplane, hproblem, submit, hcalls]
  cases (t'.note (t'.problem.linearizeRemarks x)).problem.linearize x with
  | error d => exact ⟨h, rfl⟩
  | ok l =>
    dsimp only
    generalize e.onRow (List.countP Call.isRow
      (t'.note (t'.problem.linearizeRemarks x)).calls) l.row = answer
    have hrow := (h.note (t.problem.linearizeRemarks x) (t'.problem.linearizeRemarks x)).call
      (.row .hyperplane l.row answer.taken)
    cases answer with
    | error err => exact ⟨hrow, rfl⟩
    | ok _ =>
      dsimp only
      -- The entry of a row that is taken during a search is no row of the model.
      refine ⟨hrow.mapStore _ _ ?_, rfl⟩
      rw [CutStore.gist_record, CutStore.gist_record]
      exact hrow.store

/-- Everything that waits is handed over, row by row, and the same number of rows is taken. -/
theorem flushHyperplanes (h : Alike r t t') (hr : r.rows = true) (e : Event α) :
    Alike r (t.flushHyperplanes e).1 (t'.flushHyperplanes e).1 ∧
      (t.flushHyperplanes e).2 = (t'.flushHyperplanes e).2 := by
  have hwaiting : t.store.waiting = t'.store.waiting :=
    congrArg (fun u => u.callback.store.waiting) h
  have hnumber : t.iteration = t'.iteration := congrArg IterationLedger.lastNumber h.iterations
  -- The fold starts from an empty list of waiting hyperplanes and a count of zero.
  have hemptied := h.mapStore (fun s => { s with waiting := [] })
    (fun s => { s with waiting := [] })
    (congrArg (fun st : CutStore α => { st with waiting := [] }) h.store)
  have hflushed : Alike r _ _ ∧ _ = _ :=
    List.foldl_rel (l := t'.store.waiting) (f := Turn.flushHyperplane e t'.iteration)
      (g := Turn.flushHyperplane e t'.iteration)
      (r := fun acc acc' => Alike r acc.1 acc'.1 ∧ acc.2 = acc'.2)
      (a := (t.mapStore fun s => { s with waiting := [] }, 0))
      (b := (t'.mapStore fun s => { s with waiting := [] }, 0)) ⟨hemptied, rfl⟩
      fun x _ _ _ hacc => flushHyperplane hr hacc e _ x
  simp only [Turn.flushHyperplanes, hwaiting, hnumber]
  -- From here on only the results of the two folds matter.
  generalize t'.store.waiting.foldl (Turn.flushHyperplane e t'.iteration)
    (t.mapStore fun s => { s with waiting := [] }, 0) = acc at hflushed ⊢
  generalize t'.store.waiting.foldl (Turn.flushHyperplane e t'.iteration)
    (t'.mapStore fun s => { s with waiting := [] }, 0) = acc' at hflushed ⊢
  obtain ⟨halike, hadded⟩ := hflushed
  rw [hadded]
  split
  · exact ⟨halike, rfl⟩
  -- Counting the rows in the iteration and in the statistics is a coarse change.
  · refine ⟨halike.coarse ?_, rfl⟩
    refine Session.coarse_of_clock r (fun _ => rfl) (fun _ => rfl) fun _ => ?_
    rcases r with ⟨_ | _, _, _⟩ <;> rfl

/-! ### Choosing cuts -/

/-- The strategy chooses the same hyperplanes, for it sees the problem and the interior point. -/
theorem requestCuts (h : Alike r t t') (c : Candidate α) (milp : Bool) :
    Alike r (t.requestCuts c milp) (t'.requestCuts c milp) := by
  have hselect : t.session.select t.callback.strategy t.store.interior.current [c] milp =
      t'.session.select t'.callback.strategy t'.store.interior.current [c] milp :=
    congrArg (fun u => u.callback.session.select u.callback.strategy
      u.callback.store.interior.current [c] milp) h
  simp only [Turn.requestCuts, hselect]
  exact (h.note _ _).coarseStore (CutStore.coarse_request r _)

/-- The epigraph of the objective asks for the same hyperplanes. -/
theorem requestEpigraph (h : Alike r t t') (c : Candidate α) :
    Alike r (t.requestEpigraph c) (t'.requestEpigraph c) := by
  have hrequests : t.session.epigraphRequests [c] = t'.session.epigraphRequests [c] :=
    congrArg (fun u => u.callback.session.epigraphRequests [c]) h
  simp only [Turn.requestEpigraph, hrequests]
  exact (h.note _ _).coarseStore (CutStore.coarse_request r _)

/-- A point of a relaxation is cut off by both in the same way. -/
theorem cutRelaxation (h : Alike r t t') (hr : r.rows = true) (e : Event α) (values : Point α) :
    Alike r (t.cutRelaxation e values) (t'.cutRelaxation e values) := by
  have hentered := h.enter .generatingCuts
  have hcandidate : (t.enter .generatingCuts).problem.candidate values
      (t.enter .generatingCuts).iteration =
        (t'.enter .generatingCuts).problem.candidate values
          (t'.enter .generatingCuts).iteration :=
    congrArg (fun u => u.callback.session.problem.candidate values
      u.callback.session.iterations.lastNumber) hentered
  simp only [Turn.cutRelaxation, hcandidate]
  obtain ⟨hflushed, hadded⟩ := (hentered.requestCuts _ false).flushHyperplanes hr e
  rw [hadded]
  exact hflushed.coarse (Session.coarse_modifyIteration r _)

/-- There is room for such cuts in both turns, or in neither. -/
theorem relaxationNode (h : Alike r t t') (hr : r.rows = true) (e : Event α) :
    Alike r (t.relaxationNode e) (t'.relaxationNode e) := by
  have hroom : t.hasRelaxationRoom = t'.hasRelaxationRoom :=
    congrArg (fun u => u.hasRelaxationRoom) h
  have hproblem : t.problem = t'.problem := h.problem
  simp only [Turn.relaxationNode, hroom, hproblem]
  -- The engine is asked whether the node is optimal, and for its point only if it is.
  cases e.optimal with
  | error err => exact h.fail _ _ _ _
  | ok optimal =>
    cases optimal with
    | false => exact h
    | true =>
      dsimp only
      split
      · exact h
      · cases e.relaxation with
        | error err => exact h.fail _ _ _ _
        | ok values =>
          dsimp only
          split
          · exact h.cutRelaxation hr e values
          · exact h.note _ _

/-! ### An integer solution -/

/-- An iteration is opened by both or by neither. -/
theorem ensureIteration (h : Alike r t t') : Alike r t.ensureIteration t'.ensureIteration := by
  have hiterations := h.iterations
  simp only [Turn.ensureIteration, hiterations]
  split
  · exact h.coarse (Session.coarse_openIteration r true)
  · exact h

/-- The objective value is compared with the same bound. -/
theorem offerSolution (h : Alike r t t') (objective : α) (c : Candidate α) :
    Alike r (t.offerSolution objective c) (t'.offerSolution objective c) := by
  have hbounds := h.bounds
  simp only [Turn.offerSolution, hbounds]
  split
  · exact h.coarse (Session.coarse_offerPrimal r c _)
  · exact h

/-- The interior point is moved by both to the same place. -/
theorem refineInterior (h : Alike r t t') : Alike r t.refineInterior t'.refineInterior := by
  have hstrategy : t.callback.strategy = t'.callback.strategy :=
    congrArg (fun u => u.callback.strategy) h
  have hafter : t.store.interior.consider t.problem t.session.settings.boundary.interiorUpdate
      t.session.bounds.incumbent =
        t'.store.interior.consider t'.problem t'.session.settings.boundary.interiorUpdate
          t'.session.bounds.incumbent :=
    congrArg (fun u => u.callback.store.interior.consider u.callback.session.problem
      u.callback.session.settings.boundary.interiorUpdate u.callback.session.bounds.incumbent) h
  simp only [Turn.refineInterior, hstrategy, hafter]
  split
  · exact h
  -- The interior point is kept in the gist, so replacing it is a change of the gist.
  · have hinterior : ∀ i, ({ t.store with interior := i } : CutStore α).gist r =
        ({ t'.store with interior := i } : CutStore α).gist r := fun i =>
      congrArg (fun st : CutStore α => { st with interior := i }) h.store
    exact (h.note _ _).mapStore _ _ (hinterior _)

omit [Scalar α] in
/-- The numbers of an iteration are taken from what the gist keeps. -/
theorem recordIteration (h : Alike r t t') (objective : α) (c : Candidate α) :
    Alike r (t.recordIteration objective c) (t'.recordIteration objective c) := by
  have hbounds := h.bounds
  have hexplored : t.callback.explored = t'.callback.explored :=
    congrArg (fun u => u.callback.explored) h
  have hopenNodes : t.callback.openNodes = t'.callback.openNodes :=
    congrArg (fun u => u.callback.openNodes) h
  have hbefore : t.session.statistics.explored = t'.session.statistics.explored :=
    congrArg (fun u => u.callback.session.statistics.explored) h
  simp only [Turn.recordIteration, hbounds, hexplored, hopenNodes, hbefore]
  refine h.coarse (Session.coarse_of_clock r (fun _ => rfl) (fun _ => rfl) fun _ => ?_)
  rcases r with ⟨_ | _, _, _⟩ <;> rfl

/-- The search along the line finds the same point. -/
theorem searchPrimal (h : Alike r t t') (c : Candidate α) :
    Alike r (t.searchPrimal c) (t'.searchPrimal c) := by
  have hsettings := h.settings
  have hproblem : t.problem = t'.problem := h.problem
  have hinterior : t.store.interior = t'.store.interior :=
    congrArg (fun u => u.callback.store.interior) h
  simp only [Turn.searchPrimal, hsettings, hproblem, hinterior]
  split
  · exact h
  · split
    · exact h
    next inner _ =>
      -- What is found depends on the session, and not on any part that is left out.
      have hfound : t.session.primalSearch inner c = t'.session.primalSearch inner c :=
        congrArg (fun u => u.callback.session.primalSearch inner c) h
      simp only [hfound]
      split
      · exact (h.note _ _).coarse (Session.coarse_offerPrimal r _ _)
      · exact h.note _ _

/-- Closing the last iteration is a coarse change. -/
theorem closeIteration (h : Alike r t t') (c : Candidate α) (added : Nat) :
    Alike r (t.closeIteration c added) (t'.closeIteration c added) := by
  refine (h.coarse (f := fun s => { s with iterations := s.iterations.closeLast }) ?_).note _ _
  refine Session.coarse_of_clock r (fun _ => rfl) (fun _ => rfl) fun _ => ?_
  rcases r with ⟨_ | _, _, _⟩ <;> rfl

/-- The local solver is asked by both or by neither, and answers both the same. -/
theorem fixIntegers (h : Alike r t t') (hsteady : t.store.fixedInteger.Steady)
    (hrule : r.memory = true ∨ t.session.settings.primal.fixedInteger = .never ∨
      t.session.settings.primal.fixedInteger = .always) (c : Candidate α) :
    Alike r (t.fixIntegers c) (t'.fixIntegers c) := by
  have hqueue : t.store.fixedInteger.gist r = t'.store.fixedInteger.gist r :=
    congrArg (fun u => u.callback.store.fixedInteger) h
  have hproblem : t.problem = t'.problem := h.problem
  have hsettings := h.settings
  rw [hsettings] at hrule
  have hwants := FixedIntegerQueue.wants_congr hqueue hrule t'.problem c
  have henrolled := FixedIntegerQueue.gist_enrol hqueue hrule t'.problem c
  -- Stores whose queues have the same gist have the same gist.
  have hstore : ∀ {q q' : FixedIntegerQueue α}, q.gist r = q'.gist r →
      ({ t.store with fixedInteger := q } : CutStore α).gist r =
        ({ t'.store with fixedInteger := q' } : CutStore α).gist r := by
    intro q q' heq
    have hst := congrArg (fun st : CutStore α => { st with fixedInteger := q.gist r }) h.store
    simpa only [CutStore.gist, heq] using hst
  simp only [Turn.fixIntegers, hproblem, hsettings]
  -- If the solver is not asked, nothing happens but that the candidate is decided on.
  cases hin : t'.store.fixedInteger.wants t'.session.settings.primal.fixedInteger t'.problem c with
  | false =>
    rw [hwants, hin]
    exact h.mapStore _ _ (hstore henrolled)
  | true =>
    -- Being steady, it answers both in the same way.
    have hsame : (t.store.fixedInteger.enrol t'.session.settings.primal.fixedInteger
        t'.problem c).outcome t'.problem c =
          (t'.store.fixedInteger.enrol t'.session.settings.primal.fixedInteger
            t'.problem c).outcome t'.problem c := by
      refine FixedIntegerQueue.outcome_congr ?_ ?_ _ _
      · rw [FixedIntegerQueue.Steady, FixedIntegerQueue.solver_enrol]
        exact hsteady
      · rw [FixedIntegerQueue.solver_enrol, FixedIntegerQueue.solver_enrol]
        exact FixedIntegerQueue.solver_eq_of_gist hqueue
    rw [hwants, hin, hsame]
    have hgist := ((FixedIntegerQueue.gist_afterAsking _).trans henrolled).trans
      (FixedIntegerQueue.gist_afterAsking _).symm
    -- That it was asked is counted by both.
    have hasked := (h.mapStore (fun s => { s with fixedInteger := _ })
      (fun s => { s with fixedInteger := _ }) (hstore hgist)).coarse
        (f := (·.modifyStatistics fun st =>
          { st with fixedIntegerRuns := st.fixedIntegerRuns + 1 }))
        (Session.coarse_of_clock r (fun _ => rfl) (fun _ => rfl) fun _ => by
          rcases r with ⟨_ | _, _, _⟩ <;> rfl)
    simp only [Bool.not_true, Bool.false_eq_true, if_false]
    cases (t'.store.fixedInteger.enrol t'.session.settings.primal.fixedInteger
        t'.problem c).outcome t'.problem c with
    | solution found => exact (hasked.note _ _).coarse (Session.coarse_offerPrimal r _ _)
    | noGood indices => exact (hasked.note _ _).coarseStore (CutStore.coarse_queueIntegerCut r _)
    | nothing => exact hasked.note _ _
    | wrongDimension => exact hasked.note _ _

/-- One no-good cut: the same row is answered in the same place. -/
theorem flushIntegerCut {acc acc' : Turn α × Nat} (hr : r.rows = true)
    (h : Alike r acc.1 acc'.1 ∧ acc.2 = acc'.2) (e : Event α) (indices : List Nat) :
    Alike r (Turn.flushIntegerCut e acc indices).1 (Turn.flushIntegerCut e acc' indices).1 ∧
      (Turn.flushIntegerCut e acc indices).2 = (Turn.flushIntegerCut e acc' indices).2 := by
  obtain ⟨t, n⟩ := acc
  obtain ⟨t', n'⟩ := acc'
  obtain ⟨h, rfl⟩ : Alike r t t' ∧ n = n' := h
  have hproblem : t.problem = t'.problem := h.problem
  simp only [Turn.flushIntegerCut, hproblem, submit, h.calls hr]
  -- An assignment that makes no row leaves a remark; otherwise the engine answers both alike.
  cases (noGoodRow t'.problem.dimension indices : Option (Row α)) with
  | none => exact ⟨h.note _ _, rfl⟩
  | some row =>
    dsimp only
    generalize e.onRow (List.countP Call.isRow t'.calls) row = answer
    have hrow := h.call (.row .noGood row answer.taken)
    cases answer with
    | error err => exact ⟨hrow.fail _ _ _ _, rfl⟩
    | ok _ => exact ⟨hrow, rfl⟩

/-- Looked at, the queues are the same, and so are the rows made from them. -/
theorem flushIntegerCuts_of_cuts (h : Alike r t t') (hcuts : r.cuts = true) (hr : r.rows = true)
    (e : Event α) : Alike r (t.flushIntegerCuts e) (t'.flushIntegerCuts e) := by
  have hqueue : t.store.integerCuts = t'.store.integerCuts := by
    have hstore := congrArg CutStore.integerCuts h.store
    simp only [CutStore.gist, hcuts, cond_true] at hstore
    exact hstore
  -- Both queues are emptied before the first row is handed over.
  have hemptied := h.mapStore (fun s => { s with integerCuts := [] })
    (fun s => { s with integerCuts := [] }) (by
      have hstore := congrArg (fun st : CutStore α => { st with integerCuts := [] }) h.store
      simpa only [CutStore.gist, hcuts, cond_true] using hstore)
  obtain ⟨halike, hadded⟩ : Alike r _ _ ∧ _ = _ :=
    List.foldl_rel (l := t'.store.integerCuts) (f := Turn.flushIntegerCut e)
      (g := Turn.flushIntegerCut e)
      (r := fun acc acc' => Alike r acc.1 acc'.1 ∧ acc.2 = acc'.2)
      (a := (t.mapStore fun s => { s with integerCuts := [] }, 0))
      (b := (t'.mapStore fun s => { s with integerCuts := [] }, 0)) ⟨hemptied, rfl⟩
      fun indices _ _ _ hacc => flushIntegerCut hr hacc e indices
  simp only [Turn.flushIntegerCuts, hqueue, hadded]
  split
  · exact h
  -- The number of those added is looked at here, and it is the same.
  · refine (halike.coarse ?_).note _ _
    refine Session.coarse_of_clock r (fun _ => rfl) (fun _ => rfl) fun _ => ?_
    simp only [Session.gist, Session.modifyStatistics, hcuts, cond_true]

end Alike

/-- Without a look at no-good cuts, nothing happens when they are handed over. -/
theorem gist_flushIntegerCuts [Scalar α] {r : Regard} (hcuts : r.cuts = false)
    (hrows : r.rows = false) (t : Turn α) (e : Event α) :
    (t.flushIntegerCuts e).gist r = t.gist r := by
  -- A single cut changes nothing that is looked at: its row is a no-good row.
  have hcut : ∀ (acc : Turn α × Nat) (indices : List Nat),
      (flushIntegerCut e acc indices).1.gist r = acc.1.gist r := by
    intro acc indices
    simp only [flushIntegerCut, submit]
    split
    · rfl
    next row _ =>
      generalize e.onRow (List.countP Call.isRow acc.1.calls) row = answer
      have hrow : (acc.1.call (.row .noGood row answer.taken)).gist r = acc.1.gist r := by
        simp only [gist, call, List.filter_append, List.filter_cons, List.filter_nil,
          Call.isNoGood, hrows, Bool.not_true, Bool.or_false, Bool.false_eq_true, if_false,
          List.append_nil]
      cases answer with
      | error err => exact hrow
      | ok _ => exact hrow
  -- Neither is the queue looked at, nor the number of those added.
  have hemptied : (t.mapStore fun s => { s with integerCuts := [] }).gist r = t.gist r := by
    simp only [gist, mapStore, Callback.gist, CutStore.gist, hcuts, cond_false]
  -- Along the fold the gist stays what it was at the start.
  have hflushed : (t.store.integerCuts.foldl (flushIntegerCut e)
      (t.mapStore fun s => { s with integerCuts := [] }, 0)).1.gist r = t.gist r :=
    List.foldlRecOn _ _ (motive := fun acc => (Prod.fst acc).gist r = t.gist r) hemptied
      fun acc hacc indices _ => (hcut acc indices).trans hacc
  have hcounted : ∀ (u : Turn α) (n : Nat) (remarks : List (Diagnostic α)),
      ((u.mapSession (·.modifyStatistics fun c =>
        { c with integerCuts := c.integerCuts + n })).note remarks).gist r = u.gist r := by
    intro u n remarks
    rcases r with ⟨_ | _, _, _⟩
    · rfl
    · exact absurd hcuts.symm Bool.false_ne_true
  simp only [flushIntegerCuts]
  split
  · rfl
  · exact (hcounted _ _ _).trans hflushed

namespace Alike

variable {r : Regard} {t t' : Turn α}

/-- Fewer calls are looked at. -/
theorem loosen (h : Alike r t t') (hr : r.rows = true) (rows : Bool) :
    Alike { r with rows } t t' := by
  have hcallback : t.callback.gist r = t'.callback.gist r := congrArg Turn.callback h
  change (⟨t.callback.gist r, _⟩ : Turn α) = ⟨t'.callback.gist r, _⟩
  rw [hcallback, h.calls hr]

variable [Scalar α]

/-- No-good cuts are handed over alike, whether they are looked at or not. -/
theorem flushIntegerCuts (h : Alike r t t') (hr : r.rows = r.cuts) (e : Event α) :
    Alike r (t.flushIntegerCuts e) (t'.flushIntegerCuts e) := by
  cases hcuts : r.cuts with
  | true => exact h.flushIntegerCuts_of_cuts hcuts (hr.trans hcuts) e
  | false =>
    rw [Alike, gist_flushIntegerCuts hcuts (hr.trans hcuts),
      gist_flushIntegerCuts hcuts (hr.trans hcuts)]
    exact h

omit [Scalar α] in
/-- The incumbent is handed over with the same values, and the engine answers both alike. -/
theorem submitIncumbent (h : Alike r t t') (e : Event α) (primal : α) :
    Alike r (t.submitIncumbent e primal) (t'.submitIncumbent e primal) := by
  have hbounds := h.bounds
  have hproblem : t.problem = t'.problem := h.problem
  simp only [Turn.submitIncumbent, hbounds, hproblem]
  split
  · exact h
  next s _ =>
    -- The epigraph variable, if there is one, is set to the primal bound.
    generalize (t'.problem.auxiliary.elim s.candidate.point fun aux =>
      s.candidate.point.setCoord aux primal) = values
    have hcalled := h.call (.solution values (e.onSolution values).taken)
    cases hanswer : e.onSolution values with
    | error err =>
      rw [hanswer] at hcalled
      exact hcalled.fail _ _ _ _
    | ok _ =>
      rw [hanswer] at hcalled
      exact hcalled

/-- The same cutoff is handed over. -/
theorem submitCutoff (h : Alike r t t') (e : Event α) (primal : α) :
    Alike r (t.submitCutoff e primal) (t'.submitCutoff e primal) := by
  have hsettings := h.settings
  have hproblem : t.problem = t'.problem := h.problem
  simp only [Turn.submitCutoff, hsettings, hproblem]
  generalize t'.problem.sense.worsen primal t'.session.settings.dual.cutoffTolerance = cutoff
  have hcalled := h.call (.cutoff cutoff (e.onCutoff cutoff).taken)
  cases hanswer : e.onCutoff cutoff with
  | error err =>
    rw [hanswer] at hcalled
    exact hcalled.fail _ _ _ _
  | ok _ =>
    rw [hanswer] at hcalled
    exact hcalled.note _ _

/-- The primal bound is handed over by both, or by neither because it was before. -/
theorem injectIncumbent (h : Alike r t t') (e : Event α) :
    Alike r (t.injectIncumbent e) (t'.injectIncumbent e) := by
  have hbounds := h.bounds
  have hproblem : t.problem = t'.problem := h.problem
  have hinjected : t.callback.injected = t'.callback.injected :=
    congrArg (fun u => u.callback.injected) h
  simp only [Turn.injectIncumbent, hbounds, hproblem, hinjected]
  split
  · exact h
  · exact ((h.submitIncumbent e _).mapCallback
      (f := fun c => { c with injected := some t'.session.bounds.primalBound })
      fun _ => rfl).submitCutoff e _

end Alike

/-! ### A whole event -/

end Turn

/-- Whether and how the local solver is asked can be told from what is looked at. -/
structure Callback.Steady [Scalar α] (r : Regard) (c : Callback α) : Prop where
  /-- The local solver answers from the candidate alone. -/
  solver : c.store.fixedInteger.Steady
  /-- Its memory is looked at, or the rule does not read it. -/
  rule : r.memory = true ∨ c.session.settings.primal.fixedInteger = .never ∨
    c.session.settings.primal.fixedInteger = .always

namespace Callback

variable [Scalar α] {r : Regard}

/-- A local solver that can be foretold stays so, since it stays. -/
theorem Steady.lasts {c c' : Callback α} (hc : c.Steady r) (h : c.Lasts c') : c'.Steady r where
  solver := by
    unfold FixedIntegerQueue.Steady
    rw [h.trials.solver]
    exact hc.solver
  rule := by
    rw [h.settings]
    exact hc.rule

end Callback

namespace Turn.Alike

variable [Scalar α] {r : Regard} {t t' : Turn α}

/-- Up to the choice of the hyperplanes. -/
theorem requested (h : Alike r t t') (c : Candidate α) :
    Alike r (t.requested c) (t'.requested c) :=
  ((h.enter .generatingCuts).refineInterior.requestCuts c true).requestEpigraph c

/-- Up to the search along the line. -/
theorem searched (h : Alike r t t') (hr : r.rows = true) (e : Event α) (objective : α)
    (c : Candidate α) : Alike r (t.searched e objective c) (t'.searched e objective c) := by
  obtain ⟨hflushed, hadded⟩ := (h.requested c).flushHyperplanes hr e
  simp only [Turn.searched, hadded]
  split
  · exact ((hflushed.note _ _).recordIteration objective c).searchPrimal c
  · exact (hflushed.recordIteration objective c).searchPrimal c

/-- From here on the rows handed over are looked at only if no-good cuts are. -/
theorem settled (h : Alike r t t') (hr : r.rows = true) (hsteady : t.callback.Steady r)
    (e : Event α) (c : Candidate α) :
    Alike { r with rows := r.cuts } (t.settled e c) (t'.settled e c) := by
  have hfixed := (h.fixIntegers hsteady.solver hsteady.rule c).loosen hr r.cuts
  have hsettings := hfixed.settings
  simp only [Turn.settled, hsettings]
  split
  · exact hfixed.flushIntegerCuts rfl e
  · exact hfixed

/-- Up to the check at the end of the iteration. -/
theorem closed (h : Alike r t t') (hr : r.rows = true) (hsteady : t.callback.Steady r)
    (e : Event α) (objective : α) (c : Candidate α) :
    Alike { r with rows := r.cuts } (t.closed e objective c) (t'.closed e objective c) := by
  have hsettled := (h.searched hr e objective c).settled hr
    (hsteady.lasts (lasts_searched t e objective c)) e c
  have hadded := ((h.requested c).flushHyperplanes hr e).2
  simp only [Turn.closed, hadded]
  exact (hsettled.closeIteration c _).checkTermination

/-- The incumbent is handed over if that check was no request to stop, which both know. -/
theorem cutOff (h : Alike r t t') (hr : r.rows = true) (hsteady : t.callback.Steady r)
    (e : Event α) (objective : α) (c : Candidate α) :
    Alike { r with rows := r.cuts } (t.cutOff e objective c) (t'.cutOff e objective c) := by
  have hclosed := h.closed hr hsteady e objective c
  have haborted : (t.closed e objective c).callback.aborted =
      (t'.closed e objective c).callback.aborted :=
    congrArg (fun u => u.callback.aborted) hclosed
  rw [cutOff_eq, cutOff_eq, haborted]
  split
  · exact hclosed
  · exact hclosed.injectIncumbent e

/-- A solution is accepted by both, or cut off by both. -/
theorem considerSolution (h : Alike r t t') (hr : r.rows = true) (hsteady : t.callback.Steady r)
    (e : Event α) (objective : α) (values : Point α) :
    Alike { r with rows := r.cuts } (t.considerSolution e objective values)
      (t'.considerSolution e objective values) := by
  have hcandidate : t.ensureIteration.problem.candidate values t.ensureIteration.iteration =
      t'.ensureIteration.problem.candidate values t'.ensureIteration.iteration :=
    congrArg (fun u => u.callback.session.problem.candidate values
      u.callback.session.iterations.lastNumber) h.ensureIteration
  simp only [Turn.considerSolution, hcandidate]
  generalize t'.ensureIteration.problem.candidate values t'.ensureIteration.iteration = c
  have hchecked := (h.ensureIteration.offerSolution objective c).checkTermination
  -- The local solver can still be foretold by the time it may be asked.
  have hlasts := ((lasts_ensureIteration t).trans (lasts_offerSolution _ objective c)).trans
    (lasts_checkTermination _)
  have haborted := congrArg (fun u => u.callback.aborted) hchecked
  have haccepts := congrArg (fun u => u.callback.session.accepts c) hchecked
  generalize (t.ensureIteration.offerSolution objective c).checkTermination = u
    at hchecked hlasts haborted haccepts ⊢
  generalize (t'.ensureIteration.offerSolution objective c).checkTermination = u'
    at hchecked haborted haccepts ⊢
  rw [show u.callback.aborted = u'.callback.aborted from haborted,
    show u.session.accepts c = u'.session.accepts c from haccepts]
  split
  · exact hchecked.loosen hr r.cuts
  · split
    · exact (hchecked.note _ _).loosen hr r.cuts
    · exact hchecked.cutOff hr (hsteady.lasts hlasts) e objective c

/-- An event without an objective value or without values is skipped. -/
theorem integerSolution (h : Alike r t t') (hr : r.rows = true) (hsteady : t.callback.Steady r)
    (e : Event α) :
    Alike { r with rows := r.cuts } (t.integerSolution e) (t'.integerSolution e) := by
  -- Skipped or not, the rows are looked at only if no-good cuts are from here on.
  have hskipped : ∀ remarks remarks' : List (Diagnostic α),
      Alike { r with rows := r.cuts } (t.note remarks) (t'.note remarks') :=
    fun remarks remarks' => (h.note remarks remarks').loosen hr r.cuts
  have hproblem : t.problem = t'.problem := h.problem
  simp only [Turn.integerSolution, hproblem]
  -- The objective value is read first, and the values only after it.
  cases e.objective with
  | error err => exact hskipped _ _
  | ok objective =>
    cases e.values with
    | error err => exact hskipped _ _
    | ok values =>
      dsimp only
      split
      · exact h.considerSolution hr hsteady e objective values
      · exact hskipped _ _

/-- What is done goes by the kind of the event, which is the same for both. -/
theorem dispatch (h : Alike r t t') (hr : r.rows = true) (hsteady : t.callback.Steady r)
    (e : Event α) : Alike { r with rows := r.cuts } (t.dispatch e) (t'.dispatch e) := by
  unfold Turn.dispatch
  split
  · exact (h.recordProgress e).loosen hr r.cuts
  · exact (h.relaxationNode hr e).loosen hr r.cuts
  · exact h.integerSolution hr hsteady e
  · exact h.loosen hr r.cuts

/-- The part between the two checks, and the checks. -/
theorem active (h : Alike r t t') (hr : r.rows = true) (hsteady : t.callback.Steady r)
    (e : Event α) : Alike { r with rows := r.cuts } (t.active e) (t'.active e) := by
  -- The first check aborts both or neither.
  have hopened := (h.enter .evaluatingNode).checkTermination
  have hlasts := (lasts_enter t .evaluatingNode).trans (lasts_checkTermination _)
  have haborted := congrArg (fun u => u.callback.aborted) hopened
  simp only [Turn.active]
  generalize (t.enter .evaluatingNode).checkTermination = u at hopened hlasts haborted ⊢
  generalize (t'.enter .evaluatingNode).checkTermination = u' at hopened haborted ⊢
  rw [show u.callback.aborted = u'.callback.aborted from haborted]
  split
  · exact (hopened.enter .idle).loosen hr r.cuts
  · have hdispatched := (hopened.updateDualBound e).dispatch hr
      (hsteady.lasts (hlasts.trans (lasts_updateDualBound u e))) e
    -- So does what is done for the event, and the second check is made by both or by neither.
    have hstopped := congrArg (fun u => u.callback.aborted) hdispatched
    generalize (u.updateDualBound e).dispatch e = v at hdispatched hstopped ⊢
    generalize (u'.updateDualBound e).dispatch e = v' at hdispatched hstopped ⊢
    rw [show v.callback.aborted = v'.callback.aborted from hstopped]
    split
    · exact hdispatched.enter .idle
    · exact hdispatched.checkTermination.enter .idle

end Turn.Alike

/-- Callbacks with the same gist handle an event with the same gist. Within one event every
    row counts; afterwards no-good rows count only if no-good cuts are looked at. -/
theorem Callback.gist_handle [Scalar α] {r : Regard} {c c' : Callback α}
    (h : c.gist r = c'.gist r) (hsteady : c.Steady r) (e : Event α) :
    (c.handle e).gist { r with rows := r.cuts } = (c'.handle e).gist { r with rows := r.cuts } := by
  have hturn : ∀ {b b' : Callback α}, b.gist r = b'.gist r → ∀ (rows : Bool) (calls),
      (⟨b, calls⟩ : Turn α).gist { r with rows } = (⟨b', calls⟩ : Turn α).gist { r with rows } := by
    intro b b' hb rows calls
    exact congrArg (fun d => (⟨d, calls.filter fun x => rows || !x.isNoGood⟩ : Turn α)) hb
  have hcounted : c.counted.gist r = c'.counted.gist r := by
    have hsame := congrArg Callback.counted h
    rcases r with ⟨_ | _, _, _⟩ <;> exact hsame
  have haborted : c.aborted = c'.aborted := congrArg (fun d => d.aborted) h
  simp only [handle, haborted]
  -- An aborted callback does nothing, and an event of no interest is only counted.
  split
  · exact hturn h _ _
  · split
    · exact hturn hcounted _ _
    · exact Turn.Alike.active (r := { r with rows := true }) (hturn hcounted true []) rfl
        ⟨hsteady.solver, hsteady.rule⟩ e

end OuterApprox
