import OuterApprox.Proofs.ClosedIterations
import OuterApprox.Proofs.Incumbent
import Mathlib.Algebra.GroupWithZero.Nat

/-!
# Sound iteration ledgers

What the iteration ledger of a solve always looks like. Numbers, flags, the count of
closed iterations and running totals are all kept apart, by operations that change
whichever iteration is last, so a ledger is free to contradict itself. It does not:
iterations are numbered from one without a gap, only the last one may be open, the
count is that of the closed ones, and a total is the sum of all that was added up to
there.

A sound ledger is one that is empty, or a list of closed iterations in good order
with one more at its end, which is in order too. Every operation works on that last
one, so it is enough to see what it does there: counting keeps it in order, opening
moves it to the others, which is why it has to be closed by then, and closing adds
one to the count.

That the count stays within the limit is a matter of the events. An iteration is
closed at the end of an event that found room for it at the beginning.

## Main definitions

* `IterationLedger.Sound`: Numbers, flags, count and totals agree.
* `IterationLedger.Settled`, `IterationLedger.Live`: Closed iterations in order, and
  one more at the end.

## Theorems

* `IterationLedger.sound_append_iff`: A sound ledger that is not empty.
* `IterationLedger.Sound.opened`, `IterationLedger.Sound.modifyLast`,
  `IterationLedger.Sound.closeLast`: The operations.
* `Session.accounted_invariant`: Events and remedies keep it sound and within the
  limit.
* `Solver.iterations_sound`: It is, in every state of a solve.
-/

namespace OuterApprox

variable {α σ : Type}

namespace IterationLedger

def addedIn (iterations : List (Iteration α)) : Nat := (iterations.map (·.added)).sum

theorem addedIn_append (first second : List (Iteration α)) :
    addedIn (first ++ second) = addedIn first + addedIn second := by
  simp only [addedIn, List.map_append, List.sum_append]

theorem addedIn_singleton (it : Iteration α) : addedIn [it] = it.added := by
  simp only [addedIn, List.map_cons, List.map_nil, List.sum_cons, List.sum_nil, Nat.add_zero]

/-- A ledger that does not contradict itself: iterations are numbered from one, only the last
    one may be open, the closed ones are counted, a total is the sum of what was added up to
    there, and what was added at node relaxations is part of what was added. -/
structure Sound (l : IterationLedger α) : Prop where
  /-- Iterations are numbered from one. -/
  numbered : ∀ k it, l.iterations[k]? = some it → it.number = k + 1
  /-- All but the last one are closed. -/
  closed : ∀ k it, l.iterations[k]? = some it → k + 1 < l.size → it.closed = true
  /-- The closed ones are counted. -/
  solved : l.solved = l.iterations.countP (·.closed)
  /-- A total is the sum of what was added up to there. -/
  total : ∀ k it, l.iterations[k]? = some it →
    it.total = addedIn (l.iterations.take (k + 1))
  /-- What was added at node relaxations is part of what was added. -/
  relaxed : ∀ it ∈ l.iterations, it.relaxed ≤ it.added

/-- Closed iterations in good order. -/
structure Settled (its : List (Iteration α)) : Prop where
  /-- They are numbered from one. -/
  numbered : ∀ k it, its[k]? = some it → it.number = k + 1
  /-- They are closed. -/
  closed : ∀ it ∈ its, it.closed = true
  /-- A total is the sum of what was added up to there. -/
  total : ∀ k it, its[k]? = some it → it.total = addedIn (its.take (k + 1))
  /-- What was added at node relaxations is part of what was added. -/
  relaxed : ∀ it ∈ its, it.relaxed ≤ it.added

/-- An iteration that is in good order after others. -/
structure Live (init : List (Iteration α)) (it : Iteration α) : Prop where
  /-- Its number is the next one. -/
  numbered : it.number = init.length + 1
  /-- Its total goes on from theirs. -/
  total : it.total = addedIn init + it.added
  /-- What was added at node relaxations is part of what was added. -/
  relaxed : it.relaxed ≤ it.added

theorem sound_empty : (IterationLedger.empty : IterationLedger α).Sound where
  numbered _ _ h := nomatch h
  closed _ _ h := nomatch h
  solved := rfl
  total _ _ h := nomatch h
  relaxed _ h := nomatch h

theorem settled_nil : Settled ([] : List (Iteration α)) where
  numbered _ _ h := nomatch h
  closed _ h := nomatch h
  total _ _ h := nomatch h
  relaxed _ h := nomatch h

/-- Totals up to a place are not changed by what comes after it. -/
theorem total_append_iff (init : List (Iteration α)) (it : Iteration α) :
    (∀ k it', (init ++ [it])[k]? = some it' →
        it'.total = addedIn ((init ++ [it]).take (k + 1))) ↔
      (∀ k it', init[k]? = some it' → it'.total = addedIn (init.take (k + 1))) ∧
        it.total = addedIn init + it.added := by
  have hall : (init ++ [it]).take (init.length + 1) = init ++ [it] :=
    List.take_of_length_le (Nat.le_of_eq List.length_append)
  rw [forall_getElem?_concat, hall, addedIn_append, addedIn_singleton]
  refine and_congr_left fun _ => ?_
  refine forall₃_congr fun k it' hit => ?_
  rw [List.take_append_of_le_length (List.getElem?_eq_some_iff.1 hit).1]

theorem Settled.append {init : List (Iteration α)} {it : Iteration α} (h : Settled init)
    (hlive : Live init it) (hclosed : it.closed = true) : Settled (init ++ [it]) where
  numbered := (forall_getElem?_concat init it).2 ⟨h.numbered, hlive.numbered⟩
  closed := List.forall_mem_append.2 ⟨h.closed, List.forall_mem_singleton.2 hclosed⟩
  total := (total_append_iff init it).2 ⟨h.total, hlive.total⟩
  relaxed := List.forall_mem_append.2 ⟨h.relaxed, List.forall_mem_singleton.2 hlive.relaxed⟩

/-- A ledger that is not empty is sound if its last iteration is in order after closed ones
    that are. -/
theorem sound_append_iff (init : List (Iteration α)) (it : Iteration α) (n : Nat) :
    (⟨init ++ [it], n⟩ : IterationLedger α).Sound ↔
      Settled init ∧ Live init it ∧ n = init.length + it.closed.toNat := by
  -- All but the last one are closed, so the count is theirs and perhaps one more.
  have hcount : ∀ (hall : ∀ it ∈ init, it.closed = true),
      (init ++ [it]).countP (·.closed) = init.length + it.closed.toNat := by
    intro hall
    rw [List.countP_append, List.countP_eq_length.2 hall]
    cases hclosed : it.closed <;> simp [hclosed]
  constructor
  · intro h
    have hnumbered := (forall_getElem?_concat init it).1 h.numbered
    have htotal := (total_append_iff init it).1 h.total
    have hrelaxed := List.forall_mem_append.1 h.relaxed
    have hclosed : ∀ it ∈ init, it.closed = true := by
      intro it' hmem
      obtain ⟨k, hk⟩ := List.mem_iff_getElem?.1 hmem
      have hlt := (List.getElem?_eq_some_iff.1 hk).1
      -- It is not the last one, since that comes after all of these.
      refine h.closed k it' ?_ ?_
      · rw [List.getElem?_append_left hlt]
        exact hk
      · rw [size_append]
        exact Nat.succ_lt_succ hlt
    exact ⟨⟨hnumbered.1, hclosed, htotal.1, hrelaxed.1⟩,
      ⟨hnumbered.2, htotal.2, hrelaxed.2 it (List.mem_singleton_self it)⟩,
      h.solved.trans (hcount hclosed)⟩
  · rintro ⟨hsettled, hlive, hsolved⟩
    refine ⟨(forall_getElem?_concat init it).2 ⟨hsettled.numbered, hlive.numbered⟩, ?_,
      hsolved.trans (hcount hsettled.closed).symm,
      (total_append_iff init it).2 ⟨hsettled.total, hlive.total⟩,
      List.forall_mem_append.2 ⟨hsettled.relaxed, List.forall_mem_singleton.2 hlive.relaxed⟩⟩
    refine (forall_getElem?_concat init it).2 ⟨fun k it' hit _ => ?_, fun hlt => ?_⟩
    · exact hsettled.closed it' (List.mem_of_getElem? hit)
    · rw [size_append] at hlt
      exact absurd hlt (Nat.lt_irrefl _)

/-- Counting in an iteration keeps it in order. -/
theorem Live.counted {init : List (Iteration α)} {it it' : Iteration α} {count relaxed : Nat}
    (h : Live init it) (hcounted : it.Counted count relaxed it') (hle : relaxed ≤ count) :
    Live init it' where
  numbered := hcounted.number.trans h.numbered
  total := by rw [hcounted.total, hcounted.added, h.total, Nat.add_assoc]
  relaxed := by
    rw [hcounted.relaxed, hcounted.added]
    exact Nat.add_le_add h.relaxed hle

namespace Sound

variable {l : IterationLedger α}

theorem modifyLast {f : Iteration α → Iteration α} {count relaxed : Nat} (h : l.Sound)
    (hf : ∀ it : Iteration α, it.Counted count relaxed (f it)) (hle : relaxed ≤ count) :
    (l.modifyLast f).Sound := by
  obtain ⟨n, rfl⟩ | ⟨init, it, n, rfl⟩ := l.empty_or_append
  · exact h
  · rw [sound_append_iff] at h
    rw [modifyLast_append, sound_append_iff, (hf it).closed]
    exact ⟨h.1, h.2.1.counted (hf it) hle, h.2.2⟩

theorem closeLast (h : l.Sound) : l.closeLast.Sound := by
  obtain ⟨n, rfl⟩ | ⟨init, it, n, rfl⟩ := l.empty_or_append
  · exact h
  · obtain ⟨hsettled, hlive, hsolved⟩ := (sound_append_iff init it n).1 h
    rw [closeLast_append, sound_append_iff]
    refine ⟨hsettled, ⟨hlive.numbered, hlive.total, hlive.relaxed⟩, ?_⟩
    rw [hsolved]
    cases it.closed <;> rfl

/-- All hyperplanes are in the last total. -/
theorem total_eq (h : l.Sound) : l.total = addedIn l.iterations := by
  obtain ⟨n, rfl⟩ | ⟨init, it, n, rfl⟩ := l.empty_or_append
  · rfl
  · rw [total_append, addedIn_append, addedIn_singleton]
    exact ((sound_append_iff init it n).1 h).2.1.total

/-- A ledger without an open iteration is settled. -/
theorem settled (h : l.Sound) (hnew : l.needsNew = true) :
    Settled l.iterations ∧ l.solved = l.size := by
  obtain ⟨n, rfl⟩ | ⟨init, it, n, rfl⟩ := l.empty_or_append
  · exact ⟨settled_nil, h.solved⟩
  · obtain ⟨hsettled, hlive, hsolved⟩ := (sound_append_iff init it n).1 h
    rw [needsNew_append] at hnew
    refine ⟨hsettled.append hlive hnew, ?_⟩
    rw [hsolved, hnew, size_append]
    rfl

variable [Scalar α]

/-- So is one after an iteration is opened, if none was open. -/
theorem opened (h : l.Sound) (hnew : l.needsNew = true) (milp : Bool) : (l.opened milp).Sound := by
  obtain ⟨hsettled, hsolved⟩ := h.settled hnew
  refine (sound_append_iff _ _ _).2 ⟨hsettled, ⟨rfl, ?_, Nat.le_refl 0⟩, hsolved⟩
  exact h.total_eq

theorem ensured (h : l.Sound) : l.ensured.Sound := by
  unfold IterationLedger.ensured
  split
  next hnew => exact h.opened hnew true
  · exact h

end Sound

/-! ## The count of closed iterations -/

theorem solved_modifyLast (l : IterationLedger α) (f : Iteration α → Iteration α) :
    (l.modifyLast f).solved = l.solved := by
  unfold modifyLast
  split <;> rfl

theorem solved_ensured [Scalar α] (l : IterationLedger α) : l.ensured.solved = l.solved := by
  unfold ensured
  split <;> rfl

theorem solved_closeLast_le (l : IterationLedger α) : l.closeLast.solved ≤ l.solved + 1 := by
  unfold closeLast
  split
  · exact Nat.le_refl _
  · exact Nat.le_succ _

end IterationLedger

variable [Scalar α]

/-- A session under given settings with a sound iteration ledger that is within the limit. -/
structure Session.Accounted (given : Settings α) (s : Session α) : Prop where
  /-- The settings are the ones given. -/
  settings : s.settings = given
  /-- The iterations do not contradict each other. -/
  sound : s.iterations.Sound
  /-- No more of them are closed than the limit allows. -/
  within : s.iterations.solved ≤ given.termination.iterationLimit

/-- Every event keeps the ledger sound and within the limit. -/
theorem Session.Accounted.handle {given : Settings α} (c : Callback α) (e : Event α)
    (h : c.session.Accounted given) : (c.handle e).session.Accounted given := by
  have hsettings : (c.handle e).session.settings = given :=
    (c.steps_handle e).settings.trans h.settings
  cases c.books_handle e with
  | kept hkept =>
      refine ⟨hsettings, ?_, ?_⟩ <;> rw [hkept.iterations]
      · exact h.sound
      · exact h.within
  -- Counting opens and closes nothing.
  | relaxed n _ hiterations =>
      refine ⟨hsettings, ?_, ?_⟩ <;> rw [hiterations]
      · exact h.sound.modifyLast (Iteration.counted_relaxedBy n) (Nat.le_refl n)
      · rw [IterationLedger.solved_modifyLast]
        exact h.within
  | opened _ hiterations =>
      refine ⟨hsettings, ?_, ?_⟩ <;> rw [hiterations]
      · exact h.sound.ensured
      · rw [IterationLedger.solved_ensured]
        exact h.within
  | closed n change hcounted _ hroom hiterations =>
      refine ⟨hsettings, ?_, ?_⟩ <;> rw [hiterations]
      · exact (h.sound.ensured.modifyLast hcounted (Nat.zero_le n)).closeLast
      · -- One more is closed, and there was room for it.
        refine Nat.le_trans (IterationLedger.solved_closeLast_le _) ?_
        rw [IterationLedger.solved_modifyLast, IterationLedger.solved_ensured, ← h.settings]
        exact hroom

theorem Session.accounted_invariant (given : Settings α) :
    Callback.Invariant (fun _ => True) fun s _ => s.Accounted given where
  event c e _ h := h.handle c e
  statistics _ _ _ h := ⟨h.settings, h.sound, h.within⟩
  note _ _ _ h := ⟨h.settings, h.sound, h.within⟩
  dual _ _ _ h := ⟨h.settings, h.sound, h.within⟩
  repaired s _ h :=
    { settings := h.settings
      sound := h.sound.modifyLast (fun _ => ⟨rfl, rfl, rfl, rfl, rfl⟩) (Nat.le_refl 0)
      within := by
        rw [modifyIteration, IterationLedger.solved_modifyLast]
        exact h.within }

namespace Solver

/-- A solve starts with one open iteration, in which is counted what was added before. -/
theorem accounted_freshSession (s : Solver α σ) :
    s.freshSession.Accounted s.master.session.settings where
  settings := rfl
  sound := (IterationLedger.sound_empty.opened rfl true).modifyLast
    (Iteration.counted_addHyperplanes s.initialHyperplanes) (Nat.zero_le _)
  within := Nat.zero_le _

/-- In every state of a solve, whatever engine there is, iterations are numbered from one,
    all but the last one are closed, the closed ones are counted and no more than the limit
    allows, totals are sums, and what was added at node relaxations is part of what was
    added. -/
theorem iterations_sound (E : Engine α σ) (s : Solver α σ) :
    ∀ t ∈ s.sessions E, t.iterations.Sound ∧
      t.iterations.solved ≤ s.master.session.settings.termination.iterationLimit := by
  intro t ht
  obtain ⟨_, h⟩ := (Session.accounted_invariant _).sessions s (fun _ _ => trivial)
    s.accounted_freshSession t ht
  exact ⟨h.sound, h.within⟩

/-- The ledger of a solve in which a node relaxation comes after its iteration is closed. -/
theorem iterations_sound_late :
    let s : Solver Float (Tabular Float) := ⟨LateRelaxation.master, 0, 0⟩
    let t := (s.solve LateRelaxation.engine).1.master.session
    LateRelaxation.counts t.iterations = [(1, true, 2, 2, 1)] ∧ t.iterations.Sound ∧
      t.iterations.solved ≤ 200000 := by
  intro s t
  have hvalid : s.master.session.settings.validate = .ok () :=
    (Settings.validate_eq_ok_iff _).2 (List.all_eq_true.1 (by decide +kernel))
  exact ⟨by decide +kernel,
    iterations_sound LateRelaxation.engine s t (s.final_mem_sessions _ hvalid)⟩

end Solver

end OuterApprox
