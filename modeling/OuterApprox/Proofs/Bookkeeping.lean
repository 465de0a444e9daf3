import OuterApprox.Proofs.StopRequest
import OuterApprox.Proofs.TurnSteps

/-!
# Bookkeeping

What an event does to the books: the iteration ledger, the cut ledger and the list
of hyperplanes that wait. Five functions write to them, and they stand in the
middle of many that do not, in two of the branches that an event can take. Here
the whole of it is said once, as the four things that can come of an event.

Nothing may come of it. A node relaxation may have hyperplanes made for it, which
are counted in the live iteration whether that is open or closed. An integer
solution has an open iteration from then on, the last one or a new one; and if it
is cut off, hyperplanes are counted in that iteration, the candidate is recorded
in it, and it is closed. The last thing needs a ledger with room for another
closed iteration, because the callback looks at the limit before anything else.

Hyperplanes are entered in the cut ledger under the number of the iteration that
counts them, one entry for each row that the engine took.

## Main definitions

* `IterationLedger.ensured`: A ledger whose live iteration is open.
* `Iteration.relaxedBy`, `Iteration.Counted`: Counting at a node relaxation, and
  counting in general.
* `Turn.Unbooked`: Steps that leave the books alone.
* `Turn.Entered`: Hyperplanes taken and entered under a number.
* `Turn.Books`: What an event does to the books.

## Theorems

* `forall_getElem?_concat`: What holds at every place of a list that has a last one.
* `IterationLedger.modifyLast_append`, `IterationLedger.closeLast_append`: Changing and
  closing the last iteration.
* `Turn.entered_flushHyperplanes`, `Turn.iterations_flushHyperplanes`: Handing over
  what waits.
* `Turn.books_cutOff`, `Turn.books_considerSolution`: An integer solution.
* `Callback.books_handle`: Every event does one of the four things.
-/

namespace OuterApprox

variable {α : Type}

/-- What holds at every place of a list with one more element at its end. -/
theorem forall_getElem?_concat {β : Type} {P : Nat → β → Prop} (init : List β) (x : β) :
    (∀ k y, (init ++ [x])[k]? = some y → P k y) ↔
      (∀ k y, init[k]? = some y → P k y) ∧ P init.length x := by
  constructor
  · refine fun h => ⟨fun k y hy => h k y ?_, h _ _ List.getElem?_concat_length⟩
    rw [List.getElem?_append_left (List.getElem?_eq_some_iff.1 hy).1]
    exact hy
  · rintro ⟨hinit, hlast⟩ k y hy
    -- A place is in the front part, at the end, or beyond it.
    rcases Nat.lt_trichotomy k init.length with hlt | rfl | hgt
    · rw [List.getElem?_append_left hlt] at hy
      exact hinit k y hy
    · rw [List.getElem?_concat_length] at hy
      rw [← Option.some.inj hy]
      exact hlast
    · rw [List.getElem?_eq_none (by rw [List.length_append]; exact hgt)] at hy
      exact nomatch hy

namespace Iteration

/-- Count hyperplanes that were added at a node relaxation. -/
def relaxedBy (count : Nat) (it : Iteration α) : Iteration α :=
  { it.addHyperplanes count with relaxed := it.relaxed + count }

/-- Hyperplanes are counted, some of them at a node relaxation. The number of the iteration
    stays, and so does whether it is closed. -/
structure Counted (count relaxed : Nat) (it it' : Iteration α) : Prop where
  /-- The number of the iteration stays. -/
  number : it'.number = it.number
  /-- It is closed now if it was before. -/
  closed : it'.closed = it.closed
  /-- Every hyperplane counts for the iteration. -/
  added : it'.added = it.added + count
  /-- Every hyperplane counts in the running total. -/
  total : it'.total = it.total + count
  /-- Those of a node relaxation are counted apart as well. -/
  relaxed : it'.relaxed = it.relaxed + relaxed

/-- Hyperplanes for an integer solution are counted, none of them as relaxed. -/
theorem counted_addHyperplanes (count : Nat) (it : Iteration α) :
    it.Counted count 0 (it.addHyperplanes count) := ⟨rfl, rfl, rfl, rfl, rfl⟩

/-- Hyperplanes for a node relaxation are counted twice. -/
theorem counted_relaxedBy (count : Nat) (it : Iteration α) :
    it.Counted count count (it.relaxedBy count) := ⟨rfl, rfl, rfl, rfl, rfl⟩

end Iteration

namespace IterationLedger

/-- A ledger is empty or has a last iteration. -/
theorem empty_or_append (l : IterationLedger α) :
    (∃ n, l = ⟨[], n⟩) ∨ ∃ init it n, l = ⟨init ++ [it], n⟩ := by
  obtain ⟨iterations, n⟩ := l
  rcases List.eq_nil_or_concat iterations with rfl | ⟨init, it, rfl⟩
  · exact .inl ⟨n, rfl⟩
  · exact .inr ⟨init, it, n, by rw [List.concat_eq_append]⟩

section Append

variable (init : List (Iteration α)) (it : Iteration α) (n : Nat)

/-- The last iteration of a ledger that ends with it, and what is read from it. -/
theorem last?_append : (⟨init ++ [it], n⟩ : IterationLedger α).last? = some it :=
  List.getLast?_concat

theorem size_append : (⟨init ++ [it], n⟩ : IterationLedger α).size = init.length + 1 :=
  List.length_append

theorem lastNumber_append : (⟨init ++ [it], n⟩ : IterationLedger α).lastNumber = it.number := by
  rw [lastNumber, last?_append, Option.elim_some]

theorem total_append : (⟨init ++ [it], n⟩ : IterationLedger α).total = it.total := by
  rw [total, last?_append, Option.elim_some]

theorem needsNew_append : (⟨init ++ [it], n⟩ : IterationLedger α).needsNew = it.closed := by
  rw [needsNew, last?_append, Option.all_some]

/-- A change of the last iteration leaves the others as they are. -/
theorem modifyLast_append (f : Iteration α → Iteration α) :
    (⟨init ++ [it], n⟩ : IterationLedger α).modifyLast f = ⟨init ++ [f it], n⟩ := by
  simp only [modifyLast, last?_append, List.dropLast_concat]

/-- Closing the last iteration, which is counted if it was open. -/
theorem closeLast_append : (⟨init ++ [it], n⟩ : IterationLedger α).closeLast =
    ⟨init ++ [{ it with closed := true }], n + (!it.closed).toNat⟩ := by
  have hlast : (⟨init ++ [it], n⟩ : IterationLedger α).lastIsOpen = !it.closed := by
    rw [lastIsOpen, last?_append, Option.any_some]
  rw [closeLast, hlast, modifyLast_append]
  -- Closing what is closed changes nothing and is not counted again.
  cases hclosed : it.closed with
  | true =>
      have hsame : { it with closed := true } = it := by rw [← hclosed]
      rw [hsame]
      rfl
  | false => rfl

end Append

/-- Two changes of the last iteration are one. -/
theorem modifyLast_modifyLast (l : IterationLedger α) (f g : Iteration α → Iteration α) :
    (l.modifyLast f).modifyLast g = l.modifyLast fun it => g (f it) := by
  obtain ⟨n, rfl⟩ | ⟨init, it, n, rfl⟩ := l.empty_or_append
  · rfl
  · simp only [modifyLast_append]

/-- No change of the last iteration is no change of the ledger. -/
theorem modifyLast_id (l : IterationLedger α) : l.modifyLast (fun it => it) = l := by
  obtain ⟨n, rfl⟩ | ⟨init, it, n, rfl⟩ := l.empty_or_append
  · rfl
  · simp only [modifyLast_append]

/-- The ledger with a live iteration that is open: the last one, or a new one. -/
def ensured [Scalar α] (l : IterationLedger α) : IterationLedger α :=
  if l.needsNew then l.opened true else l

/-- The live iteration of such a ledger is open, and it is new or was open before. -/
theorem ensured_cases [Scalar α] (l : IterationLedger α) :
    (l.needsNew = true ∧
      l.ensured = ⟨l.iterations ++ [Iteration.opened (l.size + 1) true l.total], l.solved⟩) ∨
    ∃ init it n, l = ⟨init ++ [it], n⟩ ∧ it.closed = false ∧ l.ensured = l := by
  by_cases hnew : l.needsNew = true
  · exact .inl ⟨hnew, by rw [ensured, if_pos hnew]; rfl⟩
  · right
    have hkept : l.ensured = l := by rw [ensured, if_neg hnew]
    obtain ⟨n, rfl⟩ | ⟨init, it, n, rfl⟩ := l.empty_or_append
    · exact absurd rfl hnew
    · rw [needsNew_append, Bool.not_eq_true] at hnew
      exact ⟨init, it, n, rfl, hnew, hkept⟩

end IterationLedger

namespace Turn

/-- A step that leaves the books alone, and the settings. -/
structure Unbooked (t t' : Turn α) : Prop where
  /-- The settings are the same. -/
  settings : t'.session.settings = t.session.settings
  /-- No iteration is opened, closed or counted in. -/
  iterations : t'.session.iterations = t.session.iterations
  /-- Nothing is entered in the cut ledger. -/
  ledger : t'.store.ledger = t.store.ledger
  /-- The hyperplanes that wait are the same. -/
  waiting : t'.store.waiting = t.store.waiting
  /-- The engine takes no lazy hyperplane. -/
  cuts : t'.cuts = t.cuts

/-- Nothing leaves the books alone. -/
theorem Unbooked.refl (t : Turn α) : Unbooked t t := ⟨rfl, rfl, rfl, rfl, rfl⟩

/-- So do two steps that do, one after the other. -/
theorem Unbooked.trans {a b c : Turn α} (h1 : Unbooked a b) (h2 : Unbooked b c) :
    Unbooked a c where
  settings := h2.settings.trans h1.settings
  iterations := h2.iterations.trans h1.iterations
  ledger := h2.ledger.trans h1.ledger
  waiting := h2.waiting.trans h1.waiting
  cuts := h2.cuts.trans h1.cuts

/-- A quiet step enters no hyperplane; it is left to see that it opens no iteration. -/
theorem Quiet.unbooked {t t' : Turn α} (h : Quiet t t')
    (hiterations : t'.session.iterations = t.session.iterations)
    (hwaiting : t'.store.waiting = t.store.waiting) : Unbooked t t' :=
  ⟨h.settings, hiterations, h.ledger, hwaiting, h.cuts⟩

/-- The engine took a number of hyperplanes, and they were entered in the cut ledger
    under the number of an iteration. -/
structure Entered (number count : Nat) (t t' : Turn α) : Prop where
  /-- So many entries are new, and each carries the number of the iteration. -/
  entries : ∃ new, t'.store.ledger.entries = t.store.ledger.entries ++ new ∧
    new.length = count ∧ ∀ entry ∈ new, entry.iteration = number
  /-- The engine took as many rows. -/
  cuts : t'.cuts.length = t.cuts.length + count

/-- Where nothing is entered, the number does not matter. -/
theorem Entered.of_eq {t t' : Turn α} (number : Nat) (hledger : t'.store.ledger = t.store.ledger)
    (hcuts : t'.cuts = t.cuts) : Entered number 0 t t' where
  entries := ⟨[], by rw [hledger, List.append_nil], rfl, fun _ h => absurd h List.not_mem_nil⟩
  cuts := by rw [hcuts, Nat.add_zero]

/-- A step that leaves the books alone enters nothing. -/
theorem Unbooked.entered {t t' : Turn α} (h : Unbooked t t') (number : Nat) :
    Entered number 0 t t' :=
  .of_eq number h.ledger h.cuts

/-- What two steps enter under the same number adds up. -/
theorem Entered.trans {a b c : Turn α} {number m n : Nat} (h1 : Entered number m a b)
    (h2 : Entered number n b c) : Entered number (m + n) a c where
  entries := by
    obtain ⟨new1, hentries1, hlength1, hnumber1⟩ := h1.entries
    obtain ⟨new2, hentries2, hlength2, hnumber2⟩ := h2.entries
    refine ⟨new1 ++ new2, ?_, ?_, ?_⟩
    · rw [hentries2, hentries1, List.append_assoc]
    · rw [List.length_append, hlength1, hlength2]
    · intro entry hmem
      rcases List.mem_append.1 hmem with hold | hnew
      · exact hnumber1 entry hold
      · exact hnumber2 entry hnew
  cuts := by rw [h2.cuts, h1.cuts, Nat.add_assoc]

/-- Entering hyperplanes, with the books left alone before and after. -/
theorem Entered.framed {a b c d : Turn α} {number n : Nat} (h1 : Entered number 0 a b)
    (h2 : Entered number n b c) (h3 : Entered number 0 c d) : Entered number n a d := by
  simpa only [Nat.zero_add, Nat.add_zero] using (h1.trans h2).trans h3

/-! ## What leaves the books alone -/

theorem unbooked_recordProgress (t : Turn α) (e : Event α) :
    Unbooked t (t.recordProgress e) := by
  unfold recordProgress
  cases e.explored <;> cases e.openNodes <;> exact ⟨rfl, rfl, rfl, rfl, rfl⟩

/-- Handing over the incumbent is quiet. -/
theorem unbooked_submitIncumbent (t : Turn α) (e : Event α) (primal : α) :
    Unbooked t (t.submitIncumbent e primal) := by
  refine (quiet_submitIncumbent t e primal).unbooked ?_ ?_ <;>
  · simp only [submitIncumbent]
    split
    · rfl
    · split <;> rfl

/-- Recording a candidate leaves the counts of the live iteration alone. -/
theorem iterations_recordIteration (t : Turn α) (objective : α) (c : Candidate α) :
    ∃ record : Iteration α → Iteration α, (∀ it : Iteration α, it.Counted 0 0 (record it)) ∧
      (t.recordIteration objective c).session.iterations =
        t.session.iterations.modifyLast record := by
  refine ⟨fun it => { it with
    status := .feasible
    objective
    explored := t.callback.explored - t.session.statistics.explored
    openNodes := t.callback.openNodes
    dualBound := t.session.bounds.dualBound
    primalBound := t.session.bounds.primalBound
    deviation := c.deviation
    candidates := it.candidates ++ [c] }, ?_, rfl⟩
  exact fun it => ⟨rfl, rfl, rfl, rfl, rfl⟩

variable [Scalar α]

/-- So is a check. -/
theorem unbooked_checkTermination (t : Turn α) : Unbooked t t.checkTermination := by
  refine (quiet_checkTermination t).unbooked ?_ ?_ <;>
  · simp only [checkTermination]
    split <;> rfl

/-- A bound of the engine goes to the bound ledger. -/
theorem unbooked_updateDualBound (t : Turn α) (e : Event α) :
    Unbooked t (t.updateDualBound e) := by
  simp only [updateDualBound]
  split
  · exact ⟨rfl, rfl, rfl, rfl, rfl⟩
  · split <;> exact ⟨rfl, rfl, rfl, rfl, rfl⟩

/-- So does the objective value of a solution. -/
theorem unbooked_offerSolution (t : Turn α) (objective : α) (c : Candidate α) :
    Unbooked t (t.offerSolution objective c) := by
  unfold offerSolution
  split <;> exact ⟨rfl, rfl, rfl, rfl, rfl⟩

/-- The interior point is none of the books. -/
theorem unbooked_refined (t : Turn α) : Unbooked t t.refined := by
  simp only [refined, refineInterior]
  split <;> exact ⟨rfl, rfl, rfl, rfl, rfl⟩

/-- A point found on a line is offered to the bounds. -/
theorem unbooked_searchPrimal (t : Turn α) (c : Candidate α) : Unbooked t (t.searchPrimal c) := by
  simp only [searchPrimal]
  split
  · exact .refl t
  · split
    · exact .refl t
    · split <;> exact ⟨rfl, rfl, rfl, rfl, rfl⟩

/-- The local solver may queue a no-good cut, which is no hyperplane. -/
theorem unbooked_fixIntegers (t : Turn α) (c : Candidate α) : Unbooked t (t.fixIntegers c) := by
  simp only [fixIntegers]
  split
  · exact ⟨rfl, rfl, rfl, rfl, rfl⟩
  · split <;> exact ⟨rfl, rfl, rfl, rfl, rfl⟩

/-- Its row is not entered in the cut ledger. -/
theorem unbooked_flushIntegerCut (e : Event α) (acc : Turn α × Nat) (indices : List Nat) :
    Unbooked acc.1 (flushIntegerCut e acc indices).1 := by
  refine (quiet_flushIntegerCut e acc indices).unbooked ?_ ?_ <;>
  · simp only [flushIntegerCut, submit]
    split
    · rfl
    · split <;> rename_i heq <;> rw [Prod.mk.injEq] at heq <;> rw [← heq.1] <;> rfl

/-- All no-good cuts are handed over without a word in the books. -/
theorem unbooked_flushIntegerCuts (t : Turn α) (e : Event α) :
    Unbooked t (t.flushIntegerCuts e) := by
  -- By induction on the queue, from any turn.
  have hfold : ∀ (cuts : List (List Nat)) (acc : Turn α × Nat),
      Unbooked acc.1 (cuts.foldl (flushIntegerCut e) acc).1 := by
    intro cuts
    induction cuts with
    | nil => exact fun acc => .refl acc.1
    | cons indices rest ih => exact fun acc => (unbooked_flushIntegerCut e acc indices).trans (ih _)
  simp only [flushIntegerCuts]
  split
  · exact .refl t
  · have hcuts := hfold t.store.integerCuts (t.mapStore fun s => { s with integerCuts := [] }, 0)
    exact ⟨hcuts.settings, hcuts.iterations, hcuts.ledger, hcuts.waiting, hcuts.cuts⟩

/-- A cutoff is a call. -/
theorem unbooked_submitCutoff (t : Turn α) (e : Event α) (primal : α) :
    Unbooked t (t.submitCutoff e primal) := by
  refine (quiet_submitCutoff t e primal).unbooked ?_ ?_ <;>
  · simp only [submitCutoff]
    split <;> rfl

/-- Both calls about the incumbent leave the books alone. -/
theorem unbooked_injectIncumbent (t : Turn α) (e : Event α) :
    Unbooked t (t.injectIncumbent e) := by
  simp only [injectIncumbent]
  split
  · exact .refl t
  · have hsolution := unbooked_submitIncumbent t e t.session.bounds.primalBound
    refine hsolution.trans (Unbooked.trans ?_ (unbooked_submitCutoff _ e _))
    exact ⟨rfl, rfl, rfl, rfl, rfl⟩

/-- No-good cuts, if they are allowed. -/
theorem unbooked_noGoodCuts (t : Turn α) (e : Event α) : Unbooked t
    (if t.session.settings.dual.useIntegerCuts then t.flushIntegerCuts e else t) := by
  split
  · exact unbooked_flushIntegerCuts t e
  · exact .refl t

/-- The end of cutting off a solution: the search is stopped, or told about the incumbent. -/
theorem unbooked_informed (t : Turn α) (e : Event α) : Unbooked t
    (if t.checkTermination.callback.aborted then t.checkTermination
      else t.checkTermination.injectIncumbent e) := by
  split
  · exact unbooked_checkTermination t
  · exact (unbooked_checkTermination t).trans (unbooked_injectIncumbent _ e)

/-! ## What writes to the books -/

/-- One hyperplane: the engine takes it and it is entered, or it is dropped. -/
theorem entered_flushHyperplane (e : Event α) (number : Nat) (acc : Turn α × Nat)
    (h : Hyperplane α) :
    ∃ n, (flushHyperplane e number acc h).2 = acc.2 + n ∧
      Entered number n acc.1 (flushHyperplane e number acc h).1 := by
  simp only [flushHyperplane, submit]
  split
  · exact ⟨0, rfl, .of_eq number rfl rfl⟩
  next l _ =>
    split
    -- The engine refuses the row, and only a remark is left.
    next t err heq =>
      rw [Prod.mk.injEq] at heq
      rw [heq.2] at heq
      rw [← heq.1]
      refine ⟨0, rfl, .of_eq number rfl ?_⟩
      exact (quiet_call (acc.1.note (acc.1.problem.linearizeRemarks h)) _ rfl).cuts
    -- The engine takes it: one entry, and one more cut among the calls.
    next t heq =>
      rw [Prod.mk.injEq] at heq
      rw [heq.2] at heq
      rw [← heq.1]
      refine ⟨1, rfl, ⟨_, rfl, rfl, ?_⟩, ?_⟩
      · intro entry hmem
        rw [List.mem_singleton.1 hmem]
      · have hcuts := cuts_call_row (acc.1.note (acc.1.problem.linearizeRemarks h)) l.row
        exact (congrArg List.length hcuts).trans (List.length_append ..)

/-- The iterations and what waits stay as they are while one row is handed over. -/
theorem kept_flushHyperplane (e : Event α) (number : Nat) (acc : Turn α × Nat)
    (h : Hyperplane α) :
    (flushHyperplane e number acc h).1.session.iterations = acc.1.session.iterations ∧
      (flushHyperplane e number acc h).1.store.waiting = acc.1.store.waiting := by
  simp only [flushHyperplane, submit]
  split
  · exact ⟨rfl, rfl⟩
  · split <;> rename_i heq <;> rw [Prod.mk.injEq] at heq <;> rw [← heq.1] <;> exact ⟨rfl, rfl⟩

/-- Along the list, the rows taken are counted and entered. -/
theorem entered_foldFlush (e : Event α) (number : Nat) (hs : List (Hyperplane α))
    (acc : Turn α × Nat) :
    ∃ n, (hs.foldl (flushHyperplane e number) acc).2 = acc.2 + n ∧
      Entered number n acc.1 (hs.foldl (flushHyperplane e number) acc).1 := by
  induction hs generalizing acc with
  | nil => exact ⟨0, rfl, .of_eq number rfl rfl⟩
  | cons h rest ih =>
      obtain ⟨m, hcount, hfirst⟩ := entered_flushHyperplane e number acc h
      obtain ⟨n, hrest, hlast⟩ := ih (flushHyperplane e number acc h)
      refine ⟨m + n, ?_, hfirst.trans hlast⟩
      rw [List.foldl_cons, hrest, hcount, Nat.add_assoc]

/-- Along the list, the iterations and what waits stay as they are. -/
theorem kept_foldFlush (e : Event α) (number : Nat) (hs : List (Hyperplane α))
    (acc : Turn α × Nat) :
    (hs.foldl (flushHyperplane e number) acc).1.session.iterations = acc.1.session.iterations ∧
      (hs.foldl (flushHyperplane e number) acc).1.store.waiting = acc.1.store.waiting := by
  induction hs generalizing acc with
  | nil => exact ⟨rfl, rfl⟩
  | cons h rest ih =>
      have hfirst := kept_flushHyperplane e number acc h
      have hrest := ih (flushHyperplane e number acc h)
      exact ⟨hrest.1.trans hfirst.1, hrest.2.trans hfirst.2⟩

/-- What is taken when everything that waits is handed over is entered under the number of
    the live iteration. -/
theorem entered_flushHyperplanes (t : Turn α) (e : Event α) :
    Entered t.iteration (t.flushHyperplanes e).2 t (t.flushHyperplanes e).1 := by
  obtain ⟨n, hcount, hentered⟩ := entered_foldFlush e t.iteration t.store.waiting
    (t.mapStore fun s => { s with waiting := [] }, 0)
  rw [Nat.zero_add] at hcount
  simp only [flushHyperplanes]
  split
  -- If none was taken, nothing is counted, and nothing was entered.
  next hnone =>
    obtain rfl : n = 0 := hcount.symm.trans hnone
    exact ⟨hentered.entries, hentered.cuts⟩
  · rw [hcount]
    exact ⟨hentered.entries, hentered.cuts⟩

/-- The live iteration counts what was taken, even if that is nothing. -/
theorem iterations_flushHyperplanes (t : Turn α) (e : Event α) :
    (t.flushHyperplanes e).1.session.iterations =
      t.session.iterations.modifyLast (·.addHyperplanes (t.flushHyperplanes e).2) := by
  have hkept := (kept_foldFlush e t.iteration t.store.waiting
    (t.mapStore fun s => { s with waiting := [] }, 0)).1
  simp only [flushHyperplanes]
  split
  · exact hkept.trans t.session.iterations.modifyLast_id.symm
  · exact congrArg (fun l => IterationLedger.modifyLast l (·.addHyperplanes _)) hkept

/-- Afterwards nothing waits. -/
theorem waiting_flushHyperplanes (t : Turn α) (e : Event α) :
    (t.flushHyperplanes e).1.store.waiting = [] := by
  have hkept := (kept_foldFlush e t.iteration t.store.waiting
    (t.mapStore fun s => { s with waiting := [] }, 0)).2
  simp only [flushHyperplanes]
  split
  · exact hkept
  · exact hkept

/-- The same for a turn that had hyperplanes requested before, which just lets them wait. -/
theorem flushed_requested {t u : Turn α} (e : Event α)
    (hiterations : u.session.iterations = t.session.iterations)
    (hrequested : Entered t.iteration 0 t u) :
    let r := u.flushHyperplanes e
    r.1.session.iterations = t.session.iterations.modifyLast (·.addHyperplanes r.2) ∧
      Entered t.iteration r.2 t r.1 ∧ r.1.store.waiting = [] := by
  have hentered := entered_flushHyperplanes u e
  have hcounted := iterations_flushHyperplanes u e
  rw [show u.iteration = t.iteration from congrArg IterationLedger.lastNumber hiterations]
    at hentered
  rw [hiterations] at hcounted
  exact ⟨hcounted, hrequested.framed hentered (.of_eq _ rfl rfl), waiting_flushHyperplanes u e⟩

/-- An integer solution has an open iteration. -/
theorem iterations_ensureIteration (t : Turn α) :
    t.ensureIteration.session.iterations = t.session.iterations.ensured := by
  unfold ensureIteration IterationLedger.ensured
  split <;> rfl

/-- A relaxation that is cut off: hyperplanes are counted, as relaxed ones too, and entered. -/
theorem books_cutRelaxation (t : Turn α) (e : Event α) (values : Point α) :
    ∃ n, (t.cutRelaxation e values).session.iterations =
        t.session.iterations.modifyLast (·.relaxedBy n) ∧
      Entered t.iteration n t (t.cutRelaxation e values) ∧
      (t.cutRelaxation e values).store.waiting = [] := by
  simp only [cutRelaxation]
  generalize hu : (t.enter .generatingCuts).requestCuts _ false = u
  have hiterations : u.session.iterations = t.session.iterations := hu ▸ rfl
  have hrequested : Entered t.iteration 0 t u := hu ▸ .of_eq _ rfl rfl
  obtain ⟨hcounted, hentered, hwaiting⟩ := flushed_requested e hiterations hrequested
  refine ⟨(u.flushHyperplanes e).2, ?_, ⟨hentered.entries, hentered.cuts⟩, hwaiting⟩
  exact (congrArg (fun l => IterationLedger.modifyLast l fun it =>
    { it with relaxed := it.relaxed + (u.flushHyperplanes e).2 }) hcounted).trans
    (IterationLedger.modifyLast_modifyLast _ _ _)

/-- A solution that is cut off: hyperplanes are counted and entered, the candidate is
    recorded, and the iteration is closed. -/
theorem books_cutOff (t : Turn α) (e : Event α) (objective : α) (c : Candidate α) :
    ∃ (n : Nat) (change : Iteration α → Iteration α),
      (∀ it : Iteration α, it.Counted n 0 (change it)) ∧
      (t.cutOff e objective c).session.iterations =
        (t.session.iterations.modifyLast change).closeLast ∧
      Entered t.iteration n t (t.cutOff e objective c) ∧
      (t.cutOff e objective c).store.waiting = [] := by
  simp only [cutOff]
  -- Up to the request the books are left alone, but for what waits.
  generalize hu : ((t.enter .generatingCuts).refineInterior.requestCuts c true).requestEpigraph c
    = u
  have hrefined := unbooked_refined t
  have hiterations : u.session.iterations = t.session.iterations := hu ▸ hrefined.iterations
  have hrequested : Entered t.iteration 0 t u := hu ▸ .of_eq _ hrefined.ledger hrefined.cuts
  obtain ⟨hcounted, hflushed, hwaiting⟩ := flushed_requested e hiterations hrequested
  generalize (u.flushHyperplanes e).1 = v at hflushed hcounted hwaiting ⊢
  generalize (u.flushHyperplanes e).2 = n at hflushed hcounted ⊢
  have hnote : Unbooked v (if n = 0 then v.note [.noHyperplane c.objective] else v) := by
    split <;> exact ⟨rfl, rfl, rfl, rfl, rfl⟩
  generalize (if n = 0 then v.note [.noHyperplane c.objective] else v) = w at hnote ⊢
  obtain ⟨record, hsame, hrecorded⟩ := iterations_recordIteration w objective c
  -- Heuristics leave the books alone, and so does whatever follows the closing.
  have hheuristics := (unbooked_searchPrimal (w.recordIteration objective c) c).trans
    (unbooked_fixIntegers _ c)
  generalize ((w.recordIteration objective c).searchPrimal c).fixIntegers c = x at hheuristics ⊢
  have hcuts := hheuristics.trans (unbooked_noGoodCuts x e)
  generalize (if x.session.settings.dual.useIntegerCuts then x.flushIntegerCuts e else x) = y
    at hcuts ⊢
  have hend := unbooked_informed (y.closeIteration c n) e
  refine ⟨n, fun it => record (it.addHyperplanes n), fun it => ?_, ?_, ?_, ?_⟩
  · have hsame := hsame (it.addHyperplanes n)
    exact ⟨hsame.number, hsame.closed, hsame.added, hsame.total, hsame.relaxed⟩
  · refine hend.iterations.trans (congrArg IterationLedger.closeLast ?_)
    refine hcuts.iterations.trans ?_
    rw [hrecorded, hnote.iterations, hcounted, IterationLedger.modifyLast_modifyLast]
  · refine hflushed.trans (.of_eq _ ?_ ?_)
    · exact hend.ledger.trans (hcuts.ledger.trans hnote.ledger)
    · exact hend.cuts.trans (hcuts.cuts.trans hnote.cuts)
  · exact hend.waiting.trans (hcuts.waiting.trans (hnote.waiting.trans hwaiting))

/-- A check that lets a turn go on found room for another closed iteration. -/
theorem solved_lt_of_checkTermination {t : Turn α}
    (hgoes : t.checkTermination.callback.aborted = false) :
    t.session.iterations.solved < t.session.settings.termination.iterationLimit := by
  have hreason : t.session.stopReason? = none := by
    rw [aborted_checkTermination, Bool.or_eq_false_iff] at hgoes
    exact Option.isNone_iff_eq_none.1 (Option.isSome_eq_false_iff.1 hgoes.2)
  have hreached := (Session.stopReason?_eq_none_iff _).1 hreason
  simp only [Session.terminationReached, Bool.or_eq_false_iff] at hreached
  simpa only [Session.iterationLimitReached, decide_eq_false_iff_not, Nat.not_le] using
    hreached.1.2

/-- What handling an event can do to the books. -/
inductive Books (e : Event α) (t t' : Turn α) : Prop
  /-- Nothing. -/
  | kept (h : Unbooked t t')
  /-- Hyperplanes for a node relaxation are counted in the live iteration. -/
  | relaxed (n : Nat) (hreason : e.reason = .relaxationNode)
      (hiterations : t'.session.iterations = t.session.iterations.modifyLast (·.relaxedBy n))
      (hentered : Entered t.iteration n t t') (hwaiting : t'.store.waiting = [])
  /-- An iteration is open for an integer solution. -/
  | opened (hreason : e.reason = .integerSolution)
      (hiterations : t'.session.iterations = t.session.iterations.ensured)
      (hledger : t'.store.ledger = t.store.ledger) (hwaiting : t'.store.waiting = t.store.waiting)
      (hcuts : t'.cuts = t.cuts)
  /-- Hyperplanes for an integer solution are counted in that iteration, which is then
      closed. -/
  | closed (n : Nat) (change : Iteration α → Iteration α)
      (hcounted : ∀ it : Iteration α, it.Counted n 0 (change it))
      (hreason : e.reason = .integerSolution)
      (hroom : t.session.iterations.solved < t.session.settings.termination.iterationLimit)
      (hiterations : t'.session.iterations =
        (t.session.iterations.ensured.modifyLast change).closeLast)
      (hentered : Entered t.session.iterations.ensured.lastNumber n t t')
      (hwaiting : t'.store.waiting = [])

/-- Steps that leave the books alone may stand before and after. -/
theorem Books.framed {e : Event α} {a b c d : Turn α} (h1 : Unbooked a b) (h2 : Books e b c)
    (h3 : Unbooked c d) : Books e a d := by
  have hnumber : b.iteration = a.iteration := congrArg IterationLedger.lastNumber h1.iterations
  cases h2 with
  | kept h => exact .kept ((h1.trans h).trans h3)
  | relaxed n hreason hiterations hentered hwaiting =>
      rw [h1.iterations] at hiterations
      rw [hnumber] at hentered
      exact .relaxed n hreason (h3.iterations.trans hiterations)
        ((h1.entered _).framed hentered (h3.entered _)) (h3.waiting.trans hwaiting)
  | opened hreason hiterations hledger hwaiting hcuts =>
      rw [h1.iterations] at hiterations
      exact .opened hreason (h3.iterations.trans hiterations)
        (h3.ledger.trans (hledger.trans h1.ledger))
        (h3.waiting.trans (hwaiting.trans h1.waiting)) (h3.cuts.trans (hcuts.trans h1.cuts))
  | closed n change hcounted hreason hroom hiterations hentered hwaiting =>
      rw [h1.iterations] at hiterations hentered hroom
      rw [h1.settings] at hroom
      exact .closed n change hcounted hreason hroom (h3.iterations.trans hiterations)
        ((h1.entered _).framed hentered (h3.entered _)) (h3.waiting.trans hwaiting)

/-- A node relaxation is cut off, or passed over for one of several reasons. -/
theorem books_relaxationNode (t : Turn α) (e : Event α) (hreason : e.reason = .relaxationNode) :
    Books e t (t.relaxationNode e) := by
  simp only [relaxationNode]
  split
  · exact .kept ⟨rfl, rfl, rfl, rfl, rfl⟩
  · exact .kept (.refl t)
  · split
    · exact .kept (.refl t)
    · split
      · exact .kept ⟨rfl, rfl, rfl, rfl, rfl⟩
      next values _ =>
        split
        · obtain ⟨n, hiterations, hentered, hwaiting⟩ := books_cutRelaxation t e values
          exact .relaxed n hreason hiterations hentered hwaiting
        · exact .kept ⟨rfl, rfl, rfl, rfl, rfl⟩

/-- A solution opens an iteration, and closes it if it is cut off. -/
theorem books_considerSolution (t : Turn α) (e : Event α) (objective : α) (x : Point α)
    (hreason : e.reason = .integerSolution) : Books e t (t.considerSolution e objective x) := by
  have hensured := iterations_ensureIteration t
  have hopened : t.ensureIteration.store = t.store ∧ t.ensureIteration.cuts = t.cuts ∧
      t.ensureIteration.session.settings = t.session.settings := by
    unfold ensureIteration
    split <;> exact ⟨rfl, rfl, rfl⟩
  simp only [considerSolution]
  -- The solution is offered and checked for; the books are those of the open iteration.
  have hoffered := unbooked_offerSolution t.ensureIteration objective
    (t.ensureIteration.problem.candidate x t.ensureIteration.iteration)
  generalize t.ensureIteration.offerSolution objective _ = u at hoffered ⊢
  have hchecked := hoffered.trans (unbooked_checkTermination u)
  have hiterations := hchecked.iterations.trans hensured
  have hledger := hchecked.ledger.trans (congrArg CutStore.ledger hopened.1)
  have hwaiting := hchecked.waiting.trans (congrArg CutStore.waiting hopened.1)
  have hcuts := hchecked.cuts.trans hopened.2.1
  split
  · exact .opened hreason hiterations hledger hwaiting hcuts
  -- The check let it go on, so there is room for another closed iteration.
  next hgoes =>
    split
    · exact .opened hreason hiterations hledger hwaiting hcuts
    · have hroom := solved_lt_of_checkTermination (Bool.eq_false_iff.2 hgoes)
      have hsolved : t.session.iterations.ensured.solved = t.session.iterations.solved := by
        unfold IterationLedger.ensured
        split <;> rfl
      rw [hoffered.iterations, hensured, hsolved, hoffered.settings, hopened.2.2] at hroom
      obtain ⟨n, change, hcounted, hclosed, hentered, hempty⟩ := books_cutOff u.checkTermination e
        objective (t.ensureIteration.problem.candidate x t.ensureIteration.iteration)
      rw [hiterations] at hclosed
      rw [iteration, hiterations] at hentered
      refine .closed n change hcounted hreason hroom hclosed ?_ hempty
      exact (Entered.of_eq _ hledger hcuts).framed hentered (.of_eq _ rfl rfl)

/-- The same for the event, which may not have a solution to show. -/
theorem books_integerSolution (t : Turn α) (e : Event α) (hreason : e.reason = .integerSolution) :
    Books e t (t.integerSolution e) := by
  simp only [integerSolution]
  split
  · exact .kept ⟨rfl, rfl, rfl, rfl, rfl⟩
  · split
    · exact .kept ⟨rfl, rfl, rfl, rfl, rfl⟩
    · split
      · exact books_considerSolution t e _ _ hreason
      · exact .kept ⟨rfl, rfl, rfl, rfl, rfl⟩

/-- Two kinds of events write to the books. -/
theorem books_dispatch (t : Turn α) (e : Event α) : Books e t (t.dispatch e) := by
  simp only [dispatch]
  split
  · exact .kept (unbooked_recordProgress t e)
  next hreason => exact books_relaxationNode t e hreason
  next hreason => exact books_integerSolution t e hreason
  · exact .kept (.refl t)

/-- The checks and the bound of the engine frame what is done for the kind of the event. -/
theorem books_active (t : Turn α) (e : Event α) : Books e t (t.active e) := by
  have henter : ∀ (u : Turn α) (phase : Phase), Unbooked u (u.enter phase) :=
    fun u phase => ⟨rfl, rfl, rfl, rfl, rfl⟩
  have hopen := (henter t .evaluatingNode).trans (unbooked_checkTermination _)
  have hcheck : ∀ u : Turn α,
      Unbooked u (if u.callback.aborted then u else u.checkTermination) := by
    intro u
    split
    · exact .refl u
    · exact unbooked_checkTermination u
  simp only [active]
  split
  · exact .kept (hopen.trans (henter _ _))
  · refine Books.framed (hopen.trans (unbooked_updateDualBound _ e)) (books_dispatch _ e) ?_
    exact (hcheck _).trans (henter _ _)

end Turn

/-- Every event does one of the four things, whatever the engine answers. -/
theorem Callback.books_handle [Scalar α] (c : Callback α) (e : Event α) :
    Turn.Books e ⟨c, []⟩ (c.handle e) := by
  simp only [handle]
  split
  · exact .kept (.refl _)
  · split
    · exact .kept ⟨rfl, rfl, rfl, rfl, rfl⟩
    · have hcounted : Turn.Unbooked ⟨c, []⟩ (⟨c.counted, []⟩ : Turn α) :=
        ⟨rfl, rfl, rfl, rfl, rfl⟩
      exact Turn.Books.framed hcounted (Turn.books_active _ e) (.refl _)

end OuterApprox
