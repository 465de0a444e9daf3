import OuterApprox.Proofs.CutMirror
import OuterApprox.Proofs.FinalStatus
import OuterApprox.Proofs.SoundLedger

/-!
# The account of hyperplanes

Hyperplanes are counted twice: by the cut ledger, which has an entry for each under the
number of an iteration, and by the iterations, each of which has a figure for those that
were added in it. The two are kept by different steps. The number is read before the
hyperplanes are handed over, the entries are made while that goes on, and the figure is
changed afterwards, on whichever iteration is last by then. For the first solve of a
solver they agree: every iteration accounts for the entries under its number, and the
total that is reported is the size of the ledger.

Entries from before the search have the number zero, since there was no iteration, and
are counted in the first one. That no other iteration can be mistaken for it, or for one
another, is because the ledger of iterations is sound.

## Main definitions

* `GeneratedCut.counter`: The number of the iteration that counts an entry.
* `IterationLedger.Accounts`: Iterations account for the entries of a cut ledger.
* `Solver.Prepared`: A solver that was only prepared.

## Theorems

* `IterationLedger.Accounts.enter`, `IterationLedger.Accounts.ensured`,
  `IterationLedger.Accounts.closeLast`: What happens to the iterations.
* `Session.accounts_invariant`: Events and remedies keep the account right.
* `Solver.Prepared.prepare`: Preparations are counted.
* `Solver.hyperplanes_accounted`: So the account of the first solve is right.
-/

namespace OuterApprox

variable {α σ : Type}

/-- The number of the iteration that counts an entry. Those from before a search are counted
    in the first one. -/
def GeneratedCut.counter (entry : GeneratedCut α) : Nat := max entry.iteration 1

namespace CutLedger

/-- The entries of a cut ledger under a number. -/
def countUnder (cuts : CutLedger α) (number : Nat) : Nat :=
  cuts.entries.countP fun entry => decide (entry.iteration = number)

/-- The entries of a cut ledger that an iteration counts. -/
def countedIn (cuts : CutLedger α) (number : Nat) : Nat :=
  cuts.entries.countP fun entry => decide (entry.counter = number)

/-- An iteration counts the entries under its number, and the first one counts those from
    before the search as well. -/
theorem countedIn_eq (cuts : CutLedger α) {number : Nat} (hpos : 0 < number) :
    cuts.countedIn number =
      cuts.countUnder number + if number = 1 then cuts.countUnder 0 else 0 := by
  have hentry : ∀ entry : GeneratedCut α, (if entry.counter = number then 1 else 0) =
      (if entry.iteration = number then 1 else 0) +
        if number = 1 then (if entry.iteration = 0 then 1 else 0) else 0 := by
    intro entry
    by_cases hearly : entry.iteration = 0
    · have hfirst : entry.counter = 1 := by rw [GeneratedCut.counter, hearly]; rfl
      rw [hfirst, hearly, if_neg (Nat.ne_of_lt hpos), if_pos rfl, Nat.zero_add]
      exact if_congr eq_comm rfl rfl
    · -- An entry with a number of its own is not one from before the search.
      have hown : entry.counter = entry.iteration := Nat.max_eq_left (Nat.pos_of_ne_zero hearly)
      rw [hown, if_neg hearly, ite_self, Nat.add_zero]
  obtain ⟨entries⟩ := cuts
  simp only [countedIn, countUnder]
  -- The ledger is counted entry by entry.
  induction entries with
  | nil => simp only [List.countP_nil, ite_self]
  | cons entry rest ih =>
      have hentry := hentry entry
      simp only [List.countP_cons, decide_eq_true_eq, ih, hentry]
      by_cases hone : number = 1
      · simp only [hone, if_true]
        omega
      · simp only [hone, if_false, Nat.add_zero]

/-- Entries that all have a number are counted in its iteration and in no other. -/
theorem countedIn_append (cuts : CutLedger α) {new : List (GeneratedCut α)} {number : Nat}
    (hpos : 0 < number) (hnew : ∀ entry ∈ new, entry.iteration = number) (k : Nat) :
    (⟨cuts.entries ++ new⟩ : CutLedger α).countedIn k =
      cuts.countedIn k + if k = number then new.length else 0 := by
  have hcounter : ∀ entry ∈ new, entry.counter = number := by
    intro entry hmem
    rw [GeneratedCut.counter, hnew entry hmem]
    exact Nat.max_eq_left hpos
  rw [countedIn, List.countP_append]
  congr 1
  -- Under their own number all new entries count, and under another one none.
  split
  next heq =>
    refine List.countP_eq_length.2 fun entry hmem => ?_
    rw [hcounter entry hmem, heq, decide_eq_true rfl]
  next hne =>
    refine List.countP_eq_zero.2 fun entry hmem => ?_
    rw [hcounter entry hmem, decide_eq_true_eq]
    exact Ne.symm hne

end CutLedger

namespace IterationLedger

/-- The iterations account for the entries of a cut ledger. -/
structure Accounts (l : IterationLedger α) (cuts : CutLedger α) : Prop where
  /-- The iterations do not contradict each other. -/
  sound : l.Sound
  /-- There is an iteration. -/
  nonempty : l.iterations ≠ []
  /-- The running total is the number of entries. -/
  total : l.total = cuts.size
  /-- No entry is for an iteration that is still to come. -/
  numbers : ∀ entry ∈ cuts.entries, entry.iteration ≤ l.size
  /-- What an iteration counts is what is entered under its number. -/
  added : ∀ it ∈ l.iterations, it.added = cuts.countedIn it.number

theorem accounts_append_iff (init : List (Iteration α)) (it : Iteration α) (n : Nat)
    (cuts : CutLedger α) :
    (⟨init ++ [it], n⟩ : IterationLedger α).Accounts cuts ↔
      (⟨init ++ [it], n⟩ : IterationLedger α).Sound ∧ it.total = cuts.size ∧
        (∀ entry ∈ cuts.entries, entry.iteration ≤ init.length + 1) ∧
        (∀ it' ∈ init, it'.added = cuts.countedIn it'.number) ∧
        it.added = cuts.countedIn it.number := by
  constructor
  · intro h
    have hadded := List.forall_mem_append.1 h.added
    have htotal := h.total
    have hnumbers := h.numbers
    rw [total_append] at htotal
    rw [size_append] at hnumbers
    exact ⟨h.sound, htotal, hnumbers, hadded.1, hadded.2 it (List.mem_singleton_self it)⟩
  -- The last iteration is one of them, and it is the one that is asked for the total.
  · rintro ⟨hsound, htotal, hnumbers, hinit, hlast⟩
    refine ⟨hsound, List.concat_ne_nil _ _, ?_, ?_, List.forall_mem_append.2 ⟨hinit, ?_⟩⟩
    · rw [total_append]
      exact htotal
    · rw [size_append]
      exact hnumbers
    · intro it' hmem
      rw [List.mem_singleton.1 hmem]
      exact hlast

namespace Accounts

variable {l : IterationLedger α} {cuts : CutLedger α}

/-- A ledger that accounts for entries has a last iteration, and only that has its number. -/
theorem exists_append (h : l.Accounts cuts) : ∃ init it n, l = ⟨init ++ [it], n⟩ ∧
    it.number = init.length + 1 ∧ ∀ it' ∈ init, it'.number ≠ it.number := by
  obtain ⟨n, rfl⟩ | ⟨init, it, n, rfl⟩ := l.empty_or_append
  · exact absurd rfl h.nonempty
  · obtain ⟨hsettled, hlive, -⟩ := (sound_append_iff init it n).1 h.sound
    refine ⟨init, it, n, rfl, hlive.numbered, fun it' hmem => ?_⟩
    obtain ⟨k, hk⟩ := List.mem_iff_getElem?.1 hmem
    have hlt := (List.getElem?_eq_some_iff.1 hk).1
    rw [hsettled.numbered k it' hk, hlive.numbered]
    omega

/-- Hyperplanes are entered under the number of the last iteration and counted in it. -/
theorem enter {f : Iteration α → Iteration α} {n relaxed : Nat} (h : l.Accounts cuts)
    (hf : ∀ it : Iteration α, it.Counted n relaxed (f it)) (hle : relaxed ≤ n)
    {new : List (GeneratedCut α)} (hlength : new.length = n)
    (hnew : ∀ entry ∈ new, entry.iteration = l.lastNumber) :
    (l.modifyLast f).Accounts ⟨cuts.entries ++ new⟩ := by
  have hsound := h.sound.modifyLast hf hle
  obtain ⟨init, it, solved, rfl, hnumber, hothers⟩ := h.exists_append
  rw [lastNumber_append] at hnew
  rw [modifyLast_append] at hsound ⊢
  obtain ⟨-, htotal, hnumbers, hinit, hlast⟩ := (accounts_append_iff init it solved cuts).1 h
  have hpos : 0 < it.number := Nat.lt_of_lt_of_eq (Nat.succ_pos _) hnumber.symm
  have hcounted := cuts.countedIn_append hpos hnew
  refine (accounts_append_iff init (f it) solved _).2 ⟨hsound, ?_, ?_, ?_, ?_⟩
  · rw [(hf it).total, htotal, ← hlength]
    exact List.length_append.symm
  · refine List.forall_mem_append.2 ⟨hnumbers, fun entry hmem => ?_⟩
    rw [hnew entry hmem, hnumber]
  · -- No other iteration has the number that the new entries have.
    intro it' hmem
    rw [hcounted, if_neg (hothers it' hmem), Nat.add_zero]
    exact hinit it' hmem
  · rw [(hf it).added, (hf it).number, hcounted, if_pos rfl, hlast, hlength]

theorem modifyLast {f : Iteration α → Iteration α} (h : l.Accounts cuts)
    (hf : ∀ it : Iteration α, it.Counted 0 0 (f it)) : (l.modifyLast f).Accounts cuts := by
  have hkept := h.enter hf (Nat.le_refl 0) List.length_nil fun _ hmem => nomatch hmem
  rw [List.append_nil] at hkept
  exact hkept

/-- Closing an iteration changes nothing about what it counts. -/
theorem closeLast (h : l.Accounts cuts) : l.closeLast.Accounts cuts := by
  have hsound := h.sound.closeLast
  obtain ⟨init, it, n, rfl, -⟩ := h.exists_append
  rw [closeLast_append] at hsound ⊢
  exact (accounts_append_iff init _ _ cuts).2
    ⟨hsound, ((accounts_append_iff init it n cuts).1 h).2⟩

/-- An iteration that is opened has nothing to count yet. -/
theorem ensured [Scalar α] (h : l.Accounts cuts) : l.ensured.Accounts cuts := by
  have hsound := h.sound.ensured
  obtain ⟨_, heq⟩ | ⟨_, _, _, _, _, heq⟩ := l.ensured_cases
  · rw [heq] at hsound ⊢
    refine (accounts_append_iff _ _ _ _).2 ⟨hsound, h.total, ?_, h.added, ?_⟩
    · exact fun entry hmem => Nat.le_succ_of_le (h.numbers entry hmem)
    · -- All entries are counted in earlier iterations, of which there is one at least.
      refine (List.countP_eq_zero.2 fun entry hmem => ?_).symm
      have hpos : 0 < l.iterations.length := List.length_pos_of_ne_nil h.nonempty
      have hle : entry.iteration ≤ l.iterations.length := h.numbers entry hmem
      rw [decide_eq_true_eq, GeneratedCut.counter]
      change max entry.iteration 1 ≠ l.iterations.length + 1
      omega
  · rw [heq]
    exact h

end Accounts

end IterationLedger

variable [Scalar α]

/-- Every event keeps the account right. -/
theorem Callback.accounts_handle {c : Callback α} (e : Event α)
    (h : c.session.iterations.Accounts c.store.ledger) :
    (c.handle e).session.iterations.Accounts (c.handle e).store.ledger := by
  have hstart : (⟨c, []⟩ : Turn α).session.iterations.Accounts (⟨c, []⟩ : Turn α).store.ledger := h
  cases c.books_handle e with
  | kept hkept =>
      rw [hkept.iterations, hkept.ledger]
      exact hstart
  -- What is entered is what the live iteration counts.
  | relaxed n _ hiterations hentered =>
      obtain ⟨new, hentries, hlength, hnew⟩ := hentered.entries
      have hafter := hstart.enter (Iteration.counted_relaxedBy n) (Nat.le_refl n) hlength hnew
      rw [← hentries, ← hiterations] at hafter
      exact hafter
  | opened _ hiterations hledger =>
      rw [hiterations, hledger]
      exact hstart.ensured
  | closed n change hcounted _ _ hiterations hentered =>
      obtain ⟨new, hentries, hlength, hnew⟩ := hentered.entries
      have hafter := (hstart.ensured.enter hcounted (Nat.zero_le n) hlength hnew).closeLast
      rw [← hentries, ← hiterations] at hafter
      exact hafter

theorem Session.accounts_invariant : Callback.Invariant (fun _ : Event α => True)
    fun s st => s.iterations.Accounts st.ledger where
  event _ e _ h := Callback.accounts_handle e h
  statistics _ _ _ h := h
  note _ _ _ h := h
  dual _ _ _ h := h
  repaired _ _ h := h.modifyLast fun _ => ⟨rfl, rfl, rfl, rfl, rfl⟩

/-- Hyperplanes that are offered as rows are entered under a number, as many as are
    counted. -/
theorem Master.entered_addRows (E : Engine α σ) (number : Nat) (hs : List (Hyperplane α))
    (acc : Master α σ × Nat) :
    let r := hs.foldl (addRow E number) acc
    ∃ new, r.1.store.ledger.entries = acc.1.store.ledger.entries ++ new ∧
      r.2 = acc.2 + new.length ∧ ∀ entry ∈ new, entry.iteration = number := by
  induction hs generalizing acc with
  | nil => exact ⟨[], (List.append_nil _).symm, rfl, fun _ hmem => nomatch hmem⟩
  | cons h rest ih =>
      obtain ⟨new, hentries, hcount, hnumber⟩ := ih (addRow E number acc h)
      rw [List.foldl_cons]
      -- No linearization, a row that is refused, or a row that is entered.
      obtain ⟨_, -, -, hstore, hkept⟩ | ⟨_, _, _, -, -, -, hstore, hkept⟩ |
        ⟨_, _, _, -, -, -, hstore, hone⟩ := addRow_cases E number acc h
      · rw [hstore] at hentries
        rw [hkept] at hcount
        exact ⟨new, hentries, hcount, hnumber⟩
      · rw [hstore] at hentries
        rw [hkept] at hcount
        exact ⟨new, hentries, hcount, hnumber⟩
      · rw [hstore] at hentries
        rw [hone] at hcount
        refine ⟨_ :: new, hentries.trans (List.append_assoc _ _ _), ?_, ?_⟩
        · rw [hcount, List.length_cons, Nat.add_assoc, Nat.add_comm 1]
        · exact List.forall_mem_cons.2 ⟨rfl, hnumber⟩

/-- Handing over what waits as rows: as many entries are made as are counted, under the
    number of the iteration that counts them. -/
theorem Master.entered_addWaitingRows (E : Engine α σ) (m : Master α σ) :
    let r := m.addWaitingRows E
    (∃ new, r.1.store.ledger.entries = m.store.ledger.entries ++ new ∧ r.2 = new.length ∧
      ∀ entry ∈ new, entry.iteration = m.session.iterations.lastNumber) ∧
    r.1.session.settings = m.session.settings ∧
    r.1.session.iterations = m.session.iterations.modifyLast (·.addHyperplanes r.2) := by
  have hkept := session_addRows E m.session.iterations.lastNumber m.store.waiting
    ({ m with store := { m.store with waiting := [] } }, 0)
  obtain ⟨new, hentries, hcount, hnew⟩ := entered_addRows E m.session.iterations.lastNumber
    m.store.waiting ({ m with store := { m.store with waiting := [] } }, 0)
  rw [Nat.zero_add] at hcount
  simp only [addWaitingRows]
  split
  -- Where no row was taken, none is counted.
  next hnone =>
    refine ⟨⟨new, hentries, hnone.symm.trans hcount, hnew⟩, hkept.2.1, ?_⟩
    exact hkept.2.2.trans m.session.iterations.modifyLast_id.symm
  · refine ⟨⟨new, hentries, hcount, hnew⟩, hkept.2.1, ?_⟩
    exact congrArg (fun l => IterationLedger.modifyLast l (·.addHyperplanes _)) hkept.2.2

namespace Solver

variable {E : Engine α σ} {s : Solver α σ} {given : Settings α}

/-- A solver that was only prepared: there are no iterations, and what was added is counted
    and entered under the number zero. -/
structure Prepared (given : Settings α) (s : Solver α σ) : Prop where
  /-- The settings are the ones given. -/
  settings : s.master.session.settings = given
  /-- No iteration was ever opened. -/
  iterations : s.master.session.iterations = .empty
  /-- Every row that was added is counted as an initial one. -/
  counted : s.initialHyperplanes = s.master.store.ledger.size
  /-- All of them are entered under the number zero. -/
  early : ∀ entry ∈ s.master.store.ledger.entries, entry.iteration = 0

theorem prepared_create {p : Problem α} {engine : σ} {clock : Clock}
    (h : create E p given engine clock = .ok s) :
    s.Prepared given ∧ given.validate = .ok () := by
  obtain ⟨hvalid, rfl⟩ := create_eq_ok h
  exact ⟨⟨rfl, rfl, rfl, fun _ hmem => nomatch hmem⟩, hvalid⟩

theorem Prepared.addHyperplanes (h : s.Prepared given) (hs : List (Hyperplane α)) :
    (s.addHyperplanes E hs).1.Prepared given := by
  obtain ⟨⟨new, hentries, hcount, hnew⟩, hsettings, hiterations⟩ :=
    Master.entered_addWaitingRows E (s.mapStore (·.request hs)).master
  have hempty : (s.mapStore (·.request hs)).master.session.iterations = .empty := h.iterations
  rw [hempty] at hnew hiterations
  have hsize := (congrArg List.length hentries).trans List.length_append
  have hearly := List.forall_mem_append.2 ⟨h.early, hnew⟩
  refine ⟨hsettings.trans h.settings, hiterations, ?_, fun entry hmem => hearly entry ?_⟩
  · exact (congrArg₂ (· + ·) h.counted hcount).trans hsize.symm
  · exact hentries ▸ hmem

theorem Prepared.prepare (h : s.Prepared given) (preparation : Preparation α) :
    (s.prepare E preparation).Prepared given := by
  obtain ⟨hs, rfl⟩ | ⟨hkept, -⟩ := s.prepare_cases (E := E) preparation
  · exact h.addHyperplanes hs
  · refine ⟨hkept.settings.trans h.settings, hkept.iterations.trans h.iterations, ?_, ?_⟩
    · rw [hkept.counted, hkept.ledger]
      exact h.counted
    · rw [hkept.ledger]
      exact h.early

theorem Prepared.prepareAll (h : s.Prepared given) (preparations : List (Preparation α)) :
    (preparations.foldl (Solver.prepare E) s).Prepared given := by
  induction preparations generalizing s with
  | nil => exact h
  | cons preparation rest ih => exact ih (h.prepare preparation)

/-- The first iteration of the first solve accounts for all that was added before. -/
theorem Prepared.accounts (h : s.Prepared given) :
    s.freshSession.iterations.Accounts s.master.store.ledger := by
  have hsound := s.accounted_freshSession.sound
  have hcounter : ∀ entry ∈ s.master.store.ledger.entries, entry.counter = 1 := by
    intro entry hmem
    rw [GeneratedCut.counter, h.early entry hmem]
    rfl
  refine (IterationLedger.accounts_append_iff [] _ 0 _).2 ⟨hsound, ?_, ?_, ?_, ?_⟩
  · exact (Nat.zero_add _).trans h.counted
  · intro entry hmem
    rw [h.early entry hmem]
    exact Nat.zero_le _
  · exact fun _ hmem => nomatch hmem
  · refine (Nat.zero_add _).trans (h.counted.trans (List.countP_eq_length.2 ?_).symm)
    exact fun entry hmem => decide_eq_true (hcounter entry hmem)

/-- Preparations do not mark the queue of the local search, and install no local solver unless
    one of them says so. -/
theorem markedBy_prepareAll (E : Engine α σ) {rule : FixedIntegerRule}
    (preparations : List (Preparation α)) {s : Solver α σ}
    (h : s.master.store.fixedInteger.MarkedBy rule) :
    let s' := preparations.foldl (prepare E) s
    s'.master.store.fixedInteger.MarkedBy rule ∧
      ((∀ solver, Preparation.fixedInteger solver ∉ preparations) →
        s.master.store.fixedInteger.solver = none →
          s'.master.store.fixedInteger.solver = none) := by
  induction preparations generalizing s with
  | nil => exact ⟨h, fun _ hnone => hnone⟩
  | cons preparation rest ih =>
      obtain ⟨hmarked, hbare⟩ := ih (s.markedBy_prepare (E := E) h preparation)
      refine ⟨hmarked, fun hnot hnone => hbare (fun solver hmem => ?_) ?_⟩
      · exact hnot solver (List.mem_cons_of_mem _ hmem)
      -- Only one kind of preparation installs a local solver.
      · obtain hsame | ⟨solver, rfl, -⟩ := s.fixedInteger_prepare (E := E) preparation
        · rw [hsame, hnone]
        · exact absurd (List.mem_cons_self ..) (hnot solver)

/-- The first solve of a solver, after any preparations and whatever the engine does, reports
    as many hyperplanes as are in the cut ledger. Every iteration has added as many as were
    entered under its number, and the first one also those from before the search. There is a
    report at the end, unless a local solver was installed and the rule for it calculates with
    iterations, and overflows. -/
theorem hyperplanes_accounted {p : Problem α} {engine : σ} {clock : Clock}
    (h : create E p given engine clock = .ok s) (preparations : List (Preparation α)) :
    let s' := preparations.foldl (prepare E) s
    let m := (s'.solve E).1.master
    ∃ r, (s'.solve E).2 = answer m.store r ∧
      ((∀ solver, Preparation.fixedInteger solver ∉ preparations) ∨
        (∀ n, given.primal.fixedInteger ≠ .every n) → (s'.solve E).2 = .ok r) ∧
      r.hyperplanes = m.session.iterations.total ∧
      m.session.iterations.total = m.store.ledger.size ∧
      ∀ it ∈ m.session.iterations.iterations, it.added =
        m.store.ledger.countUnder it.number +
          if it.number = 1 then m.store.ledger.countUnder 0 else 0 := by
  intro s' m
  obtain ⟨hcreated, hvalid⟩ := prepared_create h
  have hprepared : s'.Prepared given := hcreated.prepareAll preparations
  -- The queue of the local search starts out empty, and is not marked.
  have hempty : s.master.store.fixedInteger = .empty := by
    obtain ⟨-, rfl⟩ := create_eq_ok h
    rfl
  have hunmarked : s.master.store.fixedInteger.MarkedBy given.primal.fixedInteger := by
    rw [hempty]
    exact nofun
  obtain ⟨hmarked, hbare⟩ := markedBy_prepareAll E preparations hunmarked
  rw [← hprepared.settings] at hvalid
  have haccounts : m.session.iterations.Accounts m.store.ledger :=
    (invariant_solve (τ := []) (Session.accounts_invariant.master E) s' hvalid
      (fun _ _ => trivial) hprepared.accounts).2
  refine ⟨_, s'.solve_eq_report E hvalid, fun hsafe => ?_, rfl, haccounts.total,
    fun it hmem => ?_⟩
  · refine s'.solve_eq_ok E hvalid ?_ (hsafe.imp (fun hnot => ?_) fun hrule => ?_)
    · rw [hprepared.settings]
      exact hmarked
    · exact hbare hnot (by rw [hempty]; rfl)
    · rw [hprepared.settings]
      exact hrule
  -- Numbers of iterations are positive, so the entries from before have one of their own.
  obtain ⟨k, hk⟩ := List.mem_iff_getElem?.1 hmem
  have hpos : 0 < it.number := by
    rw [haccounts.sound.numbered k it hk]
    exact Nat.succ_pos k
  rw [haccounts.added it hmem, CutLedger.countedIn_eq _ hpos]

end Solver

namespace Parabola

/-- The first iteration of this solver counts a hyperplane from before the search and one
    from the search. -/
theorem hyperplanes_accounted_choosy :
    let s := solver.prepare choosyEngine (.hyperplanes [flat, tangent])
    let m := (s.solve choosyEngine).1.master
    m.session.iterations.iterations.map (fun it => (it.number, it.added)) = [(1, 2)] ∧
    m.store.ledger.entries.map (·.iteration) = [0, 1] ∧
    ∃ r, (s.solve choosyEngine).2 = .ok r ∧ r.hyperplanes = 2 ∧
      ∀ it ∈ m.session.iterations.iterations, it.added =
        m.store.ledger.countUnder it.number +
          if it.number = 1 then m.store.ledger.countUnder 0 else 0 := by
  intro s m
  have hcreate : Solver.create choosyEngine problem Settings.withCuttingPlanes tables
      (.still ⟨0⟩) = .ok solver := Eq.trans rfl create_eq_solver
  obtain ⟨r, -, hr, hreported, htotal, hadded⟩ := Solver.hyperplanes_accounted hcreate
    [.hyperplanes [flat, tangent]]
  -- The flat hyperplane has a small right-hand side, so the engine refuses its row.
  have hsize : m.store.ledger.size = 2 := by decide +kernel
  exact ⟨by decide +kernel, by decide +kernel, r, hr (.inr nofun),
    (hreported.trans htotal).trans hsize, hadded⟩

end Parabola

end OuterApprox
