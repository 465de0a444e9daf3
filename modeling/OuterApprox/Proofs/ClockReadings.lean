import OuterApprox.Clock

/-!
# What clocks read

Looks at a clock find times that do not go down, and any times that do not go down are found by
the looks at some clock. So what is proved of a run for every clock is proved for every course
that time can take, whether it runs out before the run, in the middle of it or not at all.

All that a run asks its clock is whether a limit is reached. Clocks that answer this alike, look
by look, make no difference to each other, and each of them might be replaced by a clock that
tells nothing else: it reads zero until the limit is reached, and the limit from there on.

## Main definitions

* `Clock.Later`: One clock is what another one has become.
* `Clock.Steady`: The answer whether time is up does not change.
* `Clock.Agree`: Two clocks answer alike.
* `Clock.coarse`: The clock that only tells whether time is up.

## Theorems

* `Clock.nanoseconds_after_mono`: Clocks do not go back.
* `Clock.exists_clock`: They may read anything else.
* `Clock.Later.reached`: Once time is up, it stays up.
* `Clock.coarse_tick`, `Clock.coarse_coarse`, `Clock.reached_coarse`: The coarse clock goes along
  with the other one, and answers like it.
* `Clock.coarse_eq_iff`: Coarse clocks are the same exactly if the others answer alike.
-/

namespace OuterApprox

namespace Duration

theorem nanoseconds_add (a b : Duration) :
    (a + b).nanoseconds = a.nanoseconds + b.nanoseconds := rfl

end Duration

namespace Clock

theorem after_succ (c : Clock) (n : Nat) : c.after (n + 1) = (c.after n).tick := by
  induction n generalizing c with
  | zero => rfl
  | succ n ih => exact ih c.tick

theorem after_add (c : Clock) (m n : Nat) : c.after (m + n) = (c.after m).after n := by
  induction m generalizing c with
  | zero => rw [Nat.zero_add]; rfl
  | succ m ih => rw [Nat.succ_add]; exact ih c.tick

theorem elapsed_after_succ (c : Clock) (n : Nat) :
    (c.after (n + 1)).elapsed = (c.after n).elapsed + c.ahead n := by
  induction n generalizing c with
  | zero => rfl
  | succ n ih => exact ih c.tick

/-- A later look finds as much time as an earlier one, or more. -/
theorem nanoseconds_after_mono (c : Clock) {m n : Nat} (h : m ≤ n) :
    (c.after m).elapsed.nanoseconds ≤ (c.after n).elapsed.nanoseconds := by
  induction h with
  | refl => exact Nat.le_refl _
  | step _ ih =>
    rw [elapsed_after_succ]
    exact Nat.le_trans ih (Nat.le_add_right _ _)

/-- Any times that do not go down are read off some clock. -/
theorem exists_clock (readings : Nat → Duration)
    (h : ∀ n, (readings n).nanoseconds ≤ (readings (n + 1)).nanoseconds) :
    ∃ c : Clock, ∀ n, (c.after n).elapsed = readings n := by
  refine ⟨⟨readings 0, fun i =>
    ⟨(readings (i + 1)).nanoseconds - (readings i).nanoseconds⟩⟩, fun n => ?_⟩
  induction n with
  | zero => rfl
  | succ n ih =>
    rw [elapsed_after_succ, ih, Duration.ext_iff, Duration.nanoseconds_add]
    exact Nat.add_sub_cancel' (h n)

/-! ## Later clocks -/

/-- One clock is what another one has become after some looks at it. -/
def Later (c c' : Clock) : Prop := ∃ n, c' = c.after n

theorem Later.refl (c : Clock) : c.Later c := ⟨0, rfl⟩

theorem later_tick (c : Clock) : c.Later c.tick := ⟨1, rfl⟩

theorem Later.trans {a b c : Clock} (h1 : a.Later b) (h2 : b.Later c) : a.Later c := by
  obtain ⟨m, rfl⟩ := h1
  obtain ⟨n, rfl⟩ := h2
  exact ⟨m + n, (after_add a m n).symm⟩

theorem reached_eq_true_iff (c : Clock) (limit : Option Duration) :
    c.reached limit = true ↔ ∃ l ∈ limit, l.nanoseconds ≤ c.elapsed.nanoseconds := by
  simp only [reached, Option.any_eq_true, decide_eq_true_eq, Option.mem_def]

/-- Once time is up, it stays up. -/
theorem Later.reached {c c' : Clock} (h : c.Later c') {limit : Option Duration}
    (hup : c.reached limit = true) : c'.reached limit = true := by
  obtain ⟨n, rfl⟩ := h
  obtain ⟨l, hl, hle⟩ := (c.reached_eq_true_iff limit).1 hup
  refine ((c.after n).reached_eq_true_iff limit).2 ⟨l, hl, Nat.le_trans hle ?_⟩
  exact c.nanoseconds_after_mono n.zero_le

/-- Every look at a clock finds time up, or none does. -/
def Steady (limit : Option Duration) (c : Clock) : Prop :=
  ∀ n, (c.after n).reached limit = c.reached limit

theorem Steady.of_later {limit : Option Duration} {c c' : Clock} (h : c.Steady limit)
    (hlater : c.Later c') : c'.Steady limit ∧ c'.reached limit = c.reached limit := by
  obtain ⟨m, rfl⟩ := hlater
  refine ⟨fun n => ?_, h m⟩
  rw [← after_add, h, h]

theorem after_still (elapsed : Duration) (n : Nat) : (still elapsed).after n = still elapsed := by
  induction n with
  | zero => rfl
  | succ n ih => rw [after_succ, ih]; rfl

theorem steady_still (limit : Option Duration) (elapsed : Duration) :
    (still elapsed).Steady limit := fun n => by rw [after_still]

/-! ## Coarse clocks -/

/-- Two clocks answer alike, look by look. -/
def Agree (limit : Option Duration) (c c' : Clock) : Prop :=
  ∀ n, (c.after n).reached limit = (c'.after n).reached limit

/-- A time that only tells whether a limit is reached. -/
def coarseTime (limit : Option Duration) (d : Duration) : Duration :=
  limit.elim .zero fun l => if l.nanoseconds ≤ d.nanoseconds then l else .zero

/-- The clock that only tells whether time is up. -/
def coarse (limit : Option Duration) (c : Clock) : Clock where
  elapsed := coarseTime limit c.elapsed
  ahead i := ⟨(coarseTime limit (c.after (i + 1)).elapsed).nanoseconds -
    (coarseTime limit (c.after i).elapsed).nanoseconds⟩

theorem coarseTime_of_le {l d : Duration} (h : l.nanoseconds ≤ d.nanoseconds) :
    coarseTime (some l) d = l := if_pos h

theorem coarseTime_of_not_le {l d : Duration} (h : ¬ l.nanoseconds ≤ d.nanoseconds) :
    coarseTime (some l) d = .zero := if_neg h

theorem coarseTime_mono (limit : Option Duration) {d d' : Duration}
    (h : d.nanoseconds ≤ d'.nanoseconds) :
    (coarseTime limit d).nanoseconds ≤ (coarseTime limit d').nanoseconds := by
  cases limit with
  | none => exact Nat.le_refl _
  | some l =>
    by_cases hreached : l.nanoseconds ≤ d.nanoseconds
    · have hsame := (coarseTime_of_le hreached).trans
        (coarseTime_of_le (Nat.le_trans hreached h)).symm
      exact Nat.le_of_eq (congrArg Duration.nanoseconds hsame)
    · rw [coarseTime_of_not_le hreached]
      exact Nat.zero_le _

/-- A limit is reached by a time if and only if it is reached by the coarse one. -/
theorem le_coarseTime_iff (l d : Duration) :
    l.nanoseconds ≤ (coarseTime (some l) d).nanoseconds ↔ l.nanoseconds ≤ d.nanoseconds := by
  by_cases hreached : l.nanoseconds ≤ d.nanoseconds
  · rw [coarseTime_of_le hreached]
    exact iff_of_true (Nat.le_refl _) hreached
  · -- A limit that is not reached is not zero.
    rw [coarseTime_of_not_le hreached]
    exact iff_of_false (fun hzero => hreached (Nat.le_trans hzero (Nat.zero_le _))) hreached

theorem coarseTime_coarseTime (limit : Option Duration) (d : Duration) :
    coarseTime limit (coarseTime limit d) = coarseTime limit d := by
  cases limit with
  | none => rfl
  | some l =>
    by_cases hreached : l.nanoseconds ≤ d.nanoseconds
    · exact (coarseTime_of_le ((le_coarseTime_iff l d).2 hreached)).trans
        (coarseTime_of_le hreached).symm
    · exact (coarseTime_of_not_le fun h => hreached ((le_coarseTime_iff l d).1 h)).trans
        (coarseTime_of_not_le hreached).symm

/-- The coarse clock goes along with the other one. -/
theorem coarse_tick (limit : Option Duration) (c : Clock) :
    (c.coarse limit).tick = c.tick.coarse limit := by
  refine Clock.ext (Duration.ext ?_) rfl
  exact Nat.add_sub_cancel' (coarseTime_mono limit (c.nanoseconds_after_mono (Nat.zero_le 1)))

theorem coarse_after (limit : Option Duration) (c : Clock) (n : Nat) :
    (c.coarse limit).after n = (c.after n).coarse limit := by
  induction n generalizing c with
  | zero => rfl
  | succ n ih => exact (congrArg (Clock.after · n) (coarse_tick limit c)).trans (ih c.tick)

theorem coarse_coarse (limit : Option Duration) (c : Clock) :
    (c.coarse limit).coarse limit = c.coarse limit := by
  have htime : ∀ n, coarseTime limit ((c.coarse limit).after n).elapsed =
      coarseTime limit (c.after n).elapsed := by
    intro n
    rw [coarse_after]
    exact coarseTime_coarseTime limit _
  refine Clock.ext (htime 0) (funext fun i => ?_)
  simp only [coarse] at htime ⊢
  rw [htime (i + 1), htime i]

/-- The coarse clock answers like the other one. -/
theorem reached_coarse (limit : Option Duration) (c : Clock) :
    (c.coarse limit).reached limit = c.reached limit := by
  cases limit with
  | none => rfl
  | some l => exact decide_eq_decide.2 (le_coarseTime_iff l c.elapsed)

/-- A coarse time is told by whether the limit is reached. -/
theorem coarseTime_congr {limit : Option Duration} {c c' : Clock}
    (h : c.reached limit = c'.reached limit) :
    coarseTime limit c.elapsed = coarseTime limit c'.elapsed := by
  cases limit with
  | none => rfl
  | some l =>
    simp only [reached, Option.any_some, decide_eq_decide] at h
    simp only [coarseTime, Option.elim_some, h]

/-- Coarse clocks are the same exactly if the others answer alike. -/
theorem coarse_eq_iff (limit : Option Duration) (c c' : Clock) :
    c.coarse limit = c'.coarse limit ↔ c.Agree limit c' := by
  refine ⟨fun h n => ?_, fun h => ?_⟩
  · rw [← reached_coarse, ← coarse_after, h, coarse_after, reached_coarse]
  · have htime : ∀ n, coarseTime limit (c.after n).elapsed =
        coarseTime limit (c'.after n).elapsed := fun n => coarseTime_congr (h n)
    refine Clock.ext (htime 0) (funext fun i => ?_)
    simp only [coarse, htime]

/-- Without a limit there is nothing to disagree about. -/
theorem agree_none (c c' : Clock) : c.Agree none c' := fun _ => rfl

end Clock

end OuterApprox
