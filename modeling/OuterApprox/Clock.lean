import OuterApprox.Duration

/-!
# Clocks

How much time has passed since a session began is looked up again and again while a search runs,
and each time it is as much as before or more. A clock is what these looks find: the time that the
next one finds, and how much later each look after it is. It never goes back because there is no
such thing as a negative wait; apart from that, looks may find any times at all.

## Main definitions

* `Clock`: What looks at the time find.
* `Clock.tick`, `Clock.after`: The clock once it was looked at.
* `Clock.restart`: The clock of a new session.
* `Clock.reached`: Whether a look finds that time is up.
-/

namespace OuterApprox

/-- What looks at the time find. -/
@[ext]
structure Clock where
  /-- The time since the start, as the next look finds it. -/
  elapsed : Duration
  /-- How much time passes before each look after that one. -/
  ahead : Nat → Duration

namespace Clock

/-- The clock once it was looked at. -/
def tick (c : Clock) : Clock := ⟨c.elapsed + c.ahead 0, fun i => c.ahead (i + 1)⟩

/-- The clock, started anew. What has passed so far does not count any more. -/
def restart (c : Clock) : Clock := ⟨c.ahead 0, fun i => c.ahead (i + 1)⟩

/-- The clock once it was looked at a number of times. -/
def after (c : Clock) : Nat → Clock
  | 0 => c
  | n + 1 => c.tick.after n

/-- A clock that stands still. -/
def still (elapsed : Duration) : Clock := ⟨elapsed, fun _ => .zero⟩

/-- Whether time is up by the next look. Without a limit it never is. -/
def reached (c : Clock) (limit : Option Duration) : Bool :=
  limit.any fun l => decide (l.nanoseconds ≤ c.elapsed.nanoseconds)

end Clock

end OuterApprox
