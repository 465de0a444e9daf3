import OuterApprox.Diagnostic
import OuterApprox.Settings.Basic

/-!
# The interior point

The point that candidates are projected from. The first one is installed by the
caller. Afterwards a better primal solution that lies strictly inside, and
deeper than the present point, may replace it or draw it halfway; each solution
is considered once.

## Main definitions

* `InteriorTracker`: The point and the solution considered last.
* `InteriorTracker.successor?`: What a solution makes of the point.
* `InteriorTracker.consider`: Look at the incumbent.
* `InteriorTracker.remarks`: What there is to say about that.
-/

namespace OuterApprox

/-- The interior point and the solution considered last. -/
structure InteriorTracker (α : Type) where
  /-- The point, if one is known. -/
  current : Option (Candidate α)
  /-- The solution considered last. -/
  lastSeen : Option (Point α)

namespace InteriorTracker

variable {α : Type}

/-- No point. -/
def empty : InteriorTracker α := ⟨none, none⟩

/-- Install a point. -/
def install (t : InteriorTracker α) (c : Candidate α) : InteriorTracker α :=
  { t with current := some c }

variable [Scalar α]

/-- Whether a candidate is strictly inside and deeper than the present point. -/
def isDeeper (t : InteriorTracker α) (c : Candidate α) : Bool :=
  match c.deviation with
  | none => false
  | some d =>
    decide (d.value < 0.0) && !(t.current.any fun now => decide (now.deviationValue ≤ d.value))

/-- The point drawn halfway to a candidate, or the candidate itself if the
    midpoint is not strictly inside. -/
def halfway (p : Problem α) (now c : Candidate α) : Candidate α :=
  let mid := p.candidate (Point.midpoint now.point c.point) c.iteration
  if mid.deviation.any (fun d => decide (d.value < 0.0)) then mid else c

/-- The point that a candidate leads to, if it changes anything. -/
def successor? (t : InteriorTracker α) (p : Problem α) (rule : InteriorUpdate)
    (c : Candidate α) : Option (Candidate α) :=
  if !t.isDeeper c then none
  else
    match t.current, rule with
    | some now, .average => some (halfway p now c)
    | _, _ => some c

/-- Whether the incumbent is to be looked at: the rule allows changes, there is
    an incumbent, and it is not the one considered last. -/
def pending? (t : InteriorTracker α) (rule : InteriorUpdate)
    (incumbent : Option (PrimalSolution α)) : Option (Candidate α) :=
  if rule = .keep then none
  else
    match incumbent with
    | none => none
    | some s => if t.lastSeen.any (· == s.candidate.point) then none else some s.candidate

/-- Look at the incumbent. The second component tells whether the point
    changed. -/
def consider (t : InteriorTracker α) (p : Problem α) (rule : InteriorUpdate)
    (incumbent : Option (PrimalSolution α)) : InteriorTracker α × Bool :=
  match t.pending? rule incumbent with
  | none => (t, false)
  | some c =>
    -- Whatever comes of it, this solution is not looked at again.
    match t.successor? p rule c with
    | none => ({ t with lastSeen := some c.point }, false)
    | some next => ({ current := some next, lastSeen := some c.point }, true)

/-- What there is to say after looking at the incumbent. -/
def remarks (after : InteriorTracker α × Bool) : List (Diagnostic α) :=
  match after with
  | ({ current := some c, .. }, true) => [.interiorUpdated c.deviationValue]
  | _ => []

end InteriorTracker

end OuterApprox
