import OuterApprox.Engine.Tabular

/-!
# Scripted engines

An engine that plays a script: the events and the ending of each search are
given beforehand, whatever the handler does, except that a search may heed the
request to stop.

## Main definitions

* `ScriptedSearch`: The script of one search.
* `playEvents`: Reporting its events.
* `scriptedEngine`: The engine.
-/

namespace OuterApprox

/-- The script of one search. -/
structure ScriptedSearch (α : Type) where
  /-- The events in order. -/
  events : List (Event α)
  /-- How it ends. -/
  status : Answer Status
  /-- The final bound. -/
  finalBound : Answer α
  /-- Whether requests to stop are ignored. -/
  ignoreAbort : Bool

variable {α : Type}

/-- Report the remaining events of a script, stopping early on request unless
    requests are ignored. -/
def playEvents (script : ScriptedSearch α) :
    List (Event α) → Tabular α → Search α (Tabular α)
  | [], m => .finish m script.status
  | e :: rest, m =>
    m.reporting e fun m calls =>
      if !script.ignoreAbort && calls.any Call.isAbort then .finish m (.ok .abort)
      else playEvents script rest m

/-- The engine that plays one script after the other, and the last one again when
    there are no more. -/
def scriptedEngine (scripts : List (ScriptedSearch α))
    (elastic : Answer (ElasticSolution α)) : Engine α (Tabular α) :=
  Tabular.engine
    (fun m =>
      match scripts[m.searches - 1]?.or scripts.getLast? with
      | none => .finish m (.error (.solveFailed "no run scripted"))
      | some script =>
        playEvents script script.events { m with finalBound := script.finalBound })
    (fun _ _ _ => elastic)

end OuterApprox
