/-!
# Phases of handling an event

The phases the callback passes through while it handles an event, the reasons
for which it stops a search, and the steps at which an engine can fail it.

## Main definitions

* `Phase`: Where the callback stands.
* `StopReason`: Why a search is stopped.
* `EventStep`: What was asked of the engine.
-/

namespace OuterApprox

/-- Where the callback stands in handling an event. -/
inductive Phase where
  /-- Waiting for an event. -/
  | idle
  /-- Reading the event. -/
  | evaluatingNode
  /-- Updating the bounds. -/
  | updatingBounds
  /-- Choosing and adding cuts. -/
  | generatingCuts
  /-- Comparing with gaps and limits. -/
  | checkingTermination
  deriving DecidableEq, Repr

/-- The name in reports. -/
def Phase.label : Phase → String
  | idle => "Idle"
  | evaluatingNode => "EvaluatingNode"
  | updatingBounds => "UpdatingBounds"
  | generatingCuts => "GeneratingCuts"
  | checkingTermination => "CheckingTermination"

/-- Why a search is stopped. -/
inductive StopReason where
  /-- The absolute gap is closed. -/
  | absoluteGap
  /-- The relative gap is closed. -/
  | relativeGap
  /-- Iterations ran out. -/
  | iterationLimit
  /-- Time ran out. -/
  | timeLimit
  deriving DecidableEq, Repr

/-- The reason in words. -/
def StopReason.text : StopReason → String
  | absoluteGap => "absolute gap tolerance met"
  | relativeGap => "relative gap tolerance met"
  | iterationLimit => "iteration limit reached"
  | timeLimit => "time limit reached"

/-- What was asked of the engine when it failed. -/
inductive EventStep where
  /-- The bound of the search. -/
  | readBound
  /-- The number of explored nodes. -/
  | readExplored
  /-- The number of open nodes. -/
  | readOpen
  /-- Whether the node is solved. -/
  | readNodeStatus
  /-- The relaxation of the node. -/
  | readRelaxation
  /-- The objective of the solution. -/
  | readObjective
  /-- The values of the solution. -/
  | readValues
  /-- Taking a hyperplane. -/
  | addHyperplane
  /-- Taking a no-good cut. -/
  | addIntegerCut
  /-- Taking the incumbent. -/
  | setIncumbent
  /-- Taking the cutoff. -/
  | setCutoff
  deriving DecidableEq, Repr

/-- The step in words. -/
def EventStep.text : EventStep → String
  | readBound => "reading objective bound"
  | readExplored => "reading explored nodes"
  | readOpen => "reading open nodes"
  | readNodeStatus => "reading node status"
  | readRelaxation => "reading node relaxation"
  | readObjective => "reading solution objective"
  | readValues => "reading solution values"
  | addHyperplane => "adding lazy hyperplane"
  | addIntegerCut => "adding lazy integer cut"
  | setIncumbent => "setting incumbent"
  | setCutoff => "setting cutoff"

end OuterApprox
