import OuterApprox.BoundLedger
import OuterApprox.Callback.Basic
import OuterApprox.Callback.Handle
import OuterApprox.Callback.Phase
import OuterApprox.Candidate
import OuterApprox.Clock
import OuterApprox.Cut.Discard
import OuterApprox.Cut.Hyperplane
import OuterApprox.Cut.Ledger
import OuterApprox.Cut.Linearize
import OuterApprox.Cut.NoGood
import OuterApprox.Cut.Store
import OuterApprox.Decimal.Magnitude
import OuterApprox.Decimal.Rounded
import OuterApprox.Decimal.Shortest
import OuterApprox.Diagnostic
import OuterApprox.Diagnostic.Text
import OuterApprox.Duration
import OuterApprox.Engine.Basic
import OuterApprox.Engine.Enumeration
import OuterApprox.Engine.Event
import OuterApprox.Engine.Scripted
import OuterApprox.Engine.Tabular
import OuterApprox.Error
import OuterApprox.Heuristic.FixedInteger
import OuterApprox.Heuristic.PrimalSearch
import OuterApprox.Interior
import OuterApprox.IterationLedger
import OuterApprox.LineSearch
import OuterApprox.Master.Basic
import OuterApprox.Master.Repair
import OuterApprox.Problem.Basic
import OuterApprox.Problem.Constraint
import OuterApprox.Problem.Deviation
import OuterApprox.Problem.Expression
import OuterApprox.Problem.Function
import OuterApprox.Problem.Integrality
import OuterApprox.Problem.Summary
import OuterApprox.Proofs.Admission
import OuterApprox.Proofs.AffineRows
import OuterApprox.Proofs.Bookkeeping
import OuterApprox.Proofs.BoundCrossing
import OuterApprox.Proofs.BoundOrder
import OuterApprox.Proofs.BoundRuns
import OuterApprox.Proofs.Bracket
import OuterApprox.Proofs.ClockReadings
import OuterApprox.Proofs.ClosedIterations
import OuterApprox.Proofs.Convexity
import OuterApprox.Proofs.Course
import OuterApprox.Proofs.CutAccount
import OuterApprox.Proofs.CutMirror
import OuterApprox.Proofs.CutPoints
import OuterApprox.Proofs.CutRecord
import OuterApprox.Proofs.Depth
import OuterApprox.Proofs.DoubleReflection
import OuterApprox.Proofs.DoubleRounding
import OuterApprox.Proofs.Enqueueing
import OuterApprox.Proofs.ExactArithmetic
import OuterApprox.Proofs.FailedReads
import OuterApprox.Proofs.FinalStatus
import OuterApprox.Proofs.FixedIntegerRuns
import OuterApprox.Proofs.Gist
import OuterApprox.Proofs.Incumbent
import OuterApprox.Proofs.IncumbentHandover
import OuterApprox.Proofs.InitialHyperplanes
import OuterApprox.Proofs.InteriorPoint
import OuterApprox.Proofs.Lasting
import OuterApprox.Proofs.Linearization
import OuterApprox.Proofs.Margins
import OuterApprox.Proofs.Masking
import OuterApprox.Proofs.Narrowing
import OuterApprox.Proofs.NoGood
import OuterApprox.Proofs.NoGoodQueue
import OuterApprox.Proofs.NoGoodRow
import OuterApprox.Proofs.NodeCount
import OuterApprox.Proofs.Normalizing
import OuterApprox.Proofs.NumberOrder
import OuterApprox.Proofs.OuterApproximation
import OuterApprox.Proofs.PrimalLine
import OuterApprox.Proofs.Ranking
import OuterApprox.Proofs.Recording
import OuterApprox.Proofs.Reflection
import OuterApprox.Proofs.Rejection
import OuterApprox.Proofs.Relaxation
import OuterApprox.Proofs.RelaxationCap
import OuterApprox.Proofs.Repetition
import OuterApprox.Proofs.Restoration
import OuterApprox.Proofs.RowCalls
import OuterApprox.Proofs.ScalarOrder
import OuterApprox.Proofs.Scaling
import OuterApprox.Proofs.Segment
import OuterApprox.Proofs.Separation
import OuterApprox.Proofs.SoundLedger
import OuterApprox.Proofs.StopRequest
import OuterApprox.Proofs.Tally
import OuterApprox.Proofs.Taylor
import OuterApprox.Proofs.TurnSteps
import OuterApprox.Proofs.Violation
import OuterApprox.Proofs.WholeNumbers
import OuterApprox.Scalar
import OuterApprox.Scalar.Double
import OuterApprox.Scalar.Exact
import OuterApprox.Selection
import OuterApprox.Session
import OuterApprox.Settings.Basic
import OuterApprox.Settings.Lookup
import OuterApprox.Settings.Validation
import OuterApprox.Solver
import OuterApprox.SparseVector
import OuterApprox.Status
import OuterApprox.Text.CodeRange
import OuterApprox.Text.Combining
import OuterApprox.Text.Layout
import OuterApprox.Text.Quoted
import OuterApprox.Text.Unassigned
import OuterApprox.Word
