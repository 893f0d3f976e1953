import RuleFlow.Backend.Faults
import RuleFlow.Tasks.Timeline
import RuleFlow.Main
import RuleFlow.Proofs.Codecs
import RuleFlow.Proofs.Engine.Dispatch
import RuleFlow.Proofs.Engine.Isolation
import RuleFlow.Proofs.Engine.Orders
import RuleFlow.Proofs.Engine.Recording
import RuleFlow.Proofs.Execution.Averages
import RuleFlow.Proofs.Execution.Directory
import RuleFlow.Proofs.Execution.Tallies
import RuleFlow.Proofs.Expression.Bounds
import RuleFlow.Proofs.Expression.Congruence
import RuleFlow.Proofs.Expression.Order
import RuleFlow.Proofs.Expression.Parsing
import RuleFlow.Proofs.Expression.Roots
import RuleFlow.Proofs.Graph.ReachSteps
import RuleFlow.Proofs.Intake.Balance
import RuleFlow.Proofs.Intake.Orderly
import RuleFlow.Proofs.Json.Equivalence
import RuleFlow.Proofs.Node.Fields
import RuleFlow.Proofs.Rule.Compilation
import RuleFlow.Proofs.Rule.SameRuns
import RuleFlow.Proofs.Rule.Unstarted
import RuleFlow.Proofs.Rule.Upserts
import RuleFlow.Proofs.Rule.ValidRun
import RuleFlow.Proofs.Rule.WellFormed
import RuleFlow.Proofs.Tasks.Shutdown
import RuleFlow.Proofs.Walk.Branches
import RuleFlow.Proofs.Walk.Deadline
import RuleFlow.Proofs.Walk.Math
import RuleFlow.Proofs.Walk.Race
import RuleFlow.Proofs.Walk.Readings
import RuleFlow.Proofs.Walk.Sessions
