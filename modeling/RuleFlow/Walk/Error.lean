import RuleFlow.Node.Compile
import RuleFlow.Storage.Error
/-! # Errors of runs

The causes for which a run of a rule fails. -/
namespace RuleFlow

inductive RunError
  | ruleNotFound (rule : String)
  | assetNotFound (asset : String)
  | missingTrigger
  | invalidNode (cause : CompileError)
  | nonNumericOperand (operand : String)
  | divisionByZero (node : String)
  | emptyOperands (node operation : String)
  | formulaFailed (formula details : String)
  | cycleDetected (node : String)
  | timeout (ms : Nat)
  | storage (cause : StorageError)
  deriving DecidableEq, Repr

namespace RunError

def message : RunError → String
  | .ruleNotFound rule => "error-assetrules-engine-1 Rule not found or inactive: " ++ rule
  | .assetNotFound asset => "error-assetrules-engine-2 Asset not found: " ++ asset
  | .missingTrigger => "error-assetrules-engine-3 No trigger node found in rule"
  | .invalidNode cause => cause.message
  | .nonNumericOperand operand => "error-assetrules-engine-8 Operand is not numeric: " ++ operand
  | .divisionByZero node => "error-assetrules-engine-9 Division by zero in " ++ node
  | .emptyOperands node operation =>
    "error-assetrules-engine-10 Math node " ++ node ++ " needs at least one operand for " ++ operation
  | .formulaFailed formula details =>
    "error-assetrules-engine-11 Formula evaluation failed: " ++ formula ++ ": " ++ details
  | .cycleDetected node => "error-assetrules-engine-12 Cycle detected at node " ++ node
  | .timeout ms => "error-assetrules-engine-13 Rule execution exceeded " ++ toString ms ++ "ms"
  | .storage cause => cause.message

/-- Whether the rule itself is wrong, so that it fails until it is edited. -/
def isConfigurationError : RunError → Bool
  | .missingTrigger => true
  | .invalidNode _ => true
  | .cycleDetected _ => true
  | _ => false

end RunError

end RuleFlow
