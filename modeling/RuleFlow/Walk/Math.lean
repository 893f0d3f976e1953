import RuleFlow.Walk.Error
import RuleFlow.Walk.Outputs
/-! # Math nodes

All operands are resolved to numbers before anything is computed.  Sums begin at zero and products at one;
differences and quotients begin at the first operand and need one. -/
namespace RuleFlow

def Operand.resolve (outputs : Outputs) : Operand → Except RunError Float
  | .value v =>
    match v.toFloat? with
    | some x => .ok x
    | none => .error (.nonNumericOperand v.compact)
  | .output node =>
    let v := (outputs.get? node).getD .null
    match v.toFloat? with
    | some x => .ok x
    | none => .error (.nonNumericOperand ("output of " ++ node ++ " (" ++ v.compact ++ ")"))

namespace MathOperation

/-- Divides by one number after the other, none of which may be zero. -/
def divideBy (node : String) : Float → List Float → Except RunError Float
  | x, [] => .ok x
  | x, y :: rest => if y == 0.0 then .error (.divisionByZero node) else divideBy node (x / y) rest

def fold (o : MathOperation) (node : String) (values : List Float) : Except RunError Float :=
  match o, values with
  | .add, xs => .ok (xs.foldl (· + ·) 0.0)
  | .multiply, xs => .ok (xs.foldl (· * ·) 1.0)
  | .subtract, x :: rest => .ok (rest.foldl (· - ·) x)
  | .divide, x :: rest => divideBy node x rest
  | o, [] => .error (.emptyOperands node o.name)

def evaluate (o : MathOperation) (node : String) (operands : List Operand) (outputs : Outputs) :
    Except RunError Json := do
  let values ← operands.mapM (Operand.resolve outputs)
  let x ← o.fold node values
  match Json.Number.ofResult? x with
  | some n => return .number n
  | none => .error (.nonNumericOperand (Decimal.messageText x))

end MathOperation

end RuleFlow
