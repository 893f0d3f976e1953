import RuleFlow.Expression.Parser
/-! # Values of expressions

A tree is evaluated in a scope, which is any JSON value.  Arithmetic and the order need two numbers, or for some
operators two texts; equality compares any two values. -/
namespace RuleFlow.Expression

/-- Reads one step of a path.  An absent member or item is `null`; values without members are refused. -/
def read (target : Json) (segment : Segment) : Except Error Json :=
  match target, segment with
  | .object members, .key name => .ok ((Json.Object.get? members name).getD .null)
  | .object members, .index n => .ok ((Json.Object.get? members (toString n)).getD .null)
  | .array items, .index n => .ok ((items[n]?).getD .null)
  | .array items, .key name => .ok (if name = "length" then Json.count items.length else .null)
  | other, .key name => .error (.propertyAccess name other.typeName)
  | other, .index n => .error (.propertyAccess (toString n) other.typeName)

def readRoot (scope : Json) (root : Root) : Json :=
  match scope with
  | .object members => (Json.Object.get? members root.name).getD .null
  | _ => .null

def numbers (op : Binary) (lhs rhs : Json) : Except Error (Float × Float) :=
  match lhs.toFloat?, rhs.toFloat? with
  | some a, some b => .ok (a, b)
  | _, _ =>
    .error (.typeMismatch
      ("operator " ++ op.name ++ " needs numbers, got " ++ lhs.typeName ++ " and " ++ rhs.typeName))

/-- The value of a computed number, which has to be finite. -/
def result (x : Float) : Except Error Json :=
  match Json.Number.ofResult? x with
  | some n => .ok (.number n)
  | none => .error (.typeMismatch "result is not a finite number")

/-- The order of two texts by code points, or of two numbers. -/
def compare (op : Binary) (ofTexts : String → String → Bool) (ofNumbers : Float → Float → Bool) (lhs rhs : Json) :
    Except Error Json :=
  match lhs, rhs with
  | .string a, .string b => .ok (.bool (ofTexts a b))
  | _, _ => do
    let (a, b) ← numbers op lhs rhs
    return .bool (ofNumbers a b)

def arithmetic (op : Binary) (f : Float → Float → Float) (lhs rhs : Json) : Except Error Json := do
  let (a, b) ← numbers op lhs rhs
  result (f a b)

def quotient (op : Binary) (f : Float → Float → Float) (lhs rhs : Json) : Except Error Json := do
  let (a, b) ← numbers op lhs rhs
  if b == 0.0 then .error .divisionByZero else result (f a b)

def applyBinary (op : Binary) (lhs rhs : Json) : Except Error Json :=
  match op with
  | .eq => .ok (.bool (Json.sameValue lhs rhs))
  | .ne => .ok (.bool (!Json.sameValue lhs rhs))
  | .lt => compare op (fun a b => decide (a < b)) (fun a b => decide (a < b)) lhs rhs
  | .le => compare op (fun a b => decide (a ≤ b)) (fun a b => decide (a ≤ b)) lhs rhs
  | .gt => compare op (fun a b => decide (b < a)) (fun a b => decide (b < a)) lhs rhs
  | .ge => compare op (fun a b => decide (b ≤ a)) (fun a b => decide (b ≤ a)) lhs rhs
  | .add =>
    match lhs, rhs with
    | .string a, .string b => .ok (.string (a ++ b))
    | _, _ => arithmetic op (· + ·) lhs rhs
  | .sub => arithmetic op (· - ·) lhs rhs
  | .mul => arithmetic op (· * ·) lhs rhs
  | .div => quotient op (· / ·) lhs rhs
  | .rem => quotient op Binary64.remainder lhs rhs

def applyUnary (op : Unary) (operand : Json) : Except Error Json :=
  match op with
  | .not => .ok (.bool (!operand.truthy))
  | .neg =>
    match operand.toFloat? with
    | some x => result (-x)
    | none => .error (.typeMismatch ("cannot negate " ++ operand.typeName))

/-- The value of a tree in a scope.  The right operand of a logical operator is only looked at if the left one does
not decide. -/
def Tree.eval (scope : Json) : Tree → Except Error Json
  | .literal v => .ok v
  | .path root steps => steps.foldlM read (readRoot scope root)
  | .unary op e => do applyUnary op (← e.eval scope)
  | .binary op l r => do
    let a ← l.eval scope
    let b ← r.eval scope
    applyBinary op a b
  | .and l r => do
    if (← l.eval scope).truthy then return .bool (← r.eval scope).truthy else return .bool false
  | .or l r => do
    if (← l.eval scope).truthy then return .bool true else return .bool (← r.eval scope).truthy

def Tree.holds (scope : Json) (e : Tree) : Except Error Bool := do return (← e.eval scope).truthy

end RuleFlow.Expression

namespace RuleFlow

structure Expression where
  source : String
  tree : Expression.Tree

namespace Expression

def ofSource (source : String) : Except Error Expression := do
  return ⟨source, ← parse source⟩

def eval (e : Expression) (scope : Json) : Except Error Json := e.tree.eval scope

def holds (e : Expression) (scope : Json) : Except Error Bool := e.tree.holds scope

end Expression

end RuleFlow
