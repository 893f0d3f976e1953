import RuleFlow.Expression.Token
/-! # Trees of expressions

Literals, paths into the scope, and the operators on them. -/
namespace RuleFlow.Expression

/-- The members of the scope at which a path may begin. -/
inductive Root | telemetry | attributes | computed | asset
  deriving DecidableEq, Repr

def Root.name : Root → String
  | .telemetry => "telemetry"
  | .attributes => "attributes"
  | .computed => "computed"
  | .asset => "asset"

def Root.all : List Root := [.telemetry, .attributes, .computed, .asset]

def Root.ofName? (name : String) : Option Root := Root.all.find? fun r => r.name = name

/-- A step of a path: a member by its key, or an item by its index. -/
inductive Segment
  | key (name : String)
  | index (n : Nat)
  deriving DecidableEq, Repr

inductive Unary | not | neg
  deriving DecidableEq, Repr

/-- The operators that need the values of both operands. -/
inductive Binary | eq | ne | lt | le | gt | ge | add | sub | mul | div | rem
  deriving DecidableEq, Repr

def Binary.name : Binary → String
  | .eq => "Eq" | .ne => "NotEq"
  | .lt => "Lt" | .le => "Le" | .gt => "Gt" | .ge => "Ge"
  | .add => "Add" | .sub => "Sub" | .mul => "Mul" | .div => "Div" | .rem => "Rem"

inductive Tree
  | literal (value : Json)
  | path (root : Root) (segments : List Segment)
  | unary (op : Unary) (operand : Tree)
  | binary (op : Binary) (lhs rhs : Tree)
  | and (lhs rhs : Tree)
  | or (lhs rhs : Tree)

namespace Tree

def operators : Tree → Nat
  | .literal _ => 0
  | .path _ _ => 0
  | .unary _ e => e.operators
  | .binary _ l r => l.operators + r.operators + 1
  | .and l r => l.operators + r.operators + 1
  | .or l r => l.operators + r.operators + 1

/-- The greatest number of unary operators on a way from the top to a leaf. -/
def unaryDepth : Tree → Nat
  | .literal _ => 0
  | .path _ _ => 0
  | .unary _ e => e.unaryDepth + 1
  | .binary _ l r => max l.unaryDepth r.unaryDepth
  | .and l r => max l.unaryDepth r.unaryDepth
  | .or l r => max l.unaryDepth r.unaryDepth

/-- The greatest number of nodes on a way from the top to a leaf. -/
def height : Tree → Nat
  | .literal _ => 1
  | .path _ _ => 1
  | .unary _ e => e.height + 1
  | .binary _ l r => max l.height r.height + 1
  | .and l r => max l.height r.height + 1
  | .or l r => max l.height r.height + 1

def roots : Tree → List Root
  | .literal _ => []
  | .path r _ => [r]
  | .unary _ e => e.roots
  | .binary _ l r => l.roots ++ r.roots
  | .and l r => l.roots ++ r.roots
  | .or l r => l.roots ++ r.roots

end Tree

end RuleFlow.Expression
