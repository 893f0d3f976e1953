import RuleFlow.Expression.Tree
/-! # Parsing expressions

Six levels of binary operators, all grouped to the left, above the unary operators and the primary expressions.
Two bounds keep trees small: parentheses and unary operators may be nested 64 deep with the expression itself, and
an expression has at most 256 binary operators.  The first bound is the argument on which the parser recurs, the
second is a budget that each binary operator takes from. -/
namespace RuleFlow.Expression

/-- How deep parentheses and unary operators may be nested, with one level for the expression. -/
def maxDepth : Nat := 64

/-- How many binary and logical operators an expression may have. -/
def maxOperators : Nat := 256

/-- What is left to parse: the tokens, and the operators that may still come. -/
structure Rest where
  tokens : List Token
  budget : Nat

/-- A parser gives a tree and what is left, or an error. -/
abbrev Parser := Rest → Except Error (Tree × Rest)

def unexpected (tokens : List Token) (expected : String) : Error := .unexpectedToken (describeNext tokens) expected

/-- A level of binary operators: the tree that an operator of the level makes of its operands. -/
abbrev Level := Operator → Option (Tree → Tree → Tree)

/-- The levels, from the loosest to the tightest. -/
def Level.or : Level
  | .or => some .or
  | _ => none

def Level.and : Level
  | .and => some .and
  | _ => none

def Level.equality : Level
  | .strictEq => some (.binary .eq)
  | .strictNe => some (.binary .ne)
  | .eq => some (.binary .eq)
  | .ne => some (.binary .ne)
  | _ => none

def Level.comparison : Level
  | .le => some (.binary .le)
  | .ge => some (.binary .ge)
  | .lt => some (.binary .lt)
  | .gt => some (.binary .gt)
  | _ => none

def Level.additive : Level
  | .add => some (.binary .add)
  | .sub => some (.binary .sub)
  | _ => none

def Level.multiplicative : Level
  | .mul => some (.binary .mul)
  | .div => some (.binary .div)
  | .rem => some (.binary .rem)
  | _ => none

/-- Operators of a level and their right operands after a first operand.  Every operator takes one from the
budget, so that a chain is never longer than the budget at its beginning. -/
def chain (level : Level) (operand : Parser) : Nat → Tree → Parser
  | fuel, lhs, s =>
    match s.tokens with
    | .op o :: rest =>
      match level o with
      | none => .ok (lhs, s)
      | some build =>
        match fuel, s.budget with
        | fuel + 1, budget + 1 => do
          let (rhs, s) ← operand ⟨rest, budget⟩
          chain level operand fuel (build lhs rhs) s
        | _, _ => .error .tooDeep
    | _ => .ok (lhs, s)

def leftAssociative (level : Level) (operand : Parser) : Parser := fun s => do
  let (lhs, s) ← operand s
  chain level operand s.budget lhs s

def binaryLevels (operand : Parser) : Parser :=
  leftAssociative .or <| leftAssociative .and <| leftAssociative .equality <| leftAssociative .comparison <|
    leftAssociative .additive <| leftAssociative .multiplicative operand

/-- The index that a number in brackets stands for; an index is an unsigned word. -/
def index? (x : Float) : Option Nat :=
  match Binary64.integer? x with
  | some n => if 0 ≤ n then some (min n.toNat (UInt64.size - 1)) else none
  | none => none

def segments : List Token → Except Error (List Segment × List Token)
  | .dot :: .ident name :: rest => do
    let (path, rest) ← segments rest
    return (.key name :: path, rest)
  | .dot :: rest => .error (unexpected rest "property name")
  | .lbracket :: .string name :: .rbracket :: rest => do
    let (path, rest) ← segments rest
    return (.key name :: path, rest)
  | .lbracket :: .string _ :: rest => .error (unexpected rest Token.rbracket.describe)
  | .lbracket :: .number x :: rest =>
    match index? x, rest with
    | some n, .rbracket :: rest => do
      let (path, rest) ← segments rest
      return (.index n :: path, rest)
    | some _, rest => .error (unexpected rest Token.rbracket.describe)
    | none, _ => .error (.invalidNumber (Decimal.messageText x))
  | .lbracket :: rest => .error (unexpected rest "string or index")
  | rest => .ok ([], rest)

/-- A literal, or a path if the name is a root of the scope. -/
def named (name : String) (rest : List Token) : Except Error (Tree × List Token) :=
  if name = "true" then .ok (.literal (.bool true), rest)
  else if name = "false" then .ok (.literal (.bool false), rest)
  else if name = "null" then .ok (.literal .null, rest)
  else
    match Root.ofName? name with
    | some root => do
      let (path, rest) ← segments rest
      return (.path root path, rest)
    | none => .error (.unknownIdentifier name)

/-- An operand of the tightest binary level: unary operators before a literal, a path or an expression in
parentheses.  The argument counts the levels of nesting that are left. -/
def operand : Nat → Parser
  | depth, s =>
    match s.tokens with
    | .op .not :: rest =>
      match depth with
      | 0 => .error .tooDeep
      | depth + 1 => do
        let (e, s) ← operand depth { s with tokens := rest }
        return (.unary .not e, s)
    | .op .sub :: rest =>
      match depth with
      | 0 => .error .tooDeep
      | depth + 1 => do
        let (e, s) ← operand depth { s with tokens := rest }
        return (.unary .neg e, s)
    | .lparen :: rest =>
      match depth with
      | 0 => .error .tooDeep
      | depth + 1 => do
        let (e, s) ← binaryLevels (operand depth) { s with tokens := rest }
        match s.tokens with
        | .rparen :: rest => return (e, { s with tokens := rest })
        | tokens => .error (unexpected tokens Token.rparen.describe)
    | .number x :: rest =>
      match Json.Number.ofResult? x with
      | some n => .ok (.literal (.number n), { s with tokens := rest })
      | none => .error (.invalidNumber (Decimal.messageText x))
    | .string value :: rest => .ok (.literal (.string value), { s with tokens := rest })
    | .ident name :: rest => do
      let (e, rest) ← named name rest
      return (e, { s with tokens := rest })
    | tokens => .error (unexpected tokens "expression")

/-- An expression, with the given number of levels for it and what is nested in it. -/
def expression : Nat → Parser
  | 0, _ => .error .tooDeep
  | depth + 1, s => binaryLevels (operand depth) s

def parseTokens (tokens : List Token) : Except Error Tree := do
  let (e, s) ← expression maxDepth ⟨tokens, maxOperators⟩
  match s.tokens with
  | [] => return e
  | rest => .error (unexpected rest (describeNext []))

def parse (source : String) : Except Error Tree := do
  let tokens ← tokenize source
  parseTokens tokens

end RuleFlow.Expression
