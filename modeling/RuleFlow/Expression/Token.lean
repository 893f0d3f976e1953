import RuleFlow.Expression.Error
import RuleFlow.Text.CharClass
/-! # Tokens of expressions

An expression is cut into numbers, texts, identifiers, operators and punctuation; blanks separate tokens and are
dropped.  The end of the list of tokens is the end of the expression. -/
namespace RuleFlow.Expression

inductive Operator
  | or | and
  | strictEq | strictNe | eq | ne
  | le | ge | lt | gt
  | add | sub
  | mul | div | rem
  | not
  deriving DecidableEq, Repr

def Operator.text : Operator → String
  | .or => "||" | .and => "&&"
  | .strictEq => "===" | .strictNe => "!==" | .eq => "==" | .ne => "!="
  | .le => "<=" | .ge => ">=" | .lt => "<" | .gt => ">"
  | .add => "+" | .sub => "-"
  | .mul => "*" | .div => "/" | .rem => "%"
  | .not => "!"

inductive Token
  | number (value : Float)
  | string (value : String)
  | ident (name : String)
  | op (operator : Operator)
  | lparen | rparen | lbracket | rbracket | dot
  deriving DecidableEq

def Token.describe : Token → String
  | .number x => "number " ++ Decimal.messageText x
  | .string s => "string '" ++ s ++ "'"
  | .ident name => "'" ++ name ++ "'"
  | .op o => "'" ++ o.text ++ "'"
  | .lparen => "'('"
  | .rparen => "')'"
  | .lbracket => "'['"
  | .rbracket => "']'"
  | .dot => "'.'"

/-- How a message names the next token or the end. -/
def describeNext : List Token → String
  | t :: _ => t.describe
  | [] => "end of expression"

def isIdentStart (c : Char) : Bool := Text.isLetter c || c = '_' || c = '$'

def isIdentPart (c : Char) : Bool := Text.isLetterOrNumeral c || c = '_' || c = '$'

/-- The characters of a number before its exponent; how many points there are is checked later. -/
def isNumberPart (c : Char) : Bool := Text.isDigit c || c = '.'

/-- The length of an exponent part at the beginning of a text: the letter, an optional sign and digits, of which
there must be one for the letter to belong to the number. -/
def exponentLength : List Char → Nat
  | e :: rest =>
    if e = 'e' ∨ e = 'E' then
      let sign := match rest with
        | s :: _ => if s = '+' ∨ s = '-' then 1 else 0
        | [] => 0
      let digits := ((rest.drop sign).takeWhile Text.isDigit).length
      if digits = 0 then 0 else 1 + sign + digits
    else 0
  | [] => 0

def numberLength (cs : List Char) : Nat :=
  let mantissa := (cs.takeWhile isNumberPart).length
  mantissa + exponentLength (cs.drop mantissa)

/-- The float that a number spells: digits with at most one point, and an exponent. -/
def numberValue? (literal : List Char) : Option Float :=
  let mantissa := literal.takeWhile isNumberPart
  let whole := mantissa.takeWhile Text.isDigit
  let fraction := (mantissa.dropWhile Text.isDigit).drop 1
  if fraction.all Text.isDigit then
    let exponent : Int := match literal.drop (mantissa.length + 1) with
      | '-' :: digits => -(Text.natOfDigits digits : Int)
      | '+' :: digits => Text.natOfDigits digits
      | digits => Text.natOfDigits digits
    let value := Decimal.toFloat ⟨Text.natOfDigits (whole ++ fraction), exponent - fraction.length⟩
    if value.isFinite then some value else none
  else none

/-- What a backslash and a character stand for inside a text: a few control characters, else the character. -/
def unescape : Char → Char
  | 'n' => '\n'
  | 't' => '\t'
  | 'r' => '\r'
  | c => c

/-- The content of a text up to its closing quote, and what follows it. -/
def quoted (quote : Char) : List Char → Option (List Char × List Char)
  | [] => none
  | c :: rest =>
    if c = quote then some ([], rest)
    else if c = '\\' then
      match rest with
      | d :: rest' => (quoted quote rest').map fun (s, r) => (unescape d :: s, r)
      | [] => none
    else (quoted quote rest).map fun (s, r) => (c :: s, r)

theorem length_quoted (quote : Char) {cs s rest : List Char} (h : quoted quote cs = some (s, rest)) :
    rest.length < cs.length := by
  fun_induction quoted quote cs generalizing s rest with
  | case1 => simp at h
  | case2 => simp_all
  | case3 _ _ _ ih =>
    obtain ⟨⟨s', r⟩, hq, he⟩ := Option.map_eq_some_iff.1 h
    have := ih hq
    simp_all
    omega
  | case4 => simp at h
  | case5 _ _ _ _ ih =>
    obtain ⟨⟨s', r⟩, hq, he⟩ := Option.map_eq_some_iff.1 h
    have := ih hq
    simp_all
    omega

/-- The punctuation mark or operator at the beginning of a text, and its length; the longest one counts. -/
def symbol? : List Char → Option (Token × Nat)
  | '(' :: _ => some (.lparen, 1)
  | ')' :: _ => some (.rparen, 1)
  | '[' :: _ => some (.lbracket, 1)
  | ']' :: _ => some (.rbracket, 1)
  | '.' :: _ => some (.dot, 1)
  | '|' :: '|' :: _ => some (.op .or, 2)
  | '&' :: '&' :: _ => some (.op .and, 2)
  | '=' :: '=' :: '=' :: _ => some (.op .strictEq, 3)
  | '=' :: '=' :: _ => some (.op .eq, 2)
  | '!' :: '=' :: '=' :: _ => some (.op .strictNe, 3)
  | '!' :: '=' :: _ => some (.op .ne, 2)
  | '!' :: _ => some (.op .not, 1)
  | '<' :: '=' :: _ => some (.op .le, 2)
  | '<' :: _ => some (.op .lt, 1)
  | '>' :: '=' :: _ => some (.op .ge, 2)
  | '>' :: _ => some (.op .gt, 1)
  | '+' :: _ => some (.op .add, 1)
  | '-' :: _ => some (.op .sub, 1)
  | '*' :: _ => some (.op .mul, 1)
  | '/' :: _ => some (.op .div, 1)
  | '%' :: _ => some (.op .rem, 1)
  | _ => none

/-- The token at the beginning of a text that does not begin with a blank, and what follows it.  The position
is that of the first character. -/
def scan (position : Nat) (c : Char) (rest : List Char) :
    Except Error (Token × { r : List Char // r.length ≤ rest.length }) :=
  if Text.isDigit c then
    let length := numberLength (c :: rest)
    let literal := (c :: rest).take length
    match numberValue? literal with
    | some x => .ok (.number x, ⟨rest.drop (length - 1), by simp⟩)
    | none => .error (.invalidNumber (String.ofList literal))
  else if c = '"' ∨ c = '\'' then
    match h : quoted c rest with
    | some (s, rest') => .ok (.string (String.ofList s), ⟨rest', Nat.le_of_lt (length_quoted c h)⟩)
    | none => .error (.unterminatedString position)
  else if isIdentStart c then
    .ok (.ident (String.ofList (c :: rest.takeWhile isIdentPart)),
      ⟨rest.dropWhile isIdentPart, (List.dropWhile_sublist _).length_le⟩)
  else
    match symbol? (c :: rest) with
    | some (t, length) => .ok (t, ⟨rest.drop (length - 1), by simp⟩)
    | none => .error (.unexpectedCharacter c position)

/-- The tokens of the last part of a text of `total` characters. -/
def tokensFrom (total : Nat) (cs : List Char) : Except Error (List Token) :=
  match cs with
  | [] => .ok []
  | c :: rest =>
    if Text.isBlank c then tokensFrom total rest
    else
      match scan (total - (rest.length + 1)) c rest with
      | .error e => .error e
      | .ok (t, ⟨rest', _h⟩) =>
        match tokensFrom total rest' with
        | .error e => .error e
        | .ok ts => .ok (t :: ts)
  termination_by cs.length
  decreasing_by
    · exact Nat.lt_succ_self _
    · exact Nat.lt_succ_of_le ‹_›

def tokenize (source : String) : Except Error (List Token) := tokensFrom source.length source.toList

end RuleFlow.Expression
