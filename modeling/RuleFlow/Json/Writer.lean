import RuleFlow.Json.Value
/-! # JSON texts of values

Two layouts: one without any blanks, and one with a line per item, indented by two blanks a level. -/
namespace RuleFlow.Json

def hexDigit (n : Nat) : Char := (Nat.toDigits 16 n).getLast?.getD '0'

/-- The escape of a character in a text: the quote, the backslash and the control characters have one. -/
def escapeChar (c : Char) : List Char :=
  if c = '"' then ['\\', '"']
  else if c = '\\' then ['\\', '\\']
  else if c = '\x08' then ['\\', 'b']
  else if c = '\x0c' then ['\\', 'f']
  else if c = '\n' then ['\\', 'n']
  else if c = '\r' then ['\\', 'r']
  else if c = '\t' then ['\\', 't']
  else if c.toNat < 0x20 then ['\\', 'u', '0', '0', hexDigit (c.toNat / 16), hexDigit (c.toNat % 16)]
  else [c]

def quote (s : String) : String := "\"" ++ String.ofList (s.toList.flatMap escapeChar) ++ "\""

mutual

def compact : Json → String
  | .null => "null"
  | .bool true => "true"
  | .bool false => "false"
  | .number n => n.text
  | .string s => quote s
  | .array items => "[" ++ compactItems items ++ "]"
  | .object members => "\x7b" ++ compactMembers members ++ "\x7d"

def compactItems : List Json → String
  | [] => ""
  | [v] => compact v
  | v :: rest => compact v ++ "," ++ compactItems rest

def compactMembers : List (String × Json) → String
  | [] => ""
  | [(k, v)] => quote k ++ ":" ++ compact v
  | (k, v) :: rest => quote k ++ ":" ++ compact v ++ "," ++ compactMembers rest

end

def lineBreak (level : Nat) : String := "\n" ++ String.ofList (List.replicate (2 * level) ' ')

mutual

def pretty (level : Nat) : Json → String
  | .array [] => "[]"
  | .array items => "[" ++ prettyItems (level + 1) items ++ lineBreak level ++ "]"
  | .object [] => "\x7b\x7d"
  | .object members => "\x7b" ++ prettyMembers (level + 1) members ++ lineBreak level ++ "\x7d"
  | .null => "null"
  | .bool true => "true"
  | .bool false => "false"
  | .number n => n.text
  | .string s => quote s

def prettyItems (level : Nat) : List Json → String
  | [] => ""
  | [v] => lineBreak level ++ pretty level v
  | v :: rest => lineBreak level ++ pretty level v ++ "," ++ prettyItems level rest

def prettyMembers (level : Nat) : List (String × Json) → String
  | [] => ""
  | [(k, v)] => lineBreak level ++ quote k ++ ": " ++ pretty level v
  | (k, v) :: rest => lineBreak level ++ quote k ++ ": " ++ pretty level v ++ "," ++ prettyMembers level rest

end

end RuleFlow.Json
