import RuleFlow.Json.Writer
/-! # Errors of expressions

The causes for which a text is no expression, or an expression has no value in a scope. -/
namespace RuleFlow.Expression

/-- Why an expression is refused or has no value. -/
inductive Error
  | unexpectedCharacter (character : Char) (position : Nat)
  | unterminatedString (position : Nat)
  | invalidNumber (literal : String)
  | unexpectedToken (found expected : String)
  | unknownIdentifier (name : String)
  | propertyAccess (property target : String)
  | typeMismatch (details : String)
  | divisionByZero
  | tooDeep
  deriving DecidableEq, Repr

def Error.message (e : Error) : String :=
  "error-assetrules-expression-" ++
  match e with
  | .unexpectedCharacter c position => "1 Unexpected character '" ++ toString c ++ "' at " ++ toString position
  | .unterminatedString position => "2 Unterminated string starting at " ++ toString position
  | .invalidNumber literal => "3 Invalid number literal: " ++ literal
  | .unexpectedToken found expected => "4 Unexpected token: " ++ found ++ ", expected " ++ expected
  | .unknownIdentifier name => "5 Unknown identifier: " ++ name
  | .propertyAccess property target => "6 Cannot read property '" ++ property ++ "' of " ++ target
  | .typeMismatch details => "7 Type mismatch: " ++ details
  | .divisionByZero => "8 Division by zero"
  | .tooDeep => "9 Expression is nested too deeply"

end RuleFlow.Expression
