import RuleFlow.Storage.Files
/-! # Errors of stores

The causes for which a store does not answer, with their messages and their form in entries of the journal. -/
namespace RuleFlow

inductive StorageError
  | unavailable (details : String)
  | writeRejected (details : String)
  | invalidInput (details : String)
  | inputOutput (cause : FileError)
  deriving DecidableEq, Repr

namespace StorageError

def message (e : StorageError) : String :=
  "error-assetrules-storage-" ++
  match e with
  | .unavailable details => "1 Storage unavailable: " ++ details
  | .writeRejected details => "2 Write rejected: " ++ details
  | .invalidInput details => "3 Invalid input data: " ++ details
  | .inputOutput cause => "4 I/O failed: " ++ cause.text

def escapeChar (c : Char) : List Char :=
  if c = '"' then ['\\', '"']
  else if c = '\\' then ['\\', '\\']
  else if c = '\n' then ['\\', 'n']
  else if c = '\r' then ['\\', 'r']
  else if c = '\t' then ['\\', 't']
  else if c.toNat = 0 then ['\\', '0']
  else if c.toNat < 0x20 ∨ (0x7F ≤ c.toNat ∧ c.toNat < 0xA0) then
    ['\\', 'u', '\x7b'] ++ Nat.toDigits 16 c.toNat ++ ['\x7d']
  else [c]

def quote (s : String) : String := "\"" ++ String.ofList (s.toList.flatMap escapeChar) ++ "\""

/-- A refusal by the file system, as entries of the journal show it. -/
def describeFileError (e : FileError) : String :=
  match e.cause with
  | (some number, name, text) =>
    "Os \x7b code: " ++ toString number ++ ", kind: " ++ name ++ ", message: " ++ quote text ++ " \x7d"
  | (none, name, text) => "Error \x7b kind: " ++ name ++ ", message: " ++ quote text ++ " \x7d"

/-- The cause of an error and its details, as entries of the journal show them. -/
def describe (e : StorageError) : String :=
  let form (name details : String) := name ++ " \x7b details: " ++ quote details ++ " \x7d"
  match e with
  | .unavailable details => form "Unavailable" details
  | .writeRejected details => form "WriteRejected" details
  | .invalidInput details => form "InvalidInput" details
  | .inputOutput cause => "Io \x7b source: " ++ describeFileError cause ++ " \x7d"

end StorageError

end RuleFlow
