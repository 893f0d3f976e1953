import RuleFlow.Journal
import RuleFlow.Json.Writer
import RuleFlow.Instant
/-! # Printed entries

An entry of the journal is printed on a line, as a JSON object or as plain text. -/
namespace RuleFlow.Journal.Entry

def jsonLine (e : Entry) (time : Instant) : String :=
  (Json.object
    [("timestamp", .string time.text), ("level", .string e.level.name),
      ("fields", .object (("message", .string e.message) :: e.fields)), ("target", .string e.part.path)]).compact

def fieldText (name : String) : Json → String
  | .string s => name ++ "=" ++ s
  | v => name ++ "=" ++ v.compact

def plainLine (e : Entry) (time : Instant) : String :=
  " ".intercalate
    ([time.text, e.level.name, e.part.path ++ ":", e.message] ++ e.fields.map fun (name, v) => fieldText name v)

end RuleFlow.Journal.Entry
