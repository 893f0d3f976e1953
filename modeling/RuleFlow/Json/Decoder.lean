import RuleFlow.Json.Document
import RuleFlow.Instant
/-! # Typed reading of documents

A decoder reads a typed value from a document, given how many levels of nesting may still be opened.  A record is
read from an object, whose unknown members are ignored and whose known ones may not be repeated, or from an array of
its fields in their order, whose last ones may be missing. -/
namespace RuleFlow

/-- Reads a typed value from a document, within levels of nesting. -/
abbrev Decoder (α : Type) := Nat → Document → Option α

/-- A finite float, which is what a field for a number without integer kind holds. -/
abbrev FiniteFloat := { x : Float // x.isFinite = true }

namespace Decoder

def run (decoder : Decoder α) (d : Document) : Option α := decoder Document.maxDepth d

def ofJson (decoder : Decoder α) (v : Json) : Option α := decoder.run (Document.ofJson v)

def json : Decoder Json := fun depth d => d.valueWithin depth

def string : Decoder String
  | _, .string s => s
  | _, _ => none

def bool : Decoder Bool
  | _, .bool b => some b
  | _, _ => none

def natBelow (bound : Nat) : Decoder Nat
  | _, .number (some (.int n _)) => if 0 ≤ n ∧ n.toNat < bound then some n.toNat else none
  | _, _ => none

def uint32 : Decoder UInt32 := fun depth d => (natBelow UInt32.size depth d).map UInt32.ofNat

def uint64 : Decoder UInt64 := fun depth d => (natBelow UInt64.size depth d).map UInt64.ofNat

def float : Decoder FiniteFloat
  | _, .number (some n) => if h : n.toFloat.isFinite = true then some ⟨n.toFloat, h⟩ else none
  | _, _ => none

def members : Decoder Json.Object := fun depth d =>
  match d.valueWithin depth with
  | some (.object ms) => some ms
  | _ => none

def instant : Decoder Instant := fun depth d => (string depth d).bind Instant.parse

def nullable (decoder : Decoder α) : Decoder (Option α)
  | _, .null => some none
  | depth, d => (decoder depth d).map some

def list (decoder : Decoder α) : Decoder (List α)
  | depth + 1, .array items => items.mapM (decoder depth)
  | _, _ => none

/-- One of several names, either as a text or as the only key of an object with the value `null`. -/
def oneOf (names : List (String × α)) : Decoder α
  | _, .string (some s) => names.lookup s
  | _ + 1, .object [(some s, .null)] => names.lookup s
  | _, _ => none

/-- A field of a record: its name and the other names that are accepted for it. -/
structure Field where
  name : String
  aliases : List String := []

/-- The fields of a record that a document gives, by their names. -/
structure Given where
  depth : Nat
  fields : List (String × Document)

namespace Given

def required (g : Given) (name : String) (decoder : Decoder α) : Option α :=
  (g.fields.lookup name).bind (decoder g.depth)

def withDefault (g : Given) (name : String) (default : α) (decoder : Decoder α) : Option α :=
  match g.fields.lookup name with
  | some d => decoder g.depth d
  | none => some default

def optional (g : Given) (name : String) (decoder : Decoder α) : Option (Option α) :=
  g.withDefault name none (nullable decoder)

end Given

/-- Adds a member of an object to the given fields: an unknown key is ignored, a repeated field is refused. -/
def addMember (names : List Field) (given : List (String × Document)) (m : Option String × Document) :
    Option (List (String × Document)) := do
  let key ← m.1
  match names.find? fun f => f.name = key || f.aliases.contains key with
  | none => some given
  | some f => if (given.lookup f.name).isSome then none else some (given ++ [(f.name, m.2)])

def record (names : List Field) (read : Given → Option α) : Decoder α
  | depth + 1, .object members => do
    let fields ← members.foldlM (addMember names) []
    read ⟨depth, fields⟩
  | depth + 1, .array items =>
    if items.length ≤ names.length then read ⟨depth, (names.map (·.name)).zip items⟩ else none
  | _, _ => none

end Decoder

end RuleFlow
