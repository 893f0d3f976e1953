import RuleFlow.Json.Value
/-! # JSON documents

A document is what a JSON text spells before it is given a meaning: members stand in written order, a key may be
repeated, and a number beyond every float or a text with half a surrogate pair is kept as a leaf without a value.
Such leaves do no harm where a member is not looked at.  `Document.value?` reads a document as a value. -/
namespace RuleFlow

/-- The content of a JSON text; a leaf without a value is `none`. -/
inductive Document
  | null
  | bool (b : Bool)
  | number (n : Option Json.Number)
  | string (s : Option String)
  | array (items : List Document)
  | object (members : List (Option String × Document))
  deriving Inhabited

namespace Document

/-- Arrays and objects may be nested this deep in what is read of a text. -/
def maxDepth : Nat := 127

mutual

/-- The value of a document with at most `depth` levels of nesting; of equal keys the last counts. -/
def valueWithin (depth : Nat) : Document → Option Json
  | .null => some .null
  | .bool b => some (.bool b)
  | .number n => n.map .number
  | .string s => s.map .string
  | .array items =>
    if depth = 0 then none else (itemsWithin (depth - 1) items).map .array
  | .object members =>
    if depth = 0 then none else (membersWithin (depth - 1) members).map fun ms => .object (Json.Object.ofList ms)

def itemsWithin (depth : Nat) : List Document → Option (List Json)
  | [] => some []
  | d :: rest => do
    let v ← valueWithin depth d
    let vs ← itemsWithin depth rest
    return v :: vs

def membersWithin (depth : Nat) : List (Option String × Document) → Option (List (String × Json))
  | [] => some []
  | (k, d) :: rest => do
    let key ← k
    let v ← valueWithin depth d
    let vs ← membersWithin depth rest
    return (key, v) :: vs

end

def value? (d : Document) : Option Json := d.valueWithin maxDepth

mutual

def ofJson : Json → Document
  | .null => .null
  | .bool b => .bool b
  | .number n => .number (some n)
  | .string s => .string (some s)
  | .array items => .array (ofItems items)
  | .object members => .object (ofMembers members)

def ofItems : List Json → List Document
  | [] => []
  | v :: rest => ofJson v :: ofItems rest

def ofMembers : List (String × Json) → List (Option String × Document)
  | [] => []
  | (k, v) :: rest => (some k, ofJson v) :: ofMembers rest

end

end RuleFlow.Document
