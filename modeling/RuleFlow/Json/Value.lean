import RuleFlow.Json.Number
/-! # JSON values

Values, the objects in them and the comparison by value.  The members of an object stand in the order of their
keys, each key once; `Object.insert` keeps that order, so that the order in which members were written is
forgotten. -/
namespace RuleFlow

inductive Json
  | null
  | bool (b : Bool)
  | number (n : Json.Number)
  | string (s : String)
  | array (items : List Json)
  | object (members : List (String × Json))
  deriving Inhabited

namespace Json

/-- The members of an object in the order of their keys. -/
abbrev Object := List (String × Json)

namespace Object

def get? (members : Object) (key : String) : Option Json := members.lookup key

def insert (key : String) (value : Json) : Object → Object
  | [] => [(key, value)]
  | (k, v) :: rest =>
    if key < k then (key, value) :: (k, v) :: rest
    else if key = k then (key, value) :: rest
    else (k, v) :: insert key value rest

/-- The object with the members of a list; of equal keys the last counts. -/
def ofList (members : List (String × Json)) : Object :=
  members.foldl (fun o m => o.insert m.1 m.2) []

def merge (base overlay : Object) : Object :=
  overlay.foldl (fun o m => o.insert m.1 m.2) base

end Object

def ofUInt64 (n : UInt64) : Json := .number (.ofUInt64 n)

/-- A count, which is far below the size of a word. -/
def count (n : Nat) : Json := ofUInt64 n.toUInt64

def ofMembers (members : List (String × Json)) : Json := .object (Object.ofList members)

def ofOption (f : α → Json) : Option α → Json
  | some a => f a
  | none => .null

def strings (xs : List String) : Json := .array (xs.map .string)

def typeName : Json → String
  | .null => "null"
  | .bool _ => "boolean"
  | .number _ => "number"
  | .string _ => "string"
  | .array _ => "array"
  | .object _ => "object"

def toFloat? : Json → Option Float
  | .number n => some n.toFloat
  | _ => none

/-- Whether a value counts as true in a condition: `null`, `false`, zero and the empty text do not. -/
def truthy : Json → Bool
  | .null => false
  | .bool b => b
  | .number n => n.toFloat != 0.0
  | .string s => s != ""
  | .array _ => true
  | .object _ => true

mutual

/-- Equality by value: numbers are compared as floats, so that `1` and `1.0` are equal at any depth. -/
def sameValue : Json → Json → Bool
  | .null, .null => true
  | .bool a, .bool b => a == b
  | .number a, .number b => a.toFloat == b.toFloat
  | .string a, .string b => a == b
  | .array a, .array b => sameItems a b
  | .object a, .object b => sameMembers a b
  | _, _ => false

def sameItems : List Json → List Json → Bool
  | [], [] => true
  | a :: as, b :: bs => sameValue a b && sameItems as bs
  | _, _ => false

/-- Objects are equal member by member, since both stand in the order of their keys. -/
def sameMembers : List (String × Json) → List (String × Json) → Bool
  | [], [] => true
  | (k, a) :: as, (l, b) :: bs => k == l && sameValue a b && sameMembers as bs
  | _, _ => false

end

end RuleFlow.Json
