import RuleFlow.Rule.Codec
/-! # Assets

The state of an asset at one time.  A telemetry entry is a value or an object that wraps it with its time. -/
namespace RuleFlow

structure Asset where
  id : String
  tenantId : String
  typeId : String
  name : String
  status : String
  telemetry : Json.Object
  attributes : Json.Object
  computed : Json.Object

namespace Asset

/-- The value of a telemetry entry: the member `value` of an object that has one, else the entry. -/
def unwrap (entry : Json) : Json :=
  match entry with
  | .object members => (Json.Object.get? members "value").getD entry
  | _ => entry

def telemetryValue? (a : Asset) (key : String) : Option Json := (Json.Object.get? a.telemetry key).map unwrap

def attribute? (a : Asset) (key : String) : Option Json := Json.Object.get? a.attributes key

def decoder : Decoder Asset :=
  .record [{ name := "id" }, { name := "tenantId" }, { name := "assetTypeId" }, { name := "name" },
      { name := "status" }, { name := "telemetry", aliases := ["currentTelemetry"] }, { name := "attributes" },
      { name := "computedValues" }] fun g => do
    let id ← g.required "id" .string
    let tenantId ← g.required "tenantId" .string
    let typeId ← g.required "assetTypeId" .string
    let name ← g.withDefault "name" "" .string
    let status ← g.withDefault "status" "" .string
    let telemetry ← g.withDefault "telemetry" [] .members
    let attributes ← g.withDefault "attributes" [] .members
    let computed ← g.withDefault "computedValues" [] .members
    return ⟨id, tenantId, typeId, name, status, telemetry, attributes, computed⟩

def members (a : Asset) : List (String × Json) :=
  [("id", .string a.id), ("tenantId", .string a.tenantId), ("assetTypeId", .string a.typeId),
    ("name", .string a.name), ("status", .string a.status), ("telemetry", .object a.telemetry),
    ("attributes", .object a.attributes), ("computedValues", .object a.computed)]

def toJson (a : Asset) : Json := .ofMembers a.members

/-- What expressions see of an asset: telemetry by value, attributes, computed values, and the asset as a whole. -/
def scope (a : Asset) : Json :=
  .ofMembers
    [("telemetry", .object (a.telemetry.map fun (key, entry) => (key, unwrap entry))),
      ("attributes", .object a.attributes), ("computed", .object a.computed), ("asset", a.toJson)]

end Asset

/-- A change of an asset: attributes that replace all attributes, and a status. -/
structure AssetUpdate where
  attributes : Option Json.Object
  status : Option String

namespace AssetUpdate

def decoder : Decoder AssetUpdate :=
  .record [{ name := "attributes" }, { name := "status" }] fun g => do
    let attributes ← g.optional "attributes" .members
    let status ← g.optional "status" .string
    return ⟨attributes, status⟩

def members (u : AssetUpdate) : List (String × Json) :=
  Json.optionalMember "attributes" Json.object u.attributes ++ Json.optionalMember "status" Json.string u.status

def toJson (u : AssetUpdate) : Json := .ofMembers u.members

def apply (u : AssetUpdate) (a : Asset) : Asset :=
  { a with attributes := u.attributes.getD a.attributes, status := u.status.getD a.status }

end AssetUpdate

end RuleFlow
