import RuleFlow.Rule.Basic
/-! # JSON form of rules

Each type has a decoder and the list of its members as they are written, in the order of the fields. -/
namespace RuleFlow

def Json.optionalMember (name : String) (f : α → Json) : Option α → List (String × Json)
  | some a => [(name, f a)]
  | none => []

def Instant.toJson (t : Instant) : Json := .string t.text

def Rule.Status.names : List (String × Rule.Status) :=
  [("DRAFT", .draft), ("ACTIVE", .active), ("INACTIVE", .inactive), ("DISABLED", .disabled), ("ERROR", .error)]

def Rule.Status.name : Rule.Status → String
  | .draft => "DRAFT"
  | .active => "ACTIVE"
  | .inactive => "INACTIVE"
  | .disabled => "DISABLED"
  | .error => "ERROR"

/-- A float is written as a float even if it is integral. -/
def Json.ofFinite (x : FiniteFloat) : Json := .number (.float x.1 x.2)

namespace Position

def decoder : Decoder Position :=
  .record [{ name := "x" }, { name := "y" }] fun g => do
    let x ← g.required "x" .float
    let y ← g.required "y" .float
    return ⟨x, y⟩

def members (p : Position) : List (String × Json) := [("x", .ofFinite p.x), ("y", .ofFinite p.y)]

end Position

namespace NodeDefinition

/-- Reads a node; all but its id and type have defaults. -/
def decoder : Decoder NodeDefinition :=
  .record [{ name := "id" }, { name := "type" }, { name := "position" }, { name := "config" }, { name := "inputs" },
      { name := "outputs" }] fun g => do
    let id ← g.required "id" .string
    let type ← g.required "type" .string
    let position ← g.withDefault "position" .origin Position.decoder
    let config ← g.withDefault "config" [] .members
    let inputs ← g.withDefault "inputs" [] (.list .string)
    let outputs ← g.withDefault "outputs" [] (.list .string)
    return ⟨id, type, position, config, inputs, outputs⟩

def members (n : NodeDefinition) : List (String × Json) :=
  [("id", .string n.id), ("type", .string n.type), ("position", .ofMembers n.position.members),
    ("config", .object n.config), ("inputs", .strings n.inputs), ("outputs", .strings n.outputs)]

def toJson (n : NodeDefinition) : Json := .ofMembers n.members

end NodeDefinition

namespace Connection

/-- Reads a connection; its id and the names of its two ends may be absent. -/
def decoder : Decoder Connection :=
  .record [{ name := "id" }, { name := "fromNode" }, { name := "fromPort" }, { name := "toNode" },
      { name := "toPort" }] fun g => do
    let id ← g.withDefault "id" "" .string
    let fromNode ← g.required "fromNode" .string
    let fromOutput ← g.withDefault "fromPort" "" .string
    let toNode ← g.required "toNode" .string
    let toInput ← g.withDefault "toPort" "" .string
    return ⟨id, fromNode, fromOutput, toNode, toInput⟩

def members (c : Connection) : List (String × Json) :=
  [("id", .string c.id), ("fromNode", .string c.fromNode), ("fromPort", .string c.fromOutput),
    ("toNode", .string c.toNode), ("toPort", .string c.toInput)]

def toJson (c : Connection) : Json := .ofMembers c.members

end Connection

namespace Rule

def Settings.default : Settings := ⟨none, false⟩

def Settings.decoder : Decoder Settings :=
  .record [{ name := "timeoutMs" }, { name := "branchOnFalse" }] fun g => do
    let timeoutMs ← g.optional "timeoutMs" .uint64
    let branchOnFalse ← g.withDefault "branchOnFalse" false .bool
    return ⟨timeoutMs, branchOnFalse⟩

def Settings.members (s : Settings) : List (String × Json) :=
  Json.optionalMember "timeoutMs" Json.ofUInt64 s.timeoutMs ++ [("branchOnFalse", .bool s.branchOnFalse)]

/-- Reads a rule; connections may also be called edges. -/
def decoder : Decoder Rule :=
  .record [{ name := "id" }, { name := "tenantId" }, { name := "name" }, { name := "description" },
      { name := "status" }, { name := "priority" }, { name := "appliesToAssetTypes" },
      { name := "appliesToAssets" }, { name := "nodes" }, { name := "connections", aliases := ["edges"] },
      { name := "config" }, { name := "createdAt" }] fun g => do
    let id ← g.required "id" .string
    let tenantId ← g.required "tenantId" .string
    let name ← g.required "name" .string
    let description ← g.optional "description" .string
    let status ← g.withDefault "status" .draft (.oneOf Status.names)
    let priority ← g.withDefault "priority" 0 .uint32
    let appliesToAssetTypes ← g.withDefault "appliesToAssetTypes" [] (.list .string)
    let appliesToAssets ← g.optional "appliesToAssets" (.list .string)
    let nodes ← g.withDefault "nodes" [] (.list NodeDefinition.decoder)
    let connections ← g.withDefault "connections" [] (.list Connection.decoder)
    let settings ← g.withDefault "config" .default Settings.decoder
    let createdAt ← g.optional "createdAt" .instant
    return ⟨id, tenantId, name, description, status, priority, appliesToAssetTypes, appliesToAssets, nodes,
      connections, settings, createdAt⟩

def members (r : Rule) : List (String × Json) :=
  [("id", .string r.id), ("tenantId", .string r.tenantId), ("name", .string r.name)] ++
  Json.optionalMember "description" Json.string r.description ++
  [("status", .string r.status.name), ("priority", .ofUInt64 r.priority.toUInt64),
    ("appliesToAssetTypes", .strings r.appliesToAssetTypes)] ++
  Json.optionalMember "appliesToAssets" Json.strings r.appliesToAssets ++
  [("nodes", .array (r.nodes.map NodeDefinition.toJson)),
    ("connections", .array (r.connections.map Connection.toJson)), ("config", .ofMembers r.settings.members)] ++
  Json.optionalMember "createdAt" Instant.toJson r.createdAt

def toJson (r : Rule) : Json := .ofMembers r.members

end Rule

end RuleFlow
