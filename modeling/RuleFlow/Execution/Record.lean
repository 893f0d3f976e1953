import RuleFlow.Rule.Codec
import RuleFlow.Walk.Outputs
/-! # Execution records

What is kept of one run of a rule.  A record tells for which rule and asset and by what the rule was run, when, how
it ended and what its nodes gave out. -/
namespace RuleFlow

structure ExecutedAction where
  nodeId : String
  output : Json

structure ExecutionRecord where
  id : String
  ruleId : String
  tenantId : String
  assetId : String
  triggerType : String
  triggerData : Json
  startedAt : Instant
  completedAt : Instant
  durationMs : UInt64
  success : Bool
  result : Option Json
  error : Option String
  actions : List ExecutedAction

namespace ExecutedAction

def decoder : Decoder ExecutedAction :=
  .record [{ name := "nodeId" }, { name := "output" }] fun g => do
    let nodeId ← g.required "nodeId" .string
    let output ← g.required "output" .json
    return ⟨nodeId, output⟩

def members (a : ExecutedAction) : List (String × Json) := [("nodeId", .string a.nodeId), ("output", a.output)]

def ofOutputs (o : Outputs) : List ExecutedAction := o.map fun (node, output) => ⟨node, output⟩

end ExecutedAction

namespace ExecutionRecord

def decoder : Decoder ExecutionRecord :=
  .record [{ name := "id" }, { name := "ruleId" }, { name := "tenantId" }, { name := "assetId" },
      { name := "triggerType" }, { name := "triggerData" }, { name := "startedAt" }, { name := "completedAt" },
      { name := "durationMs" }, { name := "success" }, { name := "result" }, { name := "error" },
      { name := "actionsExecuted" }] fun g => do
    let id ← g.required "id" .string
    let ruleId ← g.required "ruleId" .string
    let tenantId ← g.required "tenantId" .string
    let assetId ← g.required "assetId" .string
    let triggerType ← g.required "triggerType" .string
    let triggerData ← g.required "triggerData" .json
    let startedAt ← g.required "startedAt" .instant
    let completedAt ← g.required "completedAt" .instant
    let durationMs ← g.required "durationMs" .uint64
    let success ← g.required "success" .bool
    let result ← g.optional "result" .json
    let error ← g.optional "error" .string
    let actions ← g.withDefault "actionsExecuted" [] (.list ExecutedAction.decoder)
    return ⟨id, ruleId, tenantId, assetId, triggerType, triggerData, startedAt, completedAt, durationMs, success,
      result, error, actions⟩

/-- The members of a record, in the order in which a record file has them. -/
def members (r : ExecutionRecord) : List (String × Json) :=
  [("id", .string r.id), ("ruleId", .string r.ruleId), ("tenantId", .string r.tenantId),
    ("assetId", .string r.assetId), ("triggerType", .string r.triggerType), ("triggerData", r.triggerData),
    ("startedAt", r.startedAt.toJson), ("completedAt", r.completedAt.toJson),
    ("durationMs", .ofUInt64 r.durationMs), ("success", .bool r.success)] ++
  Json.optionalMember "result" (fun v => v) r.result ++ Json.optionalMember "error" Json.string r.error ++
  [("actionsExecuted", .array (r.actions.map fun a => .object a.members))]

def toJson (r : ExecutionRecord) : Json := .ofMembers r.members

def fileText (r : ExecutionRecord) : String := (Json.object r.members).pretty 0

end ExecutionRecord

end RuleFlow
