import RuleFlow.Node.Basic
/-! # Alarms

Alarms that rules raise for assets. -/
namespace RuleFlow

/-- An alarm for an asset, raised by a node of a rule. -/
structure Alarm where
  tenantId : String
  assetId : String
  ruleId : String
  nodeId : String
  template : AlarmTemplate
  raisedAt : Instant
  deriving DecidableEq

namespace Alarm

def members (a : Alarm) : List (String × Json) :=
  [("tenantId", .string a.tenantId), ("assetId", .string a.assetId), ("ruleId", .string a.ruleId),
    ("nodeId", .string a.nodeId), ("alarmCode", .string a.template.code), ("name", .string a.template.name)] ++
  Json.optionalMember "message" Json.string a.template.message ++
  [("severity", .string a.template.severity), ("raisedAt", a.raisedAt.toJson)]

def toJson (a : Alarm) : Json := .ofMembers a.members

def entry (a : Alarm) : Journal.Entry where
  part := .alarms
  level := .info
  message := "Alarm created by rule"
  fields :=
    [("tenant.id", .string a.tenantId), ("asset.id", .string a.assetId), ("rule.id", .string a.ruleId),
      ("node.id", .string a.nodeId), ("alarm.code", .string a.template.code), ("alarm.name", .string a.template.name),
      ("alarm.message", .string (a.template.message.getD "")), ("alarm.severity", .string a.template.severity)]

end Alarm

/-- Where alarms go: into the journal, or into a list in the order in which they were raised. -/
inductive AlarmSink
  | journal
  | memory (alarms : Array Alarm)

namespace AlarmSink

def raise (s : AlarmSink) (a : Alarm) : AlarmSink × List Journal.Entry :=
  match s with
  | .journal => (.journal, [a.entry])
  | .memory alarms => (.memory (alarms.push a), [])

def alarms : AlarmSink → List Alarm
  | .journal => []
  | .memory alarms => alarms.toList

end AlarmSink

end RuleFlow
