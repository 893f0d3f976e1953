import RuleFlow.Rule.Codec
import RuleFlow.Journal
/-! # Compiled nodes

What the nodes of a rule do, with their configuration in types.  A node plays one of four roles: triggers start a
walk, conditions may end a branch, transforms compute outputs, and actions have effects. -/
namespace RuleFlow

/-- What has happened to an asset that may start rules; also the types of trigger nodes. -/
inductive TriggerKind | telemetryChange | attributeChange | statusChange | schedule | manual
  deriving DecidableEq, Repr

namespace TriggerKind

def name : TriggerKind → String
  | .telemetryChange => "telemetry_change"
  | .attributeChange => "attribute_change"
  | .statusChange => "status_change"
  | .schedule => "schedule"
  | .manual => "manual"

def all : List TriggerKind := [.telemetryChange, .attributeChange, .statusChange, .schedule, .manual]

def ofName? (name : String) : Option TriggerKind := all.find? fun k => k.name = name

end TriggerKind

structure Trigger where
  kind : TriggerKind
  telemetryKey : Option String
  attributeKey : Option String
  deriving DecidableEq

namespace Trigger

/-- The key that events of the kind of the trigger have to carry. -/
def filter (t : Trigger) : Option String :=
  match t.kind with
  | .telemetryChange => t.telemetryKey
  | .attributeChange => t.attributeKey
  | _ => none

def fires (t : Trigger) (kind : TriggerKind) (key : Option String) : Bool :=
  t.kind = kind && (t.filter.isNone || t.filter == key)

end Trigger

inductive MathOperation | add | subtract | multiply | divide
  deriving DecidableEq, Repr

namespace MathOperation

def name : MathOperation → String
  | .add => "add"
  | .subtract => "subtract"
  | .multiply => "multiply"
  | .divide => "divide"

def all : List MathOperation := [.add, .subtract, .multiply, .divide]

def ofName? (name : String) : Option MathOperation := all.find? fun o => o.name = name

end MathOperation

/-- An operand of a math node: a value of the configuration, or the output of a node. -/
inductive Operand
  | value (v : Json)
  | output (node : String)

/-- Where an action takes its value from: the configuration, or the output of the node at its first input. -/
inductive ValueSource
  | literal (v : Json)
  | output (node : Option String)

structure AlarmTemplate where
  code : String
  name : String
  message : Option String
  severity : String
  deriving DecidableEq

inductive NodeKind
  | trigger (t : Trigger)
  | condition (expression : String)
  | getTelemetry (key : String)
  | getAttribute (key : String)
  | math (operation : MathOperation) (operands : List Operand)
  | formula (source : String)
  | setComputed (field : String) (value : ValueSource)
  | setAttribute (name : String) (value : ValueSource)
  | setStatus (status : String)
  | createAlarm (alarm : AlarmTemplate)
  | log (message : String) (level : Level)

inductive Role | trigger | condition | transform | action
  deriving DecidableEq, Repr

namespace NodeKind

def role : NodeKind → Role
  | .trigger _ => .trigger
  | .condition _ => .condition
  | .getTelemetry _ => .transform
  | .getAttribute _ => .transform
  | .math _ _ => .transform
  | .formula _ => .transform
  | .setComputed _ _ => .action
  | .setAttribute _ _ => .action
  | .setStatus _ => .action
  | .createAlarm _ => .action
  | .log _ _ => .action

def typeName : NodeKind → String
  | .trigger t => t.kind.name
  | .condition _ => "if"
  | .getTelemetry _ => "get_telemetry"
  | .getAttribute _ => "get_attribute"
  | .math _ _ => "math"
  | .formula _ => "formula"
  | .setComputed _ _ => "set_computed"
  | .setAttribute _ _ => "set_attribute"
  | .setStatus _ => "set_status"
  | .createAlarm _ => "create_alarm"
  | .log _ _ => "log"

end NodeKind

structure Node where
  id : String
  kind : NodeKind

def Node.role (n : Node) : Role := n.kind.role

end RuleFlow
