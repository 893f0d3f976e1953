import RuleFlow.Node.Basic
/-! # Compiling nodes

A stored node is compiled by its type: the fields that the type needs are read from the configuration in a fixed
order, and the first one that is missing or wrong is the error. -/
namespace RuleFlow

inductive CompileError
  | unknownNodeType (type node : String)
  | missingField (field type : String)
  | invalidField (field type expected : String)
  | unknownOperation (operation : String)
  deriving DecidableEq, Repr

def CompileError.message (e : CompileError) : String :=
  "error-assetrules-engine-" ++
  match e with
  | .unknownNodeType type node => "4 Unknown node type: " ++ type ++ " at " ++ node
  | .missingField field type => "5 Missing required field: " ++ field ++ " in " ++ type
  | .invalidField field type expected =>
    "6 Invalid field type: " ++ field ++ " in " ++ type ++ ", expected " ++ expected
  | .unknownOperation operation => "7 Unknown math operation: " ++ operation

namespace NodeDefinition

/-- A text of the configuration; `null` and the empty text count as absent. -/
def optionalText (n : NodeDefinition) (field : String) : Except CompileError (Option String) :=
  match Json.Object.get? n.config field with
  | none => .ok none
  | some .null => .ok none
  | some (.string s) => .ok (if s = "" then none else some s)
  | some _ => .error (.invalidField field n.type "string")

def requiredText (n : NodeDefinition) (field : String) : Except CompileError String := do
  match ← n.optionalText field with
  | some s => return s
  | none => .error (.missingField field n.type)

def requiredArray (n : NodeDefinition) (field : String) : Except CompileError (List Json) :=
  match Json.Object.get? n.config field with
  | none => .error (.missingField field n.type)
  | some .null => .error (.missingField field n.type)
  | some (.array items) => .ok items
  | some _ => .error (.invalidField field n.type "array")

def operation (n : NodeDefinition) : Except CompileError MathOperation := do
  let name ← n.requiredText "operation"
  match MathOperation.ofName? name with
  | some o => return o
  | none => .error (.unknownOperation name)

def levelNames : List (String × Level) :=
  [("info", .info), ("debug", .debug), ("warn", .warn), ("warning", .warn), ("error", .error)]

def level (n : NodeDefinition) : Except CompileError Level := do
  match ← n.optionalText "level" with
  | none => return .info
  | some name =>
    match levelNames.lookup name with
    | some l => return l
    | none => .error (.invalidField "level" n.type "one of debug, info, warn, error")

/-- The value of an action: a `value` in the configuration, `null` included, goes before the first input. -/
def valueSource (n : NodeDefinition) : ValueSource :=
  match Json.Object.get? n.config "value" with
  | some v => .literal v
  | none => .output n.inputs.head?

end NodeDefinition

/-- An object with a text `nodeId` names a node, anything else is a value. -/
def Operand.ofJson (v : Json) : Operand :=
  match v with
  | .object members =>
    match Json.Object.get? members "nodeId" with
    | some (.string node) => .output node
    | _ => .value v
  | _ => .value v

def AlarmTemplate.defaultSeverity : String := "MEDIUM"

def NodeKind.defaultLogMessage : String := "Rule execution log"

namespace NodeKind

def ofDefinition (n : NodeDefinition) : Except CompileError NodeKind := do
  match n.type with
  | "if" => return .condition (← n.requiredText "expression")
  | "get_telemetry" => return .getTelemetry (← n.requiredText "telemetryKey")
  | "get_attribute" => return .getAttribute (← n.requiredText "attributeKey")
  | "math" =>
    let operation ← n.operation
    let operands ← n.requiredArray "operands"
    return .math operation (operands.map Operand.ofJson)
  | "formula" => return .formula (← n.requiredText "formula")
  | "set_computed" => return .setComputed (← n.requiredText "field") n.valueSource
  | "set_attribute" => return .setAttribute (← n.requiredText "attribute") n.valueSource
  | "set_status" => return .setStatus (← n.requiredText "status")
  | "create_alarm" =>
    let code ← n.requiredText "alarmCode"
    let name ← n.requiredText "name"
    let message ← n.optionalText "message"
    let severity ← n.optionalText "severity"
    return .createAlarm ⟨code, name, message, severity.getD AlarmTemplate.defaultSeverity⟩
  | "log" =>
    let message ← n.optionalText "message"
    let level ← n.level
    return .log (message.getD defaultLogMessage) level
  | type => .error (.unknownNodeType type n.id)

def trigger? (kind : TriggerKind) (n : NodeDefinition) : Except CompileError Trigger := do
  let telemetryKey ← n.optionalText "telemetryKey"
  let attributeKey ← n.optionalText "attributeKey"
  return ⟨kind, telemetryKey, attributeKey⟩

end NodeKind

def Node.compile (n : NodeDefinition) : Except CompileError Node := do
  match TriggerKind.ofName? n.type with
  | some kind => return ⟨n.id, .trigger (← NodeKind.trigger? kind n)⟩
  | none => return ⟨n.id, ← NodeKind.ofDefinition n⟩

end RuleFlow
