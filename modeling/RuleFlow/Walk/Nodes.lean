import RuleFlow.Walk.Context
import RuleFlow.Walk.Math
import RuleFlow.Expression.Evaluation
/-! # What nodes do

The visit of a node by its kind.  Triggers give out the payload, conditions a truth value, transforms a value of the
snapshot, of other outputs or of the stored asset; actions act on the stores and give out `null`. -/
namespace RuleFlow

/-- A value that is computed from the stored state of an asset. -/
structure FieldDefinition where
  key : String
  name : String
  formula : String
  recalculateOn : List String

def FieldDefinition.decoder : Decoder FieldDefinition :=
  .record [{ name := "key" }, { name := "name" }, { name := "formula" }, { name := "recalculateOn" }] fun g => do
    let key ← g.required "key" .string
    let name ← g.required "name" .string
    let formula ← g.required "formula" .string
    let recalculateOn ← g.withDefault "recalculateOn" [] (.list .string)
    return ⟨key, name, formula, recalculateOn⟩

namespace Walk

def entry (level : Level) (message : String) (fields : List (String × Json)) : Journal.Entry :=
  ⟨.engine, level, message, fields⟩

def evaluateCondition (source : String) (scope : Json) : Except Expression.Error Bool := do
  let e ← Expression.ofSource source
  e.holds scope

def evaluateFormula (source : String) (scope : Json) : Except Expression.Error Json := do
  let e ← Expression.ofSource source
  e.eval scope

def computeField (b : Backend σ) (limit : Limit) (tenant asset : String) (field : FieldDefinition) :
    Action σ Json := do
  let a ← Action.readAsset b limit tenant asset
  match evaluateFormula field.formula a.scope with
  | .error e => throw (.formulaFailed field.formula e.message)
  | .ok v =>
    Action.report b ⟨.computed, .debug, "Computed field evaluated",
      [("asset.id", .string asset), ("field.key", .string field.key)]⟩
    return v

def resolveValue (outputs : Outputs) : ValueSource → Json
  | .literal v => v
  | .output (some node) => (outputs.get? node).getD .null
  | .output none => .null

/-- A condition: what cannot be parsed or evaluated reads as false and is reported. -/
def visitCondition (b : Backend σ) (ctx : Context) (node source : String) : Action σ Json := do
  match evaluateCondition source ctx.scope with
  | .ok holds => return .bool holds
  | .error e =>
    Action.report b (entry .warn "Condition evaluation failed, treating as false"
      [("rule.id", .string ctx.rule), ("node.id", .string node), ("expression", .string source),
        ("error", .string e.message)])
    return .bool false

def reportAction (b : Backend σ) (ctx : Context) (node message field value : String) : Action σ Unit :=
  Action.report b (entry .debug message
    [("rule.id", .string ctx.rule), ("node.id", .string node), (field, .string value)])

def visitSetComputed (b : Backend σ) (ctx : Context) (node field : String) (value : Json) : Action σ Json := do
  let w ← get
  let item := Json.ofMembers
    [("value", value), ("calculatedAt", (b.now w.stores).toJson), ("source", .string "rule")]
  let computed ← Action.stageComputed ctx field item
  Action.ask (b.replaceComputed ctx.asset.tenantId ctx.asset.id computed)
  reportAction b ctx node "Computed value set" "field" field
  return .null

def visitSetAttribute (b : Backend σ) (ctx : Context) (node name : String) (value : Json) : Action σ Json := do
  let attributes ← Action.stageAttribute ctx name value
  Action.ask (b.updateAsset ctx.asset.tenantId ctx.asset.id ⟨some attributes, none⟩)
  reportAction b ctx node "Attribute set" "attribute" name
  return .null

def visitSetStatus (b : Backend σ) (ctx : Context) (node status : String) : Action σ Json := do
  Action.ask (b.updateAsset ctx.asset.tenantId ctx.asset.id ⟨none, some status⟩)
  reportAction b ctx node "Asset status set" "status" status
  return .null

def visitCreateAlarm (b : Backend σ) (ctx : Context) (node : String) (template : AlarmTemplate) :
    Action σ Json := do
  let w ← get
  Action.ask (b.raise ⟨ctx.asset.tenantId, ctx.asset.id, ctx.rule, node, template, b.now w.stores⟩)
  return .null

def visitLog (b : Backend σ) (ctx : Context) (node message : String) (level : Level) (outputs : Outputs) :
    Action σ Json := do
  Action.report b ⟨.logNode, level, message,
    [("rule.id", .string ctx.rule), ("asset.id", .string ctx.asset.id), ("node.id", .string node),
      ("outputs", .string outputs.text)]⟩
  return .null

def visitKind (b : Backend σ) (limit : Limit) (ctx : Context) (node : Node) (outputs : Outputs) : Action σ Json :=
  match node.kind with
  | .trigger _ => return ctx.payload
  | .condition source => visitCondition b ctx node.id source
  | .getTelemetry key => return (ctx.asset.telemetryValue? key).getD .null
  | .getAttribute key => return (ctx.asset.attribute? key).getD .null
  | .math operation operands => ExceptT.mk (pure (operation.evaluate node.id operands outputs))
  | .formula source => computeField b limit ctx.asset.tenantId ctx.asset.id ⟨node.id, node.id, source, []⟩
  | .setComputed field value => visitSetComputed b ctx node.id field (resolveValue outputs value)
  | .setAttribute name value => visitSetAttribute b ctx node.id name (resolveValue outputs value)
  | .setStatus status => visitSetStatus b ctx node.id status
  | .createAlarm template => visitCreateAlarm b ctx node.id template
  | .log message level => visitLog b ctx node.id message level outputs

/-- Whether an output ends its branch: a condition that is false, if the rule says so. -/
def halts (branchOnFalse : Bool) (node : Node) (output : Json) : Bool :=
  match node.kind, output with
  | .condition _, .bool false => branchOnFalse
  | _, _ => false

def visitNode (b : Backend σ) (limit : Limit) (ctx : Context) (branchOnFalse : Bool) (node : Node)
    (outputs : Outputs) : Action σ Json := do
  Action.checkLimit b limit
  let output ← visitKind b limit ctx node outputs
  Action.report b (entry .debug "Node evaluated"
    [("rule.id", .string ctx.rule), ("node.id", .string node.id), ("node.type", .string node.kind.typeName)])
  if halts branchOnFalse node output then
    Action.report b (entry .debug "Condition false, branch stopped"
      [("rule.id", .string ctx.rule), ("node.id", .string node.id)])
  return output

end Walk

end RuleFlow
