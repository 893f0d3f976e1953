import RuleFlow.Walk.Rule
/-! # Results of runs

What a run tells its caller, and the execution record of it.  Both are read off the same end of the run. -/
namespace RuleFlow

structure RunResult where
  success : Bool
  result : Option Json
  error : Option String

/-- For which rule and asset and by what a rule is run. -/
structure Invocation where
  ruleId : String
  tenantId : String
  assetId : String
  kind : TriggerKind
  payload : Json

namespace RunResult

def ofEnd : Except RunError Outcome → RunResult
  | .ok (.completed outputs) =>
    ⟨true, some (.ofMembers [("executed", .bool true), ("outputs", outputs.toJson)]), none⟩
  | .ok (.skipped reason) =>
    ⟨true, some (.ofMembers [("skipped", .bool true), ("reason", .string reason.text)]), none⟩
  | .error e => ⟨false, none, some e.message⟩

def isSkipped (r : RunResult) : Bool :=
  match r.result with
  | some (.object members) =>
    match Json.Object.get? members "skipped" with
    | some (.bool b) => b
    | _ => false
  | _ => false

def members (r : RunResult) : List (String × Json) :=
  [("success", .bool r.success)] ++ Json.optionalMember "result" (fun v => v) r.result ++
  Json.optionalMember "error" Json.string r.error

end RunResult

def ExecutedAction.ofEnd : Except RunError Outcome → List ExecutedAction
  | .ok (.completed outputs) => ExecutedAction.ofOutputs outputs
  | _ => []

def ExecutionRecord.ofRun (id : String) (inv : Invocation) (startedAt completedAt : Instant)
    (ending : Except RunError Outcome) : ExecutionRecord where
  id
  ruleId := inv.ruleId
  tenantId := inv.tenantId
  assetId := inv.assetId
  triggerType := inv.kind.name
  triggerData := inv.payload
  startedAt
  completedAt
  durationMs := (startedAt.millisecondsUntil completedAt).toUInt64
  success := (RunResult.ofEnd ending).success
  result := (RunResult.ofEnd ending).result
  error := (RunResult.ofEnd ending).error
  actions := ExecutedAction.ofEnd ending

def outcomeTag : Except RunError Outcome → String
  | .ok (.completed _) => "success"
  | .ok (.skipped _) => "skipped"
  | .error _ => "failure"

end RuleFlow
