import RuleFlow.Engine.RunResult
import RuleFlow.Engine.FanOut
import RuleFlow.Event
/-! # The engine

Rules are run by name, as given, or because of an event.  Each run gives one execution record, two metrics and one
result, however it ends. -/
namespace RuleFlow

structure Engine.Settings where
  timeoutMs : Nat := 5000
  maxConcurrent : Nat := 8

structure Engine (σ : Type) where
  backend : Backend σ
  settings : Engine.Settings := {}

namespace Engine

/-- What is reported at the end of a run; that a rule does not apply is not reported. -/
def endReport (inv : Invocation) : Except RunError Outcome → Option Journal.Entry
  | .ok (.completed outputs) =>
    some (Walk.entry .info "Rule executed"
      [("rule.id", .string inv.ruleId), ("asset.id", .string inv.assetId), ("execution.nodes", .count outputs.length)])
  | .ok (.skipped _) => none
  | .error e =>
    some (Walk.entry .warn "Rule execution failed"
      [("rule.id", .string inv.ruleId), ("asset.id", .string inv.assetId), ("error", .string e.message),
        ("configuration_error", .bool e.isConfigurationError)])

def lostEntry (r : ExecutionRecord) (e : StorageError) : Journal.Entry :=
  Walk.entry .error "Failed to store execution record"
    [("execution.id", .string r.id), ("rule.id", .string r.ruleId), ("error", .string e.describe)]

def reportOption (b : Backend σ) : Option Journal.Entry → StateM σ Unit
  | some e => b.report e
  | none => pure ()

def publishRun (b : Backend σ) (outcome : String) (ms : UInt64) : StateM σ Unit := do
  b.publish (.increment "rule.execution" [("outcome", outcome)])
  b.publish (.timing "rule.execution.duration" ms [("outcome", outcome)])

/-- Keeps a record.  If that fails it is reported and nothing else. -/
def keep (b : Backend σ) (r : ExecutionRecord) : StateM σ Unit := do
  match ← b.insertRecord r with
  | .ok _ => pure ()
  | .error e => b.report (lostEntry r e)

/-- Runs something, and reports, measures and records its end. -/
def record (b : Backend σ) (inv : Invocation) (run : StateM σ (Except RunError Outcome)) : StateM σ RunResult := do
  let startedAt := b.now (← get)
  let ending ← run
  let completedAt := b.now (← get)
  let r := ExecutionRecord.ofRun (← b.freshId) inv startedAt completedAt ending
  reportOption b (endReport inv ending)
  publishRun b (outcomeTag ending) r.durationMs
  keep b r
  return .ofEnd ending

variable (e : Engine σ)

def runLoaded (rule : Rule) (asset tenant : String) (payload : Json) : StateM σ (Except RunError Outcome) :=
  rule.run e.backend e.settings.timeoutMs asset tenant payload

def runNamed (rule asset tenant : String) (payload : Json) : StateM σ (Except RunError Outcome) := do
  match ← e.backend.findRule rule tenant with
  | .error cause => return .error (.storage cause)
  | .ok none => return .error (.ruleNotFound rule)
  | .ok (some r) => e.runLoaded r asset tenant payload

/-- Runs an active rule by its id.  That there is none is a run that fails. -/
def runRule (rule asset tenant : String) (kind : TriggerKind) (payload : Json) : StateM σ RunResult :=
  record e.backend ⟨rule, tenant, asset, kind, payload⟩ (e.runNamed rule asset tenant payload)

def execute (rule : Rule) (asset tenant : String) (kind : TriggerKind) (payload : Json) : StateM σ RunResult :=
  record e.backend ⟨rule.id, tenant, asset, kind, payload⟩ (e.runLoaded rule asset tenant payload)

def before (a b : Rule) : Bool := b.priority ≤ a.priority

/-- The active rules of a tenant for a type of assets, by priority and then in the order of the store. -/
def applicable (tenant type : String) : StateM σ (Except RunError (List Rule)) := do
  match ← e.backend.activeRules tenant with
  | .error cause => return .error (.storage cause)
  | .ok rules => return .ok ((rules.filter fun r => r.isActive && r.appliesToAssetType type).mergeSort before)

/-- Whether a stored node is a trigger that an event of a kind and with a key fires.  One that does not compile is
not. -/
def firesOn (kind : TriggerKind) (key : Option String) (n : NodeDefinition) : Bool :=
  match Node.compile n with
  | .ok node =>
    match node.kind with
    | .trigger t => t.fires kind key
    | _ => false
  | .error _ => false

/-- Whether an event concerns a rule: it is for no other rule, and it fires one of the triggers. -/
def concerns (event : Event) (rule : Rule) : Bool :=
  (event.rule?.all (· == rule.id)) && rule.nodes.any (firesOn event.kind event.key)

def dispatchEntry (event : Event) (candidates : Nat) : Journal.Entry :=
  Walk.entry .debug "Dispatching event"
    [("tenant.id", .string event.asset.tenantId), ("asset.id", .string event.asset.assetId),
      ("trigger", .string event.kind.name), ("candidates", .count candidates)]

def runCandidate (event : Event) (payload : Json) (rule : Rule) : StateM σ (String × RunResult) := do
  return (rule.id, ← e.execute rule event.asset.assetId event.asset.tenantId event.kind payload)

def dispatch (event : Event) : StateM σ (Except RunError (List (String × RunResult))) := do
  match ← e.applicable event.asset.tenantId event.asset.typeId with
  | .error cause => return .error cause
  | .ok rules =>
    let candidates := rules.filter (concerns event)
    e.backend.report (dispatchEntry event candidates.length)
    e.backend.publish (.gauge "rule.dispatch.candidates" candidates.length)
    let payload := event.payload (e.backend.now (← get))
    return .ok (← FanOut.runAll e.settings.maxConcurrent candidates (e.runCandidate event payload))

end Engine

end RuleFlow
