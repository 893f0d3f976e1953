import RuleFlow.Walk.Nodes
import RuleFlow.Walk.Machine
/-! # Running a rule against an asset

The asset is read, the rule is checked to be meant for it and compiled, and then it is walked from its first
trigger; all of it within the time limit of the rule. -/
namespace RuleFlow

inductive SkipReason | assetType | assetScope
  deriving DecidableEq, Repr

def SkipReason.text : SkipReason → String
  | .assetType => "Asset type mismatch"
  | .assetScope => "Asset not in scope"

inductive Outcome
  | completed (outputs : Outputs)
  | skipped (reason : SkipReason)

namespace Rule

/-- The time limit of a rule: its own if it has one that is not zero, else the default. -/
def timeoutOr (r : Rule) (default : Nat) : Nat :=
  match r.settings.timeoutMs with
  | some ms => if ms = 0 then default else ms.toNat
  | none => default

/-- Why the rule does not apply to an asset; the type of the asset is looked at first. -/
def skipReason? (r : Rule) (a : Asset) (asset : String) : Option SkipReason :=
  if !r.appliesToAssetType a.typeId then some .assetType
  else if !r.appliesToAsset asset then some .assetScope
  else none

end Rule

namespace Walk

def visitor (b : Backend σ) (limit : Limit) (ctx : Context) (branchOnFalse : Bool) :
    Visitor (World σ) RunError where
  visit node outputs world := (visitNode b limit ctx branchOnFalse node outputs).run world
  halts := halts branchOnFalse

def Failure.error : Failure RunError → RunError
  | .cycle node => .cycleDetected node
  | .visit e => e

def walkGraph (b : Backend σ) (limit : Limit) (ctx : Context) (branchOnFalse : Bool) (g : Graph) (start : Nat) :
    Action σ Outputs :=
  ExceptT.mk fun world =>
    let (result, world) := runFrom g (visitor b limit ctx branchOnFalse) start world
    (result.mapError Failure.error, world)

def reportDropped (b : Backend σ) (rule : String) (d : DroppedConnection) : Action σ Unit :=
  let message := match d.endpoint with
    | .source => "Skipping edge from unknown node"
    | .target => "Skipping edge to unknown node"
  Action.report b (entry .warn message
    [("rule.id", .string rule), ("edge.id", .string d.connection.id), ("node.id", .string d.node)])

def compileRule (b : Backend σ) (rule : Rule) : Action σ (Graph × Nat) := do
  match Graph.compile rule with
  | .error e => throw (.invalidNode e)
  | .ok (g, dropped) =>
    dropped.forM (reportDropped b rule.id)
    match g.trigger with
    | none => throw .missingTrigger
    | some start => return (g, start)

/-- What a run comes to before a node is visited: the rule does not apply, or a walk is to begin. -/
inductive Prepared
  | skipped (reason : SkipReason)
  | ready (g : Graph) (start : Nat) (ctx : Context)

def prepare (b : Backend σ) (limit : Limit) (rule : Rule) (asset tenant : String) (payload : Json) :
    Action σ Prepared := do
  let a ← Action.readAsset b limit tenant asset
  match rule.skipReason? a asset with
  | some reason =>
    Action.report b (entry .debug "Rule does not apply to asset"
      [("rule.id", .string rule.id), ("asset.id", .string asset), ("reason", .string reason.text)])
    return .skipped reason
  | none =>
    let (g, start) ← compileRule b rule
    return .ready g start (.of rule.id a payload)

def runWithin (b : Backend σ) (limit : Limit) (rule : Rule) (asset tenant : String) (payload : Json) :
    Action σ Outcome := do
  match ← prepare b limit rule asset tenant payload with
  | .skipped reason => return .skipped reason
  | .ready g start ctx => return .completed (← walkGraph b limit ctx rule.settings.branchOnFalse g start)

def timeoutEntry (rule asset : String) (ms : Nat) : Journal.Entry :=
  entry .warn "Rule execution timed out"
    [("rule.id", .string rule), ("asset.id", .string asset), ("timeout_ms", .count ms)]

/-- Ends a run: if the time was over, that is reported, and only the stores are left of the world. -/
def conclude (b : Backend σ) (rule asset : String) (result : Except RunError Outcome) (world : World σ) :
    Except RunError Outcome × σ :=
  match result with
  | .error (.timeout ms) => (result, (b.report (timeoutEntry rule asset ms) world.stores).2)
  | _ => (result, world.stores)

end Walk

/-- Runs a rule against an asset within the time limit of the rule. -/
def Rule.run (b : Backend σ) (defaultTimeout : Nat) (rule : Rule) (asset tenant : String) (payload : Json) :
    StateM σ (Except RunError Outcome) := fun stores =>
  let (result, world) :=
    (Walk.runWithin b (some (rule.timeoutOr defaultTimeout)) rule asset tenant payload).run (.start stores)
  Walk.conclude b rule.id asset result world

end RuleFlow
