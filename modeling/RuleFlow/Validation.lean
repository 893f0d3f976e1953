import RuleFlow.Graph.Cycle
import RuleFlow.Expression.Evaluation
/-! # Validation of rules

The checks that a rule should pass before it is used, in a fixed order; the first one that fails is the error. -/
namespace RuleFlow

inductive ValidationError
  | structure (details : String)
  | duplicateNode (node : String)
  | danglingConnection (connection node : String)
  | invalidNode (cause : CompileError)
  | cycle (node : String)
  | invalidExpression (node : String) (cause : Expression.Error)
  deriving DecidableEq, Repr

def ValidationError.message (e : ValidationError) : String :=
  "error-assetrules-validation-" ++
  match e with
  | .structure details => "1 Invalid rule structure: " ++ details
  | .duplicateNode node => "2 Duplicate node id: " ++ node
  | .danglingConnection connection node => "3 Edge " ++ connection ++ " references unknown node " ++ node
  | .invalidNode cause => "4 Invalid node: " ++ cause.message
  | .cycle node => "5 Rule graph contains a cycle through " ++ node
  | .invalidExpression node cause => "6 Invalid condition expression in " ++ node ++ ": " ++ cause.message

namespace Rule

def duplicate? (seen : List String) : List NodeDefinition → Option String
  | [] => none
  | n :: rest => if seen.contains n.id then some n.id else duplicate? (n.id :: seen) rest

/-- The first connection with an end that names no node, and that end. -/
def dangling? (r : Rule) : Option (String × String) :=
  let ids := r.nodes.map (·.id)
  r.connections.findSome? fun c =>
    if !ids.contains c.fromNode then some (c.id, c.fromNode)
    else if !ids.contains c.toNode then some (c.id, c.toNode)
    else none

def malformed? (nodes : List Node) : Option (String × Expression.Error) :=
  nodes.findSome? fun n =>
    match n.kind with
    | .condition source =>
      match Expression.ofSource source with
      | .ok _ => none
      | .error e => some (n.id, e)
    | _ => none

def reachesAction (g : Graph) (start : Nat) : Bool :=
  (g.nodes.zip (g.reachableFrom start)).any fun (n, reached) => reached && n.role = .action

/-- An active rule needs a trigger from which an action can be reached. -/
def validateActive (g : Graph) : Except ValidationError Unit :=
  match g.trigger with
  | none => .error (.structure "an active rule must contain a trigger node")
  | some start =>
    if reachesAction g start then .ok ()
    else
      let id := ((g.node? start).map (·.id)).getD ""
      .error (.structure ("no action node is reachable from trigger '" ++ id ++ "'"))

def validate (r : Rule) : Except ValidationError Unit := do
  if let some node := duplicate? [] r.nodes then .error (.duplicateNode node)
  if let some (connection, node) := r.dangling? then .error (.danglingConnection connection node)
  let g ← match Graph.compile r with
    | .ok (g, _) => .ok g
    | .error e => .error (.invalidNode e)
  if let some (node, e) := malformed? g.nodes then .error (.invalidExpression node e)
  if let some node := g.findCycle then .error (.cycle node)
  if r.isActive then validateActive g

end Rule

end RuleFlow
