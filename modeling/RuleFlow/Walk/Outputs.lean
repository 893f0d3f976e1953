import RuleFlow.Json.Writer
/-! # Outputs of a walk

The outputs of the nodes in the order in which the nodes were first visited.  A node that is visited again keeps its
place and gets its latest value. -/
namespace RuleFlow

/-- Outputs by the ids of nodes, in the order of the first visits. -/
abbrev Outputs := List (String × Json)

namespace Outputs

def get? (o : Outputs) (node : String) : Option Json := o.lookup node

def record (node : String) (value : Json) : Outputs → Outputs
  | [] => [(node, value)]
  | (n, v) :: rest => if n = node then (n, value) :: rest else (n, v) :: record node value rest

def toJson (o : Outputs) : Json := .ofMembers o

def text (o : Outputs) : String := (Json.object o).compact

end Outputs

end RuleFlow
