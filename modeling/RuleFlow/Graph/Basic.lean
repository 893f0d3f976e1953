import RuleFlow.Node.Compile
/-! # Compiled rules

A compiled rule has its nodes in the order of the rule and, for each node, the positions of its successors in the
order of the connections.  A connection whose ends are not both ids of nodes is dropped; of nodes with equal ids the
first one is meant. -/
namespace RuleFlow

structure Graph where
  nodes : List Node
  successors : List (List Nat)

inductive Endpoint | source | target
  deriving DecidableEq, Repr

/-- A connection that was dropped, and the end that names no node; of two such ends it is the source. -/
structure DroppedConnection where
  connection : Connection
  endpoint : Endpoint

def DroppedConnection.node (d : DroppedConnection) : String :=
  match d.endpoint with
  | .source => d.connection.fromNode
  | .target => d.connection.toNode

namespace Graph

def size (g : Graph) : Nat := g.nodes.length

def positionIn (nodes : List Node) (id : String) : Option Nat := nodes.findIdx? fun n => n.id = id

def position (g : Graph) (id : String) : Option Nat := positionIn g.nodes id

def node? (g : Graph) (position : Nat) : Option Node := g.nodes[position]?

def next (g : Graph) (position : Nat) : List Nat := g.successors[position]?.getD []

def resolve (nodes : List Node) (c : Connection) : Except DroppedConnection (Nat × Nat) :=
  match positionIn nodes c.fromNode with
  | none => .error ⟨c, .source⟩
  | some i =>
    match positionIn nodes c.toNode with
    | none => .error ⟨c, .target⟩
    | some j => .ok (i, j)

def edges (nodes : List Node) (connections : List Connection) : List (Nat × Nat) :=
  connections.filterMap fun c => (resolve nodes c).toOption

def dropped (nodes : List Node) (connections : List Connection) : List DroppedConnection :=
  connections.filterMap fun c =>
    match resolve nodes c with
    | .ok _ => none
    | .error d => some d

def targets (edges : List (Nat × Nat)) (position : Nat) : List Nat :=
  edges.filterMap fun e => if e.1 = position then some e.2 else none

/-- Compiles a rule.  The first node that does not compile is the error. -/
def compile (r : Rule) : Except CompileError (Graph × List DroppedConnection) := do
  let nodes ← r.nodes.mapM Node.compile
  let edges := edges nodes r.connections
  return (⟨nodes, (List.range nodes.length).map (targets edges)⟩, dropped nodes r.connections)

/-- Where a walk begins: the first trigger. -/
def trigger (g : Graph) : Option Nat := g.nodes.findIdx? fun n => n.role = .trigger

def triggers (g : Graph) : List Trigger :=
  g.nodes.filterMap fun n =>
    match n.kind with
    | .trigger t => some t
    | _ => none

/-- The number of positions that a mark leaves out; searches take from it with every position that they mark. -/
def unmarked (g : Graph) (mark : Nat → Bool) : Nat := (List.range g.size).countP fun p => !mark p

theorem unmarked_le (g : Graph) {mark more : Nat → Bool} (h : ∀ p, mark p → more p) :
    g.unmarked more ≤ g.unmarked mark := by
  apply List.countP_mono_left
  intro p _ hp
  cases hm : mark p with
  | true => simp [h p hm] at hp
  | false => rfl

theorem unmarked_lt (g : Graph) {mark more : Nat → Bool} (h : ∀ p, mark p → more p) {p : Nat} (hp : p < g.size)
    (hm : mark p = false) (hn : more p = true) : g.unmarked more < g.unmarked mark := by
  unfold unmarked
  obtain ⟨front, back, he⟩ := List.append_of_mem (List.mem_range.2 hp)
  have hle (l : List Nat) : l.countP (fun q => !more q) ≤ l.countP (fun q => !mark q) := by
    apply List.countP_mono_left
    intro q _ hq
    cases hq' : mark q with
    | true => simp [h q hq'] at hq
    | false => rfl
  have hf := hle front
  have hb := hle back
  rw [he]
  simp only [List.countP_append, List.countP_cons, hm, hn]
  simp
  omega

end Graph

end RuleFlow
