import RuleFlow.Proofs.Graph.Linking
import RuleFlow.Proofs.Graph.Lookups
import RuleFlow.Proofs.Walk.Actions
/-! # Rules and what they are compiled to

A rule is compiled unless one of its nodes does not compile, and then the first such node is the error.  The compiled
rule has the nodes of the rule in their order, the connections that join them, and a warning for each other connection,
and nothing that is looked up in it by a position is missing.  Main statement: `compile_by_parts`. -/
namespace RuleFlow

open Walk

theorem mapM_eq_error_iff {α β ε : Type} {f : α → Except ε β} {xs : List α} {e : ε} :
    xs.mapM f = .error e ↔
      ∃ before x after, xs = before ++ x :: after ∧ (∀ y ∈ before, ∃ z, f y = .ok z) ∧ f x = .error e := by
  induction xs with
  | nil => simp [pure, Except.pure]
  | cons x xs ih =>
    rw [List.mapM_cons]
    cases hx : f x with
    | error e' =>
      simp only [bind, Except.bind, Except.error.injEq]
      constructor
      · rintro rfl
        exact ⟨[], x, xs, rfl, nofun, hx⟩
      · rintro ⟨_ | ⟨y, before⟩, z, after, heq, hbefore, hz⟩
        · obtain ⟨rfl, -⟩ := List.cons.inj heq
          exact Except.error.inj (hx.symm.trans hz)
        · obtain ⟨rfl, -⟩ := List.cons.inj heq
          obtain ⟨y, hy⟩ := hbefore x List.mem_cons_self
          cases hx.symm.trans hy
    | ok y =>
      have hrest : (xs.mapM f >>= fun ys => pure (y :: ys)) = .error e ↔ xs.mapM f = .error e := by
        cases xs.mapM f <;> simp [bind, Except.bind, pure, Except.pure]
      refine hrest.trans (ih.trans ?_)
      constructor
      · rintro ⟨before, z, after, rfl, hbefore, hz⟩
        exact ⟨x :: before, z, after, rfl, List.forall_mem_cons.2 ⟨⟨y, hx⟩, hbefore⟩, hz⟩
      · rintro ⟨_ | ⟨x', before⟩, z, after, heq, hbefore, hz⟩
        · obtain ⟨rfl, -⟩ := List.cons.inj heq
          cases hx.symm.trans hz
        · obtain ⟨-, rfl⟩ := List.cons.inj heq
          exact ⟨before, z, after, rfl, fun y hy => hbefore y (List.mem_cons_of_mem _ hy), hz⟩

namespace Rule

/-- The warning of a connection that joins no nodes.  It names the source if that is no node, else the target. -/
def warning (r : Rule) (c : Connection) : Journal.Entry :=
  let (message, node) :=
    if c.fromNode ∉ r.ids then ("Skipping edge from unknown node", c.fromNode)
    else ("Skipping edge to unknown node", c.toNode)
  Walk.entry .warn message [("rule.id", .string r.id), ("edge.id", .string c.id), ("node.id", .string node)]

def warnings (r : Rule) : List Journal.Entry := (r.connections.filter fun c => ¬r.Joins c).map r.warning

end Rule

namespace Walk

variable {σ : Type} {rule : Rule} {g : Graph} {dropped : List DroppedConnection}

def reported (b : Backend σ) (entries : List Journal.Entry) (stores : σ) : σ :=
  entries.foldl (fun s e => (b.report e s).2) stores

theorem run_reportDropped (b : Backend σ) (rule : Rule) (c : Connection) (w : World σ) :
    (reportDropped b rule.id (rule.drop c)).run w =
      (.ok (), { w with stores := (b.report (rule.warning c) w.stores).2 }) := by
  have hentry : reportDropped b rule.id (rule.drop c) = Action.report b (rule.warning c) := by
    unfold reportDropped Rule.drop Rule.warning DroppedConnection.node
    by_cases h : c.fromNode ∈ rule.ids <;> simp [h]
  rw [hentry]
  rfl

theorem run_forM_reportDropped (b : Backend σ) (rule : Rule) (cs : List Connection) (w : World σ) :
    ((cs.map rule.drop).forM (reportDropped b rule.id)).run w =
      (.ok (), { w with stores := reported b (cs.map rule.warning) w.stores }) := by
  induction cs generalizing w with
  | nil => rfl
  | cons c cs ih =>
    exact (Action.run_bind_ok (run_reportDropped b rule c w) _).trans (ih _)

/-- To compile a rule is to report its warnings, and it does nothing else. -/
theorem run_compileRule (h : Graph.compile rule = .ok (g, dropped)) (b : Backend σ) (w : World σ) :
    ((compileRule b rule).run w).2 = { w with stores := reported b rule.warnings w.stores } := by
  unfold compileRule
  rw [h, Graph.dropped_compile h]
  dsimp only
  rw [Action.run_bind_ok (run_forM_reportDropped b rule _ w)]
  cases g.trigger <;> rfl

end Walk

namespace Graph

variable {rule : Rule} {g : Graph} {dropped : List DroppedConnection}

/-- The first node that does not compile is the error, and there is no other. -/
theorem compile_eq_error_iff {e : CompileError} : compile rule = .error e ↔
    ∃ before d after, rule.nodes = before ++ d :: after ∧ (∀ b ∈ before, ∃ n, Node.compile b = .ok n) ∧
      Node.compile d = .error e := by
  rw [← mapM_eq_error_iff]
  unfold compile
  cases rule.nodes.mapM Node.compile <;> simp [bind, Except.bind, pure, Except.pure]

/-- What a rule is compiled to, said by its nodes and connections. -/
structure Compiles (rule : Rule) (g : Graph) (dropped : List DroppedConnection) : Prop where
  /-- The nodes are those of the rule, one by one. -/
  nodes : List.Forall₂ (fun d n => Node.compile d = .ok n) rule.nodes g.nodes
  /-- The position of an id is the first at which a node has it. -/
  position : ∀ id p, g.position id = some p ↔ rule.ids[p]? = some id ∧ id ∉ rule.ids.take p
  length_successors : g.successors.length = g.size
  /-- The successors of a position are the targets of the connections that join nodes and begin there, in their order
  and as often as there are connections. -/
  next : ∀ p, (g.next p).map some =
    (rule.connections.filter fun c => rule.Joins c ∧ g.position c.fromNode = some p).map (g.position ·.toNode)
  /-- The connections can be taken one by one, with an index in which the first position of an id stays, and each list
  of successors that one is put into is there. -/
  pass : rule.connections.foldlM (link (index g.nodes)) ⟨List.replicate g.size [], []⟩ = some ⟨g.successors, dropped⟩
  /-- Each other connection is dropped for its source if that is no node, else for its target. -/
  dropped : dropped = (rule.connections.filter fun c => ¬rule.Joins c).map rule.drop
  /-- For each of these there is one warning, and nothing else is reported. -/
  warnings : ∀ (σ : Type) (b : Backend σ) (w : World σ),
    ((compileRule b rule).run w).2 = { w with stores := reported b rule.warnings w.stores }

/-- Whether all positions that are looked up in a graph are positions of nodes, in the searches and in the walk. -/
structure InRange (g : Graph) : Prop where
  successor_lt : ∀ qs ∈ g.successors, ∀ q ∈ qs, q < g.size
  trigger_lt : ∀ start, g.trigger = some start → start < g.size
  reach : ∀ start < g.size, Progress.LooksUp (ReachSearch.step g) (ReachSearch.lookup g) ⟨[], [start]⟩
  cycle : Progress.LooksUp (CycleSearch.step g) (CycleSearch.lookup g) ⟨List.range g.size, [], []⟩
  walk : ∀ (τ ε : Type) (v : Visitor τ ε) (start : Nat) (world : τ), start < g.size →
    Progress.LooksUp (Walk.step g v) (Walk.lookup g v) ⟨[.enter start], [], [], world⟩

theorem compiles_of_compile (h : compile rule = .ok (g, dropped)) : Compiles rule g dropped where
  nodes := forall₂_compile h
  position _ _ := position_eq_some_iff h
  length_successors := (compile_sized h).length_successors
  next := map_next h
  pass := foldlM_link_compile h
  dropped := dropped_compile h
  warnings _ b w := run_compileRule h b w

theorem Sized.inRange (hg : g.Sized) : g.InRange where
  successor_lt qs hqs q hq := by
    obtain ⟨p, hp, rfl⟩ := List.getElem_of_mem hqs
    refine hg.target_lt (p := p) ?_
    rw [Edge, next, List.getElem?_eq_getElem hp]
    exact hq
  trigger_lt _ := trigger_lt
  reach _ := ReachSearch.looksUp hg
  cycle := CycleSearch.looksUp hg
  walk _ _ v _ world hs := Walk.looksUp hg v hs world

/-- A rule is not compiled if and only if one of its nodes does not compile, and the first of these is the error.  Else
it is compiled to its nodes in their order and to the connections that join them; each other connection is dropped with
one warning, which names the source if that is no node and else the target; and no position is looked up that is out of
range. -/
theorem compile_by_parts (rule : Rule) :
    ((∃ e, compile rule = .error e) ↔ ∃ d ∈ rule.nodes, ∃ e, Node.compile d = .error e) ∧
    (∀ e, compile rule = .error e ↔ ∃ before d after, rule.nodes = before ++ d :: after ∧
      (∀ b ∈ before, ∃ n, Node.compile b = .ok n) ∧ Node.compile d = .error e) ∧
    ∀ g dropped, compile rule = .ok (g, dropped) → Compiles rule g dropped ∧ g.InRange := by
  refine ⟨?_, fun e => compile_eq_error_iff, fun g dropped h => ⟨compiles_of_compile h, (compile_sized h).inRange⟩⟩
  constructor
  · rintro ⟨e, he⟩
    obtain ⟨before, d, after, hnodes, -, hd⟩ := compile_eq_error_iff.1 he
    exact ⟨d, hnodes ▸ List.mem_append_right before List.mem_cons_self, e, hd⟩
  · rintro ⟨d, hd, e, he⟩
    cases hc : compile rule with
    | error e' => exact ⟨e', rfl⟩
    | ok found =>
      obtain ⟨n, hn⟩ := exists_compile_iff.1 ⟨found.1, found.2, hc⟩ d hd
      cases he.symm.trans hn

def tangled : Rule where
  id := "r"
  tenantId := "t"
  name := "tangled"
  description := none
  status := .active
  priority := 0
  appliesToAssetTypes := ["well"]
  appliesToAssets := none
  nodes := [⟨"start", "manual", .origin, [], [], []⟩, ⟨"note", "log", .origin, [], [], []⟩,
    ⟨"then", "log", .origin, [], [], []⟩, ⟨"note", "log", .origin, [], [], []⟩]
  connections :=
    [⟨"1", "start", "out", "note", "in"⟩, ⟨"2", "start", "out", "nowhere", "in"⟩,
      ⟨"3", "nobody", "out", "nowhere", "in"⟩, ⟨"4", "start", "out", "then", "in"⟩,
      ⟨"5", "start", "out", "note", "in"⟩, ⟨"6", "then", "out", "note", "in"⟩]
  settings := ⟨none, false⟩
  createdAt := none

def tangledGraph : Graph where
  nodes := [⟨"start", .trigger ⟨.manual, none, none⟩⟩, ⟨"note", .log NodeKind.defaultLogMessage .info⟩,
    ⟨"then", .log NodeKind.defaultLogMessage .info⟩, ⟨"note", .log NodeKind.defaultLogMessage .info⟩]
  successors := [[1, 2, 1], [], [1], []]

/-- The second node with an id is never led to, the connection that is made twice leads on twice, and the two
connections that join no nodes are warned of; with a node of no known type and one without its fields the rule is
refused for the former, which comes first. -/
theorem compile_tangled :
    (∃ dropped, compile tangled = .ok (tangledGraph, dropped) ∧
      dropped.map (·.node) = ["nowhere", "nobody"]) ∧
    tangledGraph.position "note" = some 1 ∧
    (tangledGraph.next 0).map some = [some 1, some 2, some 1] ∧
    (∃ seen, Progress.after (ReachSearch.step tangledGraph) 5 ⟨[], [0]⟩ = .next seen ∧
      seen.lookup tangledGraph = some (seen.step tangledGraph)) ∧
    compile { tangled with nodes := [⟨"a", "mail", .origin, [], [], []⟩, ⟨"b", "if", .origin, [], [], []⟩] } =
      .error (.unknownNodeType "mail" "a") := by
  have hc : compile tangled = .ok (tangledGraph, [⟨⟨"2", "start", "out", "nowhere", "in"⟩, .target⟩,
    ⟨⟨"3", "nobody", "out", "nowhere", "in"⟩, .source⟩]) := rfl
  obtain ⟨-, -, hok⟩ := compile_by_parts tangled
  obtain ⟨hcompiles, hrange⟩ := hok _ _ hc
  obtain ⟨-, herror, -⟩ :=
    compile_by_parts { tangled with nodes := [⟨"a", "mail", .origin, [], [], []⟩, ⟨"b", "if", .origin, [], [], []⟩] }
  refine ⟨⟨_, hc, rfl⟩, (hcompiles.position "note" 1).2 (by decide), (hcompiles.next 0).trans (by decide),
    ⟨_, rfl, hrange.reach 0 (by decide) 5 _ rfl⟩, (herror _).2 ⟨[], _, _, rfl, nofun, rfl⟩⟩

end Graph

end RuleFlow
