import RuleFlow.Proofs.Backend.Watched
import RuleFlow.Proofs.Walk.Alike
import RuleFlow.Proofs.Walk.Exploration
import RuleFlow.Proofs.Walk.Visits
/-! # Branches that end

A false condition ends its branch, if the rule says so.  That is decided when the condition is visited, but it is fixed
from the beginning: conditions are read in the scope of the snapshot, which no write of the walk reaches.  So the walk
goes as if nothing had followed the false conditions in the compiled rule: `walk_alike_pruned`. -/
namespace RuleFlow

open Relation Walk

variable {σ ν : Type}

/-- Whether a node is a condition that reads false in a scope, as one does that cannot be parsed or evaluated. -/
def Node.readsFalse (scope : Json) (n : Node) : Bool :=
  match n.kind with
  | .condition source =>
    match evaluateCondition source scope with
    | .ok holds => !holds
    | .error _ => true
  | _ => false

namespace Graph

def readsFalse (g : Graph) (scope : Json) (p : Nat) : Bool := (g.node? p).any (·.readsFalse scope)

/-- The compiled rule in which nothing follows a condition that reads false. -/
def prune (g : Graph) (scope : Json) : Graph :=
  ⟨g.nodes, g.successors.mapIdx fun p next => if g.readsFalse scope p then [] else next⟩

variable {g : Graph} {scope : Json} {p q : Nat}

theorem next_prune (g : Graph) (scope : Json) (p : Nat) :
    (g.prune scope).next p = if g.readsFalse scope p then [] else g.next p := by
  unfold next prune
  rw [List.getElem?_mapIdx]
  cases g.successors[p]? with
  | none => split <;> rfl
  | some next => rfl

def OpenEdge (g : Graph) (scope : Json) (p q : Nat) : Prop := g.Edge p q ∧ g.readsFalse scope p = false

theorem edge_prune : (g.prune scope).Edge p q ↔ g.OpenEdge scope p q := by
  unfold Edge OpenEdge Edge
  rw [next_prune]
  cases g.readsFalse scope p <;> simp

theorem Closed.prune (hg : g.Closed) (scope : Json) : (g.prune scope).Closed where
  source_lt h := hg.source_lt (edge_prune.1 h).1
  target_lt h := hg.target_lt (edge_prune.1 h).1

end Graph

namespace Walk

variable {b : Backend σ} {view : σ → ν} {limit : Limit} {ctx : Context} {n : Node} {outputs : Outputs} {w : World σ}

/-- A condition gives out what it reads in the scope of the snapshot, whatever has been written before. -/
theorem ends_visitNode_condition {branchOnFalse : Bool} {source : String} (hk : n.kind = .condition source) :
    (visitNode b limit ctx branchOnFalse n outputs).Ends w (fun x _ => x = .bool (!n.readsFalse ctx.scope))
      fun _ _ => True := by
  refine ends_visitNode (fun _ _ _ h => h) (fun _ _ _ _ => trivial) fun worked => ?_
  unfold visitKind Node.readsFalse
  rw [hk]
  dsimp only [visitCondition]
  cases evaluateCondition source ctx.scope with
  | error e =>
    simp only [Action.ends_bind, Action.ends_report, Action.ends_pure]
    rfl
  | ok holds =>
    simp only [Action.ends_pure, Bool.not_not]

/-- A branch ends just at a condition that reads false. -/
theorem halts_of_visitNode {x : Json} {w' : World σ}
    (h : (visitNode b limit ctx true n outputs).run w = (.ok x, w')) : halts true n x = n.readsFalse ctx.scope := by
  by_cases hk : ∃ source, n.kind = .condition source
  · obtain ⟨source, hk⟩ := hk
    obtain rfl : x = .bool (!n.readsFalse ctx.scope) := (ends_visitNode_condition hk).of_ok h
    unfold halts
    rw [hk]
    cases n.readsFalse ctx.scope <;> rfl
  · have hhalts : halts true n x = false := by
      rw [← Bool.not_eq_true, halts_eq_true_iff]
      exact fun h => hk h.2.1
    have hreads : n.readsFalse ctx.scope = false := by
      unfold Node.readsFalse
      split
      · rename_i source hsource
        exact absurd ⟨source, hsource⟩ hk
      · rfl
    rw [hhalts, hreads]

theorem simulation_prune (hb : b.JournalApart view) (g : Graph) (limit : Limit) (ctx : Context) :
    Simulation g (g.prune ctx.scope) (visitor b limit ctx true) (visitor b limit ctx false) Eq
      (World.Alike (SameView view)) where
  node h := h ▸ rfl
  same hp hq := by rw [hp, hq]
  visit {_ _ n} _ _ o w w' hw := by
    have halike : (visitNode b limit ctx true n o).Alike (SameView view) Eq (visitNode b limit ctx false n o) :=
      alike_visitNode hb.alike fun x => (quiet_reportStop hb ctx true n x).alike (quiet_reportStop hb ctx false n x)
    obtain ⟨hanswer, hworld⟩ := halike w w' hw
    exact ⟨hanswer.eq, hworld⟩
  next {p p' n o w w₁ x} hp hn hx := by
    subst hp
    have hreads : g.readsFalse ctx.scope p = n.readsFalse ctx.scope := by
      unfold Graph.readsFalse
      rw [hn]
      rfl
    have hhalts : (visitor b limit ctx true).halts n x = g.readsFalse ctx.scope p :=
      (halts_of_visitNode hx).trans hreads.symm
    have hfalse : (visitor b limit ctx false).halts n x = false := halts_false n x
    rw [hhalts, hfalse, g.next_prune]
    exact List.forall₂_refl _

/-- What a walk whose false conditions end their branches does, is done just so by the walk, with no branch ended, of
the compiled rule in which nothing follows the conditions that read false in the scope of the snapshot.  It makes the
same visits with the same answers, and before each visit and at the end the same has been asked of the stores; it comes
to the same end, which may be a failure or a cycle.  If it completes, it has visited just the positions to which a path
leads that goes through no false condition, whatever has been written before the conditions were visited. -/
theorem walk_alike_pruned {b : Backend σ} {view : σ → ν} (hb : b.JournalApart view) {rule : Rule} {g : Graph}
    {dropped : List DroppedConnection} {start : Nat} (hc : Graph.compile rule = .ok (g, dropped))
    (hs : g.trigger = some start) (limit : Limit) (a : Asset) (payload : Json) (world : World (Watched σ)) :
    let ctx := Context.of rule.id a payload
    let walk := trace g (visitor b.watched limit ctx true) (.initial start world)
    let pruned := trace (g.prune a.scope) (visitor b.watched limit ctx false) (.initial start world)
    walk.Alike Eq (World.Alike (SameView (Watched.look view))) pruned ∧
    walk.result.2.stores.effects.filter Effect.isOutward = pruned.result.2.stores.effects.filter Effect.isOutward ∧
    ∀ o, walk.result.1 = .ok o →
      ∀ p, (∃ c ∈ walk.calls, c.position = p) ↔ ReflTransGen (g.OpenEdge a.scope) start p := by
  intro ctx walk pruned
  have halike : walk.Alike Eq (World.Alike (SameView (Watched.look view))) pruned :=
    (simulation_prune (Watched.journalApart hb) g limit ctx).trace_alike rfl ⟨rfl, rfl, rfl, rfl, rfl⟩
  refine ⟨halike, congrArg Watched.effects halike.world.stores, fun o ho p => ?_⟩
  have hpruned : pruned.result = (.ok o, pruned.result.2) := Prod.ext (halike.result.symm.trans ho) rfl
  have hreach : (∃ c ∈ pruned.calls, c.position = p) ↔ ReflTransGen (g.prune a.scope).Edge start p :=
    exists_call_iff_reachable ((Graph.compile_closed hc).prune a.scope) halts_false (Graph.trigger_lt hs) hpruned
  have hedge : (g.prune a.scope).Edge = g.OpenEdge a.scope := by
    funext p q
    exact propext Graph.edge_prune
  rw [← hedge, ← hreach]
  simp only [← List.mem_map, halike.positions_eq]

/-- A rule that marks its asset as busy, and then asks whether it is.  Behind the question lies a cycle. -/
def gated : Rule where
  id := "r"
  tenantId := "t"
  name := "gated"
  description := none
  status := .active
  priority := 0
  appliesToAssetTypes := ["well"]
  appliesToAssets := none
  nodes := [⟨"start", "manual", .origin, [], [], []⟩,
    ⟨"mark", "set_attribute", .origin, [("attribute", .string "mode"), ("value", .string "busy")], [], []⟩,
    ⟨"busy", "if", .origin, [("expression", .string "attributes.mode == 'busy'")], [], []⟩,
    ⟨"again", "set_status", .origin, [("status", .string "late")], [], []⟩]
  connections :=
    [⟨"1", "start", "out", "mark", "in"⟩, ⟨"2", "start", "out", "busy", "in"⟩, ⟨"3", "busy", "out", "again", "in"⟩,
      ⟨"4", "again", "out", "busy", "in"⟩]
  settings := ⟨none, true⟩
  createdAt := none

def gatedGraph : Graph where
  nodes := [⟨"start", .trigger ⟨.manual, none, none⟩⟩, ⟨"mark", .setAttribute "mode" (.literal (.string "busy"))⟩,
    ⟨"busy", .condition "attributes.mode == 'busy'"⟩, ⟨"again", .setStatus "late"⟩]
  successors := [[1, 2], [], [3], [2]]

def idleWell : Asset := ⟨"a", "t", "well", "", "", [], [("mode", .string "idle")], []⟩

def completes (r : Result (World (Watched Memory)) RunError) : Bool :=
  match r.1 with
  | .ok _ => true
  | .error _ => false

/-- The mark does not reach the question, so that the cycle is not found. -/
theorem walk_gated_pruned :
    Graph.compile gated = .ok (gatedGraph, []) ∧ gatedGraph.trigger = some 0 ∧
    let world : World (Watched Memory) := .start ⟨{ assets := .ofList [idleWell] }, []⟩
    let ctx := Context.of gated.id idleWell .null
    let walk := trace gatedGraph (visitor Memory.backend.watched none ctx true) (.initial 0 world)
    let pruned := trace (gatedGraph.prune idleWell.scope) (visitor Memory.backend.watched none ctx false)
      (.initial 0 world)
    walk.Alike Eq (World.Alike (SameView (Watched.look Memory.outward))) pruned ∧
    walk.result.2.stores.effects.filter Effect.isOutward = pruned.result.2.stores.effects.filter Effect.isOutward ∧
    ∃ o, walk.result.1 = .ok o ∧
      ∀ p, (∃ c ∈ walk.calls, c.position = p) ↔ ReflTransGen (gatedGraph.OpenEdge idleWell.scope) 0 p := by
  have hc : Graph.compile gated = .ok (gatedGraph, []) := rfl
  have hs : gatedGraph.trigger = some 0 := rfl
  refine ⟨hc, hs, ?_⟩
  intro world ctx walk pruned
  obtain ⟨halike, heffects, hvisited⟩ :=
    walk_alike_pruned Memory.journalApart hc hs none idleWell .null world
  have hcompletes : completes walk.result = true := by decide +kernel
  rcases hr : walk.result.1 with f | o
  · simp [completes, hr] at hcompletes
  · exact ⟨halike, heffects, o, rfl, hvisited o hr⟩

end Walk

end RuleFlow
