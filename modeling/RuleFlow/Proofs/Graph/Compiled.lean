import Mathlib.Data.List.Forall2
import RuleFlow.Proofs.Graph.Paths
import RuleFlow.Proofs.Node.Fields
/-! # What a rule is compiled to

The nodes of a compiled rule are its stored nodes, one by one, and its edges are the connections whose ends are ids of
nodes.  A position is named by the id of its node.  Main statements: `edge_iff`, and `exists_onCycle_iff_leads` and
`reaches_iff_leads`, by which the edges between positions and the connections between ids reach the same, as long as
no two nodes have one id and no connection is left out. -/
namespace RuleFlow

open Relation

theorem mapM_eq_ok_iff {α β ε : Type} {f : α → Except ε β} {xs : List α} {ys : List β} :
    xs.mapM f = .ok ys ↔ List.Forall₂ (fun x y => f x = .ok y) xs ys := by
  induction xs generalizing ys with
  | nil => cases ys <;> simp [pure, Except.pure]
  | cons x xs ih =>
    rw [List.mapM_cons]
    cases hx : f x with
    | error e => cases ys <;> simp [bind, Except.bind, hx]
    | ok y =>
      cases hxs : xs.mapM f with
      | error e => cases ys <;> simp [bind, Except.bind, hx, ← ih, hxs]
      | ok zs => cases ys <;> simp [bind, Except.bind, pure, Except.pure, hx, ← ih, hxs]

theorem Node.id_of_compile {d : NodeDefinition} {n : Node} (h : Node.compile d = .ok n) : n.id = d.id :=
  ((Node.settles_compile d).of_ok h).1

/-- Whether a connection leads from one id to another. -/
def Rule.Leads (r : Rule) (a b : String) : Prop := ∃ c ∈ r.connections, c.fromNode = a ∧ c.toNode = b

namespace Graph

variable {rule : Rule} {g : Graph} {dropped : List DroppedConnection} {p q : Nat}

theorem forall₂_compile (h : compile rule = .ok (g, dropped)) :
    List.Forall₂ (fun d n => Node.compile d = .ok n) rule.nodes g.nodes := by
  obtain ⟨nodes, hnodes, rfl, _⟩ := compile_eq_ok_iff.1 h
  exact mapM_eq_ok_iff.1 hnodes

theorem exists_compile_iff :
    (∃ g dropped, compile rule = .ok (g, dropped)) ↔ ∀ d ∈ rule.nodes, ∃ n, Node.compile d = .ok n := by
  constructor
  · rintro ⟨g, dropped, h⟩ d hd
    obtain ⟨i, hi, rfl⟩ := List.getElem_of_mem hd
    have hlen := (forall₂_compile h).length_eq
    exact ⟨g.nodes[i], (forall₂_compile h).get hi (hlen ▸ hi)⟩
  · intro h
    have hnodes : ∃ nodes, List.Forall₂ (fun d n => Node.compile d = .ok n) rule.nodes nodes := by
      generalize rule.nodes = ds at h
      induction ds with
      | nil => exact ⟨[], .nil⟩
      | cons d ds ih =>
        obtain ⟨n, hn⟩ := h d List.mem_cons_self
        obtain ⟨nodes, hrest⟩ := ih fun d hd => h d (List.mem_cons_of_mem _ hd)
        exact ⟨n :: nodes, .cons hn hrest⟩
    obtain ⟨nodes, hnodes⟩ := hnodes
    exact ⟨_, _, compile_eq_ok_iff.2 ⟨nodes, mapM_eq_ok_iff.2 hnodes, rfl, rfl⟩⟩

theorem map_id_compile (h : compile rule = .ok (g, dropped)) :
    g.nodes.map (·.id) = rule.nodes.map (·.id) := by
  have hall := forall₂_compile h
  generalize rule.nodes = ds at hall
  generalize g.nodes = ns at hall
  induction hall with
  | nil => rfl
  | cons hn _ ih => rw [List.map_cons, List.map_cons, Node.id_of_compile hn, ih]

theorem resolve_eq_ok_iff {nodes : List Node} {c : Connection} :
    (resolve nodes c).toOption = some (p, q) ↔
      positionIn nodes c.fromNode = some p ∧ positionIn nodes c.toNode = some q := by
  unfold resolve
  cases positionIn nodes c.fromNode with
  | none => simp [Except.toOption]
  | some i => cases positionIn nodes c.toNode <;> simp [Except.toOption]

/-- The edges of a compiled rule are its connections between ids of nodes. -/
theorem edge_iff (h : compile rule = .ok (g, dropped)) :
    g.Edge p q ↔ ∃ c ∈ rule.connections, g.position c.fromNode = some p ∧ g.position c.toNode = some q := by
  obtain ⟨nodes, _, rfl, _⟩ := compile_eq_ok_iff.1 h
  have hedge : (p, q) ∈ edges nodes rule.connections ↔
      ∃ c ∈ rule.connections, positionIn nodes c.fromNode = some p ∧ positionIn nodes c.toNode = some q := by
    simp only [edges, List.mem_filterMap, resolve_eq_ok_iff]
  have htarget : q ∈ targets (edges nodes rule.connections) p ↔ (p, q) ∈ edges nodes rule.connections := by
    simp [targets]
  unfold position
  rw [← hedge, ← htarget]
  by_cases hp : p < nodes.length
  · simp [Edge, next, hp]
  · have hnot : (p, q) ∉ edges nodes rule.connections := fun he => hp (lt_of_mem_edges he).1
    simp [Edge, next, hp, htarget, hnot]

def idAt (g : Graph) (p : Nat) : String := ((g.node? p).map (·.id)).getD ""

def positionOf (g : Graph) (id : String) : Nat := (g.position id).getD 0

theorem idAt_of_position {id : String} (h : g.position id = some p) : g.idAt p = id := by
  obtain ⟨hp, hid, _⟩ := List.findIdx?_eq_some_iff_getElem.1 h
  simpa [idAt, node?, hp] using hid

theorem exists_position {id : String} (h : id ∈ g.nodes.map (·.id)) : ∃ p, g.position id = some p := by
  obtain ⟨n, hn, rfl⟩ := List.mem_map.1 h
  cases hp : g.position n.id with
  | some p => exact ⟨p, rfl⟩
  | none =>
    have hnone := List.findIdx?_eq_none_iff.1 hp n hn
    simp at hnone

theorem position_idAt (hn : (g.nodes.map (·.id)).Nodup) (hp : p < g.size) : g.position (g.idAt p) = some p := by
  obtain ⟨n, hnode⟩ := node?_eq_some_of_lt hp
  have hid : g.idAt p = n.id := by rw [idAt, hnode]; rfl
  obtain ⟨q, hq⟩ := exists_position (List.mem_map_of_mem (List.mem_of_getElem? hnode))
  obtain ⟨hlt, hq', _⟩ := List.findIdx?_eq_some_iff_getElem.1 hq
  have heq : (g.nodes.map (·.id))[q]? = (g.nodes.map (·.id))[p]? := by
    rw [List.getElem?_map, List.getElem?_map, List.getElem?_eq_getElem hlt, show g.nodes[p]? = some n from hnode]
    simpa using hq'
  obtain rfl : q = p := (List.getElem?_inj (by simpa using hlt) hn).1 heq
  rw [hid, hq]

/-- If no two nodes have one id, a position is the only one of its id. -/
theorem positionOf_idAt (hn : (g.nodes.map (·.id)).Nodup) (hp : p < g.size) : g.positionOf (g.idAt p) = p := by
  rw [positionOf, position_idAt hn hp]
  rfl

theorem leads_of_edge (h : compile rule = .ok (g, dropped)) (hpq : g.Edge p q) :
    rule.Leads (g.idAt p) (g.idAt q) := by
  obtain ⟨c, hc, hp, hq⟩ := (edge_iff h).1 hpq
  exact ⟨c, hc, (idAt_of_position hp).symm, (idAt_of_position hq).symm⟩

variable (hends : ∀ c ∈ rule.connections, c.fromNode ∈ rule.nodes.map (·.id) ∧ c.toNode ∈ rule.nodes.map (·.id))
include hends

theorem edge_of_leads (h : compile rule = .ok (g, dropped)) {a b : String} (hab : rule.Leads a b) :
    g.Edge (g.positionOf a) (g.positionOf b) := by
  obtain ⟨c, hc, rfl, rfl⟩ := hab
  obtain ⟨hfrom, hto⟩ := hends c hc
  rw [← map_id_compile h] at hfrom hto
  obtain ⟨p, hp⟩ := exists_position hfrom
  obtain ⟨q, hq⟩ := exists_position hto
  exact (edge_iff h).2 ⟨c, hc, by rw [positionOf, hp]; rfl, by rw [positionOf, hq]; rfl⟩

/-- A compiled rule has a cycle just if its connections lead from an id back to it. -/
theorem exists_onCycle_iff_leads (h : compile rule = .ok (g, dropped)) :
    (∃ p, g.OnCycle p) ↔ ∃ id, TransGen rule.Leads id id := by
  constructor
  · rintro ⟨p, hp⟩
    exact ⟨g.idAt p, TransGen.lift g.idAt (fun _ _ => leads_of_edge h) _ _ hp⟩
  · rintro ⟨id, hid⟩
    exact ⟨g.positionOf id, TransGen.lift g.positionOf (fun _ _ => edge_of_leads hends h) _ _ hid⟩

theorem reaches_iff_leads (h : compile rule = .ok (g, dropped)) (hn : (rule.nodes.map (·.id)).Nodup)
    (hp : p < g.size) (hq : q < g.size) :
    ReflTransGen g.Edge p q ↔ ReflTransGen rule.Leads (g.idAt p) (g.idAt q) := by
  rw [← map_id_compile h] at hn
  constructor
  · exact ReflTransGen.lift g.idAt (fun _ _ => leads_of_edge h) _ _
  · intro hreach
    have hlift : ReflTransGen g.Edge (g.positionOf (g.idAt p)) (g.positionOf (g.idAt q)) :=
      ReflTransGen.lift g.positionOf (fun _ _ => edge_of_leads hends h) _ _ hreach
    rwa [positionOf_idAt hn hp, positionOf_idAt hn hq] at hlift

end Graph

end RuleFlow
