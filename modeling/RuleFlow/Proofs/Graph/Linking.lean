import Mathlib.Data.List.Induction
import RuleFlow.Proofs.Rule.ReachablePart
/-! # Connections one by one

A graph can be put together in one pass: the ids of the nodes are entered in an index, in which the first position of an
id stays, and then each connection is looked up in it and put behind the others of its source, or dropped.  Main
statements: `foldlM_link`, by which this is what compiling makes of the connections, and `map_next` and
`dropped_compile`, which say what that is. -/
namespace RuleFlow

def Rule.Joins (r : Rule) (c : Connection) : Prop := c.fromNode ∈ r.ids ∧ c.toNode ∈ r.ids

instance (r : Rule) : DecidablePred r.Joins := fun _ => inferInstanceAs (Decidable (_ ∧ _))

/-- A connection that joins no nodes, with the end that it is dropped for: the source before the target. -/
def Rule.drop (r : Rule) (c : Connection) : DroppedConnection := ⟨c, if c.fromNode ∉ r.ids then .source else .target⟩

namespace Graph

variable {rule : Rule} {g : Graph} {dropped : List DroppedConnection} {nodes : List Node} {p : Nat} {id : String}

def enter (index : List (String × Nat)) (entry : Node × Nat) : List (String × Nat) :=
  match index.lookup entry.1.id with
  | some _ => index
  | none => (entry.1.id, entry.2) :: index

def index (nodes : List Node) : List (String × Nat) := nodes.zipIdx.foldl enter []

theorem lookup_enter (index : List (String × Nat)) (n : Node) (p : Nat) (id : String) :
    (enter index (n, p)).lookup id = (index.lookup id).or (if n.id = id then some p else none) := by
  unfold enter
  split
  · rename_i q hq
    by_cases hid : n.id = id
    · rw [← hid, hq, Option.some_or]
    · rw [if_neg hid, Option.or_none]
  · rename_i hq
    by_cases hid : n.id = id
    · rw [← hid, hq, if_pos rfl, List.lookup_cons_self, Option.none_or]
    · have hne : (id == n.id) = false := beq_eq_false_iff_ne.2 (Ne.symm hid)
      rw [if_neg hid, Option.or_none, List.lookup_cons, hne]

/-- Positions that are entered already stay, whatever nodes come after them. -/
theorem lookup_foldl_enter (index : List (String × Nat)) (first : Nat) (id : String) :
    ((nodes.zipIdx first).foldl enter index).lookup id =
      (index.lookup id).or ((positionIn nodes id).map (· + first)) := by
  induction nodes generalizing index first with
  | nil => exact (Option.or_none).symm
  | cons n rest ih =>
    rw [List.zipIdx_cons, List.foldl_cons, ih, lookup_enter, Option.or_assoc]
    congr 1
    unfold positionIn
    rw [List.findIdx?_cons]
    by_cases hid : n.id = id
    · simp [hid]
    · simp [hid, Function.comp_def, Nat.add_assoc, Nat.add_comm 1 first]

/-- The index has the first position of each id. -/
theorem lookup_index (nodes : List Node) (id : String) : (index nodes).lookup id = positionIn nodes id := by
  rw [index, lookup_foldl_enter, List.lookup_nil, Option.none_or]
  simp

/-- What the connections so far have been made of: the lists of successors, one for each node, and those dropped. -/
structure Links where
  successors : List (List Nat)
  dropped : List DroppedConnection

/-- Looks up the ends of a connection, the source first, and puts the target behind the successors of the source.  Fails
if there is no list of successors at the position of the source. -/
def link (index : List (String × Nat)) (l : Links) (c : Connection) : Option Links :=
  match index.lookup c.fromNode with
  | none => some { l with dropped := l.dropped ++ [⟨c, .source⟩] }
  | some p =>
    match index.lookup c.toNode with
    | none => some { l with dropped := l.dropped ++ [⟨c, .target⟩] }
    | some q =>
      if p < l.successors.length then some { l with successors := l.successors.modify p (· ++ [q]) } else none

def links (nodes : List Node) (connections : List Connection) : Links :=
  ⟨(List.range nodes.length).map (targets (edges nodes connections)), Graph.dropped nodes connections⟩

theorem map_targets_concat (edges : List (Nat × Nat)) (e : Nat × Nat) (size : Nat) :
    (List.range size).map (targets (edges ++ [e])) =
      ((List.range size).map (targets edges)).modify e.1 (· ++ [e.2]) := by
  refine List.ext_getElem (by simp) fun i hi hi' => ?_
  rw [List.getElem_modify]
  by_cases h : e.1 = i <;> simp [targets, h]

/-- One connection more is looked up and put behind the others. -/
theorem link_links (nodes : List Node) (connections : List Connection) (c : Connection) :
    link (index nodes) (links nodes connections) c = some (links nodes (connections ++ [c])) := by
  have hedges : edges nodes (connections ++ [c]) = edges nodes connections ++ edges nodes [c] :=
    List.filterMap_append
  have hdropped : Graph.dropped nodes (connections ++ [c]) =
      Graph.dropped nodes connections ++ Graph.dropped nodes [c] := List.filterMap_append
  unfold link
  rw [lookup_index, lookup_index]
  simp only [links, hedges, hdropped]
  cases hfrom : positionIn nodes c.fromNode with
  | none =>
    have hr : resolve nodes c = .error ⟨c, .source⟩ := by rw [resolve, hfrom]
    simp [edges, Graph.dropped, hr, Except.toOption]
  | some p =>
    cases hto : positionIn nodes c.toNode with
    | none =>
      have hr : resolve nodes c = .error ⟨c, .target⟩ := by rw [resolve, hfrom, hto]
      simp [edges, Graph.dropped, hr, Except.toOption]
    | some q =>
      have hr : resolve nodes c = .ok (p, q) := by rw [resolve, hfrom, hto]
      have hedge : edges nodes [c] = [(p, q)] := by simp [edges, hr, Except.toOption]
      have hkept : Graph.dropped nodes [c] = [] := by simp [Graph.dropped, hr]
      have hp : p < ((List.range nodes.length).map (targets (edges nodes connections))).length := by
        simpa using positionIn_lt hfrom
      rw [hedge, hkept, map_targets_concat, List.append_nil]
      exact if_pos hp

/-- The pass over all connections gives what the rule is compiled to. -/
theorem foldlM_link (nodes : List Node) (connections : List Connection) :
    connections.foldlM (link (index nodes)) ⟨List.replicate nodes.length [], []⟩ = some (links nodes connections) := by
  induction connections using List.reverseRecOn with
  | nil =>
    have hempty : (List.range nodes.length).map (targets []) = List.replicate nodes.length [] :=
      List.eq_replicate_iff.2 ⟨by simp, by simp [targets]⟩
    exact congrArg some (Links.mk.injEq .. ▸ ⟨hempty.symm, rfl⟩)
  | append_singleton connections c ih =>
    rw [List.foldlM_append, ih]
    exact (bind_pure _).trans (link_links nodes connections c)

theorem position_eq_some_iff (h : compile rule = .ok (g, dropped)) :
    g.position id = some p ↔ rule.ids[p]? = some id ∧ id ∉ rule.ids.take p := by
  have hids : rule.ids = g.nodes.map (·.id) := (map_id_compile h).symm
  rw [position, positionIn, List.findIdx?_eq_some_iff_getElem, hids]
  constructor
  · rintro ⟨hp, hid, hbefore⟩
    refine ⟨by simpa [hp] using hid, fun hmem => ?_⟩
    obtain ⟨i, hi, hi'⟩ := List.mem_take_iff_getElem.1 hmem
    have hlt : i < p := by omega
    simpa using hbefore i hlt (by simpa using hi')
  · rintro ⟨hid, hbefore⟩
    obtain ⟨hp, hid⟩ := List.getElem?_eq_some_iff.1 hid
    rw [List.length_map] at hp
    refine ⟨hp, by simpa using hid, fun i hi hi' => hbefore ?_⟩
    exact List.mem_take_iff_getElem.2 ⟨i, by simpa using ⟨hi, by omega⟩, by simpa using hi'⟩

theorem resolve_compile (h : compile rule = .ok (g, dropped)) (c : Connection) :
    (rule.Joins c ∧ ∃ p q, g.position c.fromNode = some p ∧ g.position c.toNode = some q ∧
      resolve g.nodes c = .ok (p, q)) ∨ ¬rule.Joins c ∧ resolve g.nodes c = .error (rule.drop c) := by
  have hids (id : String) : id ∈ rule.ids ↔ (positionIn g.nodes id).isSome :=
    (mem_ids_iff h).trans Option.isSome_iff_exists.symm
  cases hfrom : positionIn g.nodes c.fromNode with
  | none =>
    have hsource : c.fromNode ∉ rule.ids := by simp [hids, hfrom]
    exact .inr ⟨fun hjoins => hsource hjoins.1, by rw [resolve, hfrom, Rule.drop, if_pos hsource]⟩
  | some p =>
    have hsource : c.fromNode ∈ rule.ids := by simp [hids, hfrom]
    cases hto : positionIn g.nodes c.toNode with
    | none =>
      have htarget : c.toNode ∉ rule.ids := by simp [hids, hto]
      exact .inr ⟨fun hjoins => htarget hjoins.2, by rw [resolve, hfrom, hto, Rule.drop, if_neg (not_not.2 hsource)]⟩
    | some q =>
      have htarget : c.toNode ∈ rule.ids := by simp [hids, hto]
      exact .inl ⟨⟨hsource, htarget⟩, p, q, hfrom, hto, by rw [resolve, hfrom, hto]⟩

theorem next_eq_targets (h : compile rule = .ok (g, dropped)) (p : Nat) :
    g.next p = targets (edges g.nodes rule.connections) p := by
  obtain ⟨nodes, -, rfl, -⟩ := compile_eq_ok_iff.1 h
  by_cases hp : p < nodes.length
  · simp [next, hp]
  · have hnone : targets (edges nodes rule.connections) p = [] := by
      refine List.filterMap_eq_nil_iff.2 fun e he => if_neg ?_
      rintro rfl
      exact hp (lt_of_mem_edges he).1
    simp [next, hp, hnone]

/-- The successors of a position are the positions of the targets of its connections, in their order and as often as
there are connections; those that join no nodes are left out. -/
theorem map_next (h : compile rule = .ok (g, dropped)) (p : Nat) :
    (g.next p).map some =
      (rule.connections.filter fun c => rule.Joins c ∧ g.position c.fromNode = some p).map (g.position ·.toNode) := by
  rw [next_eq_targets h, targets, edges, List.filterMap_filterMap, List.map_filterMap, ← List.filterMap_eq_map,
    List.filterMap_filter]
  refine List.filterMap_congr fun c _ => ?_
  rcases resolve_compile h c with ⟨hjoins, i, j, hi, hj, hr⟩ | ⟨hjoins, hr⟩
  · by_cases hp : i = p <;> simp [hr, hi, hj, hjoins, hp, Except.toOption]
  · simp [hr, hjoins, Except.toOption]

/-- Each connection that joins no nodes is dropped, once and in its place. -/
theorem dropped_compile (h : compile rule = .ok (g, dropped)) :
    dropped = (rule.connections.filter fun c => ¬rule.Joins c).map rule.drop := by
  have hdropped : dropped = Graph.dropped g.nodes rule.connections := by
    obtain ⟨nodes, -, rfl, rfl⟩ := compile_eq_ok_iff.1 h
    rfl
  rw [hdropped, Graph.dropped, ← List.filterMap_eq_map, List.filterMap_filter]
  refine List.filterMap_congr fun c _ => ?_
  rcases resolve_compile h c with ⟨hjoins, i, j, -, -, hr⟩ | ⟨hjoins, hr⟩
  · simp [hr, hjoins]
  · simp [hr, hjoins]

theorem foldlM_link_compile (h : compile rule = .ok (g, dropped)) :
    rule.connections.foldlM (link (index g.nodes)) ⟨List.replicate g.size [], []⟩ = some ⟨g.successors, dropped⟩ := by
  obtain ⟨nodes, -, rfl, rfl⟩ := compile_eq_ok_iff.1 h
  exact foldlM_link nodes rule.connections

end Graph

end RuleFlow
