import RuleFlow.Proofs.Graph.Compiled
import RuleFlow.Proofs.Rule.Validity
/-! # Well-formed rules

What the checks of a rule say of the rule as it is stored: of its nodes, its ids and its connections, with no graph
built.  Main statement: `validate_iff_wellFormed`. -/
namespace RuleFlow

open Relation

def NodeDefinition.role? (d : NodeDefinition) : Option Role := (Node.compile d).toOption.map Node.role

namespace Rule

def ids (r : Rule) : List String := r.nodes.map (·.id)

def firstTrigger? (r : Rule) : Option NodeDefinition := r.nodes.find? fun d => d.role? = some .trigger

/-- What a rule has to be to pass the checks, said of the rule as it is stored. -/
structure WellFormed (r : Rule) : Prop where
  ids_nodup : r.ids.Nodup
  ends_mem : ∀ c ∈ r.connections, c.fromNode ∈ r.ids ∧ c.toNode ∈ r.ids
  compiles : ∀ d ∈ r.nodes, ∃ n, Node.compile d = .ok n
  parses : ∀ d ∈ r.nodes, ∀ source, Node.compile d = .ok ⟨d.id, .condition source⟩ →
    ∃ tree, Expression.parse source = .ok tree
  acyclic : ¬ ∃ id, TransGen r.Leads id id
  reaches_action : r.isActive = true → ∃ t, r.firstTrigger? = some t ∧
    ∃ d ∈ r.nodes, d.role? = some .action ∧ ReflTransGen r.Leads t.id d.id

variable {r : Rule} {g : Graph} {dropped : List DroppedConnection}

theorem duplicate?_eq_none_iff (seen : List String) (nodes : List NodeDefinition) :
    duplicate? seen nodes = none ↔ (nodes.map (·.id)).Nodup ∧ ∀ d ∈ nodes, d.id ∉ seen := by
  induction nodes generalizing seen with
  | nil => simp [duplicate?]
  | cons d rest ih =>
    rw [duplicate?]
    split
    · rename_i hseen
      have hmem : d.id ∈ seen := by simpa using hseen
      simp [hmem]
    · rename_i hseen
      have hmem : d.id ∉ seen := by simpa using hseen
      simp only [ih, List.map_cons, List.nodup_cons, List.mem_map, List.mem_cons, not_or, not_exists, not_and,
        forall_eq_or_imp]
      constructor
      · rintro ⟨hn, hall⟩
        exact ⟨⟨fun e he => (hall e he).1, hn⟩, hmem, fun e he => (hall e he).2⟩
      · rintro ⟨⟨hd, hn⟩, _, hall⟩
        exact ⟨hn, fun e he => ⟨hd e he, hall e he⟩⟩

theorem dangling?_eq_none_iff :
    r.dangling? = none ↔ ∀ c ∈ r.connections, c.fromNode ∈ r.ids ∧ c.toNode ∈ r.ids := by
  unfold dangling? ids
  rw [List.findSome?_eq_none_iff]
  refine forall₂_congr fun c _ => ?_
  by_cases hf : c.fromNode ∈ r.nodes.map (·.id)
  · by_cases ht : c.toNode ∈ r.nodes.map (·.id) <;> simp [hf, ht]
  · simp [hf]

theorem malformed?_eq_none_iff {nodes : List Node} :
    malformed? nodes = none ↔
      ∀ n ∈ nodes, ∀ source, n.kind = .condition source → ∃ tree, Expression.parse source = .ok tree := by
  unfold malformed?
  rw [List.findSome?_eq_none_iff]
  refine forall₂_congr fun n _ => ?_
  cases hk : n.kind with
  | condition source =>
    cases hp : Expression.parse source with
    | ok tree => simp [Expression.ofSource, hp, bind, Except.bind, pure, Except.pure]
    | error e => simp [Expression.ofSource, hp, bind, Except.bind]
  | _ => simp

theorem malformed?_compile (h : Graph.compile r = .ok (g, dropped)) :
    malformed? g.nodes = none ↔ ∀ d ∈ r.nodes, ∀ source, Node.compile d = .ok ⟨d.id, .condition source⟩ →
      ∃ tree, Expression.parse source = .ok tree := by
  rw [malformed?_eq_none_iff]
  have hall := Graph.forall₂_compile h
  generalize r.nodes = ds at hall
  generalize g.nodes = ns at hall
  induction hall with
  | nil => simp
  | @cons d n ds ns hn _ ih =>
    have hid := Node.id_of_compile hn
    have hhead (source : String) : Node.compile d = .ok ⟨d.id, .condition source⟩ ↔ n.kind = .condition source := by
      rw [hn, Except.ok.injEq, ← hid]
      constructor
      · intro h
        rw [h]
      · intro h
        rw [← h]
    simp only [List.forall_mem_cons, ih, hhead]

theorem role?_eq_some_iff {d : NodeDefinition} {n : Node} (h : Node.compile d = .ok n) (role : Role) :
    d.role? = some role ↔ n.role = role := by
  simp [NodeDefinition.role?, h, Except.toOption]

theorem trigger_compile (h : Graph.compile r = .ok (g, dropped)) :
    g.trigger.map g.idAt = r.firstTrigger?.map (·.id) := by
  have hall := Graph.forall₂_compile h
  unfold Graph.trigger Graph.idAt Graph.node? firstTrigger?
  generalize r.nodes = ds at hall
  generalize g.nodes = ns at hall
  induction hall with
  | nil => rfl
  | @cons d n ds ns hn _ ih =>
    rw [List.findIdx?_cons, List.find?_cons]
    by_cases hr : n.role = .trigger
    · simp [(role?_eq_some_iff hn _).2 hr, hr, Node.id_of_compile hn]
    · have hd : ¬ d.role? = some .trigger := mt (role?_eq_some_iff hn _).1 hr
      simpa [hr, hd, Function.comp_def] using ih

theorem exists_action_iff (h : Graph.compile r = .ok (g, dropped)) (P : String → Prop) :
    (∃ p n, g.node? p = some n ∧ n.role = .action ∧ P (g.idAt p)) ↔
      ∃ d ∈ r.nodes, d.role? = some .action ∧ P d.id := by
  have hall := Graph.forall₂_compile h
  have hid {p : Nat} {n : Node} (hn : g.node? p = some n) : g.idAt p = n.id := by simp [Graph.idAt, hn]
  constructor
  · rintro ⟨p, n, hn, hrole, hP⟩
    have hlt : p < r.nodes.length := by
      rw [hall.length_eq]
      exact (List.getElem?_eq_some_iff.1 hn).1
    have hcompile : Node.compile r.nodes[p] = .ok n := by
      have hget := hall.get hlt (hall.length_eq ▸ hlt)
      rwa [← (List.getElem?_eq_some_iff.1 hn).2]
    rw [hid hn, Node.id_of_compile hcompile] at hP
    exact ⟨r.nodes[p], List.getElem_mem hlt, (role?_eq_some_iff hcompile _).2 hrole, hP⟩
  · rintro ⟨d, hd, hrole, hP⟩
    obtain ⟨p, hp, rfl⟩ := List.getElem_of_mem hd
    have hlt : p < g.nodes.length := hall.length_eq ▸ hp
    have hcompile : Node.compile r.nodes[p] = .ok g.nodes[p] := hall.get hp hlt
    have hn : g.node? p = some g.nodes[p] := List.getElem?_eq_getElem hlt
    refine ⟨p, g.nodes[p], hn, (role?_eq_some_iff hcompile _).1 hrole, ?_⟩
    rwa [hid hn, Node.id_of_compile hcompile]

/-- The check of an active rule, on ids: an action can be reached from the first trigger. -/
theorem validateActive_compile (h : Graph.compile r = .ok (g, dropped)) (hn : r.ids.Nodup)
    (hends : ∀ c ∈ r.connections, c.fromNode ∈ r.ids ∧ c.toNode ∈ r.ids) :
    validateActive g = .ok () ↔ ∃ t, r.firstTrigger? = some t ∧
      ∃ d ∈ r.nodes, d.role? = some .action ∧ ReflTransGen r.Leads t.id d.id := by
  have hg := Graph.compile_closed h
  have htrigger := trigger_compile h
  rw [validateActive_eq_ok_iff]
  cases hs : g.trigger with
  | none =>
    rw [hs, Option.map_none, eq_comm, Option.map_eq_none_iff] at htrigger
    simp [htrigger]
  | some start =>
    rw [hs, Option.map_some, eq_comm, Option.map_eq_some_iff] at htrigger
    obtain ⟨t, ht, hid⟩ := htrigger
    have hlt := Graph.trigger_lt hs
    simp only [ht, Option.some.injEq, exists_eq_left', reachesAction_iff hg hlt, hid]
    rw [← exists_action_iff h fun id => ReflTransGen r.Leads (g.idAt start) id]
    refine exists₂_congr fun p n => and_congr_right fun hp => and_congr_right fun _ => ?_
    exact Graph.reaches_iff_leads hends h hn hlt (List.getElem?_eq_some_iff.1 hp).1

/-- A rule passes the checks just if it is well-formed, whatever its nodes and connections are. -/
theorem validate_iff_wellFormed (r : Rule) : r.validate = .ok () ↔ r.WellFormed := by
  rw [validate_eq_ok_iff, duplicate?_eq_none_iff, dangling?_eq_none_iff]
  constructor
  · rintro ⟨⟨hn, _⟩, hends, g, dropped, hc, hm, hf, ha⟩
    have hacyclic := (Graph.findCycle_eq_none_iff (Graph.compile_closed hc)).1 hf
    refine ⟨hn, hends, Graph.exists_compile_iff.1 ⟨g, dropped, hc⟩, (malformed?_compile hc).1 hm, ?_, ?_⟩
    · rw [← Graph.exists_onCycle_iff_leads hends hc]
      exact fun ⟨p, hp⟩ => hacyclic p hp
    · exact fun hactive => (validateActive_compile hc hn hends).1 (ha hactive)
  · rintro ⟨hn, hends, hcompiles, hparses, hacyclic, hactive⟩
    obtain ⟨g, dropped, hc⟩ := Graph.exists_compile_iff.2 hcompiles
    rw [← Graph.exists_onCycle_iff_leads hends hc, not_exists] at hacyclic
    exact ⟨⟨hn, by simp⟩, hends, g, dropped, hc, (malformed?_compile hc).2 hparses,
      (Graph.findCycle_eq_none_iff (Graph.compile_closed hc)).2 hacyclic,
      fun ha => (validateActive_compile hc hn hends).2 (hactive ha)⟩

end Rule

end RuleFlow
