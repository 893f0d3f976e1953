import RuleFlow.Proofs.Rule.WellFormed
/-! # The part of a rule that can be reached

The nodes to which the connections lead from the first trigger, each with the ids that follow it, are the part of a rule
that a walk can come to.  Main statements: `SamePart.of_edits`, by which changes elsewhere leave this part as it is, and
`Graph.next_compile`, by which the compiled rule goes on as the stored one says. -/
namespace RuleFlow

open Relation

namespace Rule

def definition? (r : Rule) (id : String) : Option NodeDefinition := r.nodes.find? fun d => d.id = id

/-- The ids that follow an id, in the order of the connections.  An end that is the id of no node is left out. -/
def successorIds (r : Rule) (id : String) : List String :=
  ((r.connections.filter fun c => c.fromNode = id).map (·.toNode)).filter fun a => a ∈ r.ids

def Follows (r : Rule) (a b : String) : Prop := b ∈ r.successorIds a

/-- Whether an id is that of the first trigger or comes after it. -/
def Reached (r : Rule) (id : String) : Prop := ∃ t, r.firstTrigger? = some t ∧ ReflTransGen r.Follows t.id id

structure Sound (r : Rule) : Prop where
  ids_nodup : r.ids.Nodup
  compiles : ∃ g dropped, Graph.compile r = .ok (g, dropped)

/-- Whether two rules are meant for the same assets, are run with the same settings, and agree on what can be reached
from their first triggers. -/
structure SamePart (r r' : Rule) : Prop where
  id : r.id = r'.id
  assetTypes : r.appliesToAssetTypes = r'.appliesToAssetTypes
  assets : r.appliesToAssets = r'.appliesToAssets
  settings : r.settings = r'.settings
  trigger : r.firstTrigger?.map (·.id) = r'.firstTrigger?.map (·.id)
  definition (id : String) (h : r.Reached id) : r.definition? id = r'.definition? id
  successors (id : String) (h : r.Reached id) : r.successorIds id = r'.successorIds id

variable {r r' r'' : Rule} {a b id : String} {d : NodeDefinition}

theorem Reached.tail (h : r.Reached a) (hab : r.Follows a b) : r.Reached b := by
  obtain ⟨t, ht, hreach⟩ := h
  exact ⟨t, ht, hreach.tail hab⟩

theorem reached_trigger {t : NodeDefinition} (h : r.firstTrigger? = some t) : r.Reached t.id := ⟨t, h, .refl⟩

theorem mem_successorIds : b ∈ r.successorIds a ↔ r.Leads a b ∧ b ∈ r.ids := by
  simp only [successorIds, List.mem_filter, List.mem_map, decide_eq_true_eq, Leads]
  constructor
  · rintro ⟨⟨c, ⟨hc, hfrom⟩, hto⟩, hb⟩
    exact ⟨⟨c, hc, hfrom, hto⟩, hb⟩
  · rintro ⟨⟨c, hc, hfrom, hto⟩, hb⟩
    exact ⟨⟨c, ⟨hc, hfrom⟩, hto⟩, hb⟩

theorem successorIds_eq (r : Rule) (id : String) : r.successorIds id =
    r.connections.filterMap fun c => if c.fromNode = id ∧ c.toNode ∈ r.ids then some c.toNode else none := by
  unfold successorIds
  induction r.connections with
  | nil => rfl
  | cons c cs ih =>
    by_cases hfrom : c.fromNode = id
    · by_cases hto : c.toNode ∈ r.ids <;> simp [hfrom, hto, ← ih]
    · simp [hfrom, ← ih]

/-- What is said of the first trigger, and of all that follows an id of which it is said, is said of all that can be
reached. -/
theorem Reached.induction {P : String → Prop} (htrigger : ∀ t, r.firstTrigger? = some t → P t.id)
    (hfollows : ∀ a b, r.Reached a → P a → r.Follows a b → P b) (h : r.Reached id) : P id := by
  obtain ⟨t, ht, hreach⟩ := h
  induction hreach with
  | refl => exact htrigger t ht
  | tail hreach hab ih => exact hfollows _ _ ⟨t, ht, hreach⟩ ih hab

theorem Reached.mem_ids (h : r.Reached id) : id ∈ r.ids :=
  h.induction (P := (· ∈ r.ids)) (fun _ ht => List.mem_map_of_mem (List.mem_of_find?_eq_some ht))
    fun _ _ _ _ hab => (mem_successorIds.1 hab).2

theorem definition?_eq_some_iff (hn : r.ids.Nodup) : r.definition? id = some d ↔ d ∈ r.nodes ∧ d.id = id := by
  constructor
  · intro h
    exact ⟨List.mem_of_find?_eq_some h, by simpa using List.find?_some h⟩
  · rintro ⟨hd, rfl⟩
    cases hfound : r.definition? d.id with
    | none => simpa using List.find?_eq_none.1 hfound d hd
    | some e =>
      have he : e ∈ r.nodes := List.mem_of_find?_eq_some hfound
      have hid : e.id = d.id := by simpa using List.find?_some hfound
      rw [List.inj_on_of_nodup_map hn he hd hid]

namespace SamePart

theorem refl (r : Rule) : r.SamePart r := ⟨rfl, rfl, rfl, rfl, rfl, fun _ _ => rfl, fun _ _ => rfl⟩

theorem exists_trigger (h : r.SamePart r') {t : NodeDefinition} (ht : r.firstTrigger? = some t) :
    ∃ t', r'.firstTrigger? = some t' ∧ t'.id = t.id := by
  have htrigger := h.trigger
  rw [ht, Option.map_some, eq_comm, Option.map_eq_some_iff] at htrigger
  exact htrigger

theorem reached_of (h : r.SamePart r') (hid : r.Reached id) : r'.Reached id := by
  refine hid.induction (fun t ht => ?_) fun a b ha ha' hab => ?_
  · obtain ⟨t', ht', heq⟩ := h.exists_trigger ht
    exact heq ▸ reached_trigger ht'
  · have hfollows : b ∈ r'.successorIds a := h.successors a ha ▸ hab
    exact ha'.tail hfollows

theorem reached_iff (h : r.SamePart r') : r.Reached id ↔ r'.Reached id := by
  refine ⟨h.reached_of, fun hid => ?_⟩
  refine hid.induction (fun t' ht' => ?_) fun a b _ ha hab => ?_
  · have htrigger := h.trigger
    rw [ht', Option.map_some, Option.map_eq_some_iff] at htrigger
    obtain ⟨t, ht, heq⟩ := htrigger
    exact heq ▸ reached_trigger ht
  · have hfollows : b ∈ r.successorIds a := h.successors a ha ▸ hab
    exact ha.tail hfollows

theorem symm (h : r.SamePart r') : r'.SamePart r where
  id := h.id.symm
  assetTypes := h.assetTypes.symm
  assets := h.assets.symm
  settings := h.settings.symm
  trigger := h.trigger.symm
  definition id hid := (h.definition id (h.reached_iff.2 hid)).symm
  successors id hid := (h.successors id (h.reached_iff.2 hid)).symm

theorem trans (h : r.SamePart r') (h' : r'.SamePart r'') : r.SamePart r'' where
  id := h.id.trans h'.id
  assetTypes := h.assetTypes.trans h'.assetTypes
  assets := h.assets.trans h'.assets
  settings := h.settings.trans h'.settings
  trigger := h.trigger.trans h'.trigger
  definition id hid := (h.definition id hid).trans (h'.definition id (h.reached_of hid))
  successors id hid := (h.successors id hid).trans (h'.successors id (h.reached_of hid))

end SamePart

/-- Changes of the stored rule that leave alone what can be reached.  A node or a connection is removed that nothing
leads to in the rule that has it; the other way round, one is added. -/
inductive Edit : Rule → Rule → Prop
  | reorder (r : Rule) {nodes : List NodeDefinition} (hnodes : r.nodes.Perm nodes)
    (htrigger : { r with nodes }.firstTrigger? = r.firstTrigger?) : Edit r { r with nodes }
  | interleave (r : Rule) {connections : List Connection}
    (h : ∀ id, (connections.filter fun c => c.fromNode = id) = r.connections.filter fun c => c.fromNode = id) :
    Edit r { r with connections }
  | removeNode (r : Rule) {front back : List NodeDefinition} {d : NodeDefinition}
    (hnodes : r.nodes = front ++ d :: back) (hd : ¬ r.Reached d.id) : Edit r { r with nodes := front ++ back }
  | removeConnection (r : Rule) {front back : List Connection} {c : Connection}
    (hconnections : r.connections = front ++ c :: back) (hc : ¬ r.Reached c.fromNode) :
    Edit r { r with connections := front ++ back }

/-- Whether one rule can be made of another by such changes, done and undone, with no rule on the way that has an id
twice or does not compile. -/
def Edits : Rule → Rule → Prop := EqvGen fun r r' => r.Sound ∧ r.Edit r'

theorem Edit.exists_perm (h : r.Edit r') : ∃ nodes, r.nodes.Perm nodes ∧ r'.nodes.Sublist nodes := by
  cases h with
  | reorder hnodes _ => exact ⟨_, hnodes, .refl _⟩
  | interleave _ => exact ⟨_, .refl _, .refl _⟩
  | removeNode hnodes _ =>
    refine ⟨_, .refl _, ?_⟩
    rw [hnodes]
    exact (List.Sublist.refl _).append (List.sublist_cons_self _ _)
  | removeConnection _ _ => exact ⟨_, .refl _, .refl _⟩

theorem Edit.sound (h : r.Edit r') (hr : r.Sound) : r'.Sound := by
  obtain ⟨nodes, hperm, hsub⟩ := h.exists_perm
  refine ⟨?_, Graph.exists_compile_iff.2 fun d hd => ?_⟩
  · exact ((hperm.map _).nodup hr.ids_nodup).sublist (hsub.map _)
  · exact Graph.exists_compile_iff.1 hr.compiles d (hperm.mem_iff.2 (hsub.mem hd))

/-- Other nodes make no difference if the reached ones are there, and the first trigger is the same. -/
theorem samePart_of_nodes {nodes : List NodeDefinition} (hn : r.ids.Nodup) (hn' : { r with nodes }.ids.Nodup)
    (htrigger : { r with nodes }.firstTrigger? = r.firstTrigger?) (hsub : ∀ d ∈ nodes, d ∈ r.nodes)
    (hkept : ∀ d ∈ r.nodes, r.Reached d.id → d ∈ nodes) : r.SamePart { r with nodes } := by
  have hids' {a : String} (hmem : a ∈ { r with nodes }.ids) : a ∈ r.ids := by
    obtain ⟨d, hd, rfl⟩ := List.mem_map.1 hmem
    exact List.mem_map_of_mem (hsub d hd)
  have hids {a : String} (ha : r.Reached a) : a ∈ r.ids ↔ a ∈ { r with nodes }.ids := by
    refine ⟨fun hmem => ?_, hids'⟩
    obtain ⟨d, hd, rfl⟩ := List.mem_map.1 hmem
    exact List.mem_map_of_mem (hkept d hd ha)
  refine ⟨rfl, rfl, rfl, rfl, congrArg _ htrigger.symm, fun id hid => Option.ext fun d => ?_, fun id hid => ?_⟩
  · rw [definition?_eq_some_iff hn, definition?_eq_some_iff hn']
    constructor
    · rintro ⟨hd, rfl⟩
      exact ⟨hkept d hd hid, rfl⟩
    · rintro ⟨hd, rfl⟩
      exact ⟨hsub d hd, rfl⟩
  · refine List.filter_congr fun a ha => decide_eq_decide.2 ?_
    obtain ⟨c, hc, rfl⟩ := List.mem_map.1 ha
    obtain ⟨hmem, hfrom⟩ := List.mem_filter.1 hc
    by_cases hto : c.toNode ∈ r.ids
    · exact hids (hid.tail (mem_successorIds.2 ⟨⟨c, hmem, by simpa using hfrom, rfl⟩, hto⟩))
    · exact iff_of_false hto (mt hids' hto)

theorem Edit.samePart (h : r.Edit r') (hn : r.ids.Nodup) (hn' : r'.ids.Nodup) : r.SamePart r' := by
  cases h with
  | reorder hnodes htrigger =>
    exact samePart_of_nodes hn hn' htrigger (fun _ => hnodes.mem_iff.2) fun _ hd _ => hnodes.mem_iff.1 hd
  | interleave h =>
    refine ⟨rfl, rfl, rfl, rfl, rfl, fun _ _ => rfl, fun id _ => ?_⟩
    unfold successorIds
    rw [h]
    rfl
  | @removeNode front back d hnodes hd =>
    refine samePart_of_nodes hn hn' ?_ ?_ ?_
    · -- A trigger can be removed as well, but not the first one, which is reached.
      cases hfront : front.find? fun e => e.role? = some .trigger with
      | some t => simp only [firstTrigger?, hnodes, List.find?_append, hfront, Option.some_or]
      | none =>
        have hrole : ¬ d.role? = some .trigger := by
          intro hrole
          apply hd
          apply reached_trigger
          simp only [firstTrigger?, hnodes, List.find?_append, hfront, List.find?_cons, hrole, decide_true,
            Option.none_or]
        simp only [firstTrigger?, hnodes, List.find?_append, List.find?_cons, hrole, decide_false]
    · intro e he
      rw [hnodes]
      exact ((List.Sublist.refl _).append (List.sublist_cons_self _ _)).mem he
    · intro e he hreached
      have hne : e ≠ d := by
        rintro rfl
        exact hd hreached
      rw [hnodes] at he
      simpa [hne] using he
  | @removeConnection front back c hconnections hc =>
    refine ⟨rfl, rfl, rfl, rfl, rfl, fun _ _ => rfl, fun id hid => ?_⟩
    have hne : c.fromNode ≠ id := by
      rintro rfl
      exact hc hid
    unfold successorIds
    simp only [hconnections, List.filter_append, List.filter_cons, hne, decide_false]
    rfl

theorem Edits.sound_iff (h : r.Edits r') : r.Sound ↔ r'.Sound := by
  induction h with
  | rel r r' h => exact iff_of_true h.1 (h.2.sound h.1)
  | refl r => exact .rfl
  | symm r r' _ ih => exact ih.symm
  | trans r r' r'' _ _ ih ih' => exact ih.trans ih'

theorem SamePart.of_edits (h : r.Edits r') : r.SamePart r' := by
  induction h with
  | rel r r' h => exact h.2.samePart h.1.ids_nodup (h.2.sound h.1).ids_nodup
  | refl r => exact .refl r
  | symm r r' _ ih => exact ih.symm
  | trans r r' r'' _ _ ih ih' => exact ih.trans ih'

end Rule

namespace Graph

variable {rule : Rule} {g : Graph} {dropped : List DroppedConnection} {p : Nat}

theorem definition?_idAt (h : compile rule = .ok (g, dropped)) (hn : rule.ids.Nodup) (hp : p < g.size) :
    ∃ d n, rule.definition? (g.idAt p) = some d ∧ Node.compile d = .ok n ∧ g.node? p = some n := by
  have hall := forall₂_compile h
  have hlt : p < rule.nodes.length := hall.length_eq.symm ▸ hp
  have hcompile : Node.compile rule.nodes[p] = .ok g.nodes[p] := hall.get hlt hp
  have hnode : g.node? p = some g.nodes[p] := List.getElem?_eq_getElem hp
  have hid : rule.nodes[p].id = g.idAt p := by
    rw [idAt, hnode, ← Node.id_of_compile hcompile]
    rfl
  exact ⟨_, _, (Rule.definition?_eq_some_iff hn).2 ⟨List.getElem_mem hlt, hid⟩, hcompile, hnode⟩

theorem mem_ids_iff (h : compile rule = .ok (g, dropped)) {id : String} :
    id ∈ rule.ids ↔ ∃ q, g.position id = some q := by
  rw [show rule.ids = g.nodes.map (·.id) from (map_id_compile h).symm]
  refine ⟨exists_position, ?_⟩
  rintro ⟨q, hq⟩
  obtain ⟨hlt, hid, _⟩ := List.findIdx?_eq_some_iff_getElem.1 hq
  exact List.mem_map.2 ⟨g.nodes[q], List.getElem_mem hlt, by simpa using hid⟩

theorem target_resolve (h : compile rule = .ok (g, dropped)) (hn : rule.ids.Nodup) (hp : p < g.size) (c : Connection) :
    (((resolve g.nodes c).toOption.bind fun e => if e.1 = p then some e.2 else none).map g.idAt) =
      if c.fromNode = g.idAt p ∧ c.toNode ∈ rule.ids then some c.toNode else none := by
  have hfrom : g.position c.fromNode = some p ↔ c.fromNode = g.idAt p :=
    ⟨fun hi => (idAt_of_position hi).symm, fun hid => hid ▸ position_idAt ((map_id_compile h).symm ▸ hn) hp⟩
  cases hresolve : (resolve g.nodes c).toOption with
  | none =>
    rw [if_neg]
    · rfl
    rintro ⟨hid, hmem⟩
    obtain ⟨q, hq⟩ := (mem_ids_iff h).1 hmem
    have hsome : (resolve g.nodes c).toOption = some (p, q) := resolve_eq_ok_iff.2 ⟨hfrom.2 hid, hq⟩
    rw [hresolve] at hsome
    cases hsome
  | some e =>
    obtain ⟨i, j⟩ := e
    obtain ⟨hi, hj⟩ : g.position c.fromNode = some i ∧ g.position c.toNode = some j :=
      resolve_eq_ok_iff.1 hresolve
    have hmem : c.toNode ∈ rule.ids := (mem_ids_iff h).2 ⟨j, hj⟩
    rw [hi, Option.some.injEq] at hfrom
    by_cases hip : i = p
    · simp [hip, hfrom.1 hip, hmem, idAt_of_position hj]
    · simp [hip, mt hfrom.2 hip]

/-- What follows a position is what follows its id. -/
theorem next_compile (h : compile rule = .ok (g, dropped)) (hn : rule.ids.Nodup) (hp : p < g.size) :
    (g.next p).map g.idAt = rule.successorIds (g.idAt p) := by
  have hnext : g.next p = targets (edges g.nodes rule.connections) p := by
    obtain ⟨nodes, _, rfl, _⟩ := compile_eq_ok_iff.1 h
    have hlt : p < nodes.length := hp
    simp [next, hlt]
  rw [hnext, Rule.successorIds_eq, targets, edges, List.filterMap_filterMap, List.map_filterMap]
  exact congrArg (List.filterMap · _) (funext fun c => target_resolve h hn hp c)

end Graph

end RuleFlow
