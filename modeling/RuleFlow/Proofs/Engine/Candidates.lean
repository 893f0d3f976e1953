import RuleFlow.Engine.Basic
import RuleFlow.Proofs.Graph.Compiled
import RuleFlow.Rule.Store
/-! # Which rules an event runs

The stored rules that an event runs, and their order, said of the rule store and of each rule alone.  Main statements:
`candidates_of_store`, by which the engine selects these rules in this order, and `firedBy_iff_triggers`, by which it
does not matter to a rule that compiles whether its triggers are compiled alone. -/
namespace RuleFlow

/-- Whether an event fires a trigger of a rule: a node that is a trigger if it is compiled alone. -/
def Rule.FiredBy (r : Rule) (event : Event) : Prop :=
  ∃ d ∈ r.nodes, ∃ t : Trigger, Node.compile d = .ok ⟨d.id, .trigger t⟩ ∧ t.fires event.kind event.key = true

structure Rule.RunsOn (r : Rule) (event : Event) : Prop where
  tenant : r.tenantId = event.asset.tenantId
  active : r.status = .active
  assetType : event.asset.typeId ∈ r.appliesToAssetTypes
  named : ∀ id, event.rule? = some id → id = r.id
  fired : r.FiredBy event

namespace Engine

theorem firesOn_iff {kind : TriggerKind} {key : Option String} {d : NodeDefinition} :
    firesOn kind key d = true ↔ ∃ t : Trigger, Node.compile d = .ok ⟨d.id, .trigger t⟩ ∧ t.fires kind key = true := by
  unfold firesOn
  cases hc : Node.compile d with
  | error e => simp
  | ok n =>
    obtain ⟨id, nodeKind⟩ := n
    obtain rfl : id = d.id := Node.id_of_compile hc
    cases nodeKind <;> simp

theorem concerns_iff {event : Event} {r : Rule} :
    concerns event r = true ↔ (∀ id, event.rule? = some id → id = r.id) ∧ r.FiredBy event := by
  unfold concerns Rule.FiredBy
  rw [Bool.and_eq_true, List.any_eq_true]
  refine and_congr ?_ (exists_congr fun d => and_congr_right fun _ => firesOn_iff)
  cases event.rule? <;> simp

theorem runsOn_iff {event : Event} {r : Rule} :
    r.RunsOn event ↔ (r.tenantId = event.asset.tenantId ∧ r.isActive = true) ∧
      r.appliesToAssetType event.asset.typeId = true ∧ concerns event r = true := by
  rw [concerns_iff, Rule.isActive, Rule.appliesToAssetType, decide_eq_true_iff, List.contains_iff_mem]
  constructor
  · rintro ⟨htenant, hactive, htype, hnamed, hfired⟩
    exact ⟨⟨htenant, hactive⟩, htype, hnamed, hfired⟩
  · rintro ⟨⟨htenant, hactive⟩, htype, hnamed, hfired⟩
    exact ⟨htenant, hactive, htype, hnamed, hfired⟩

instance (r : Rule) (event : Event) : Decidable (r.RunsOn event) := decidable_of_iff' _ runsOn_iff

/-- For a rule that compiles, an event fires a trigger of the rule just if it fires one of the compiled graph. -/
theorem firedBy_iff_triggers {event : Event} {r : Rule} {g : Graph} {dropped : List DroppedConnection}
    (h : Graph.compile r = .ok (g, dropped)) :
    r.FiredBy event ↔ ∃ t ∈ g.triggers, t.fires event.kind event.key = true := by
  have hall := Graph.forall₂_compile h
  unfold Rule.FiredBy Graph.triggers
  generalize r.nodes = ds at hall
  generalize g.nodes = ns at hall
  induction hall with
  | nil => simp
  | @cons d n ds ns hn _ ih =>
    have hid := Node.id_of_compile hn
    obtain ⟨id, nodeKind⟩ := n
    obtain rfl : id = d.id := hid
    simp only [List.exists_mem_cons_iff, ih, hn]
    cases nodeKind <;> simp

/-- The rules that an event runs, in the order in which they are run: by priority, and among those of one priority in
the order of the stored rules. -/
structure Candidates (event : Event) (stored candidates : List Rule) : Prop where
  perm : candidates.Perm (stored.filter fun r => r.RunsOn event)
  sorted : candidates.Pairwise fun a b => b.priority ≤ a.priority
  stable (p : UInt32) :
    (candidates.filter fun r => r.priority = p) = stored.filter fun r => r.RunsOn event ∧ r.priority = p

/-- Sorting leaves items alone that are all tied. -/
theorem filter_mergeSort {α : Type} {le : α → α → Bool}
    (htrans : ∀ a b c, le a b = true → le b c = true → le a c = true)
    (htotal : ∀ a b, (le a b || le b a) = true) {q : α → Bool}
    (htied : ∀ a b, q a = true → q b = true → le a b = true) (l : List α) :
    (l.mergeSort le).filter q = l.filter q := by
  have hpairwise : (l.filter q).Pairwise fun a b => le a b = true :=
    List.pairwise_of_forall_mem_list fun a ha b hb =>
      htied a b (List.mem_filter.1 ha).2 (List.mem_filter.1 hb).2
  have hsub : (l.filter q).Sublist (l.mergeSort le) :=
    List.sublist_mergeSort htrans htotal hpairwise List.filter_sublist
  have hlength : ((l.mergeSort le).filter q).length = (l.filter q).length :=
    ((List.mergeSort_perm l le).filter q).length_eq
  have hfilter := hsub.filter q
  simp only [List.filter_filter, Bool.and_self] at hfilter
  exact (hfilter.eq_of_length hlength.symm).symm

theorem before_trans (a b c : Rule) (hab : before a b = true) (hbc : before b c = true) : before a c = true := by
  simp only [before, decide_eq_true_iff] at hab hbc ⊢
  exact UInt32.le_trans hbc hab

theorem before_total (a b : Rule) : (before a b || before b a) = true := by
  simp only [before, Bool.or_eq_true, decide_eq_true_iff]
  exact UInt32.le_total b.priority a.priority

def select (event : Event) (active : List Rule) : List Rule :=
  ((active.filter fun r => r.isActive && r.appliesToAssetType event.asset.typeId).mergeSort before).filter
    (concerns event)

theorem candidates_of_store (store : RuleStore) (event : Event) :
    Candidates event store.rules (select event (store.activeOf event.asset.tenantId)) := by
  have hselect : (((store.activeOf event.asset.tenantId).filter fun r =>
      r.isActive && r.appliesToAssetType event.asset.typeId).filter (concerns event)) =
      store.rules.filter fun r => r.RunsOn event := by
    rw [RuleStore.activeOf, List.filter_filter, List.filter_filter]
    refine List.filter_congr fun r _ => ?_
    rw [Bool.eq_iff_iff, decide_eq_true_iff, runsOn_iff]
    simp only [Bool.and_eq_true, decide_eq_true_iff]
    tauto
  constructor
  · rw [← hselect]
    exact (List.mergeSort_perm _ _).filter _
  · refine ((List.pairwise_mergeSort before_trans before_total _).imp ?_).filter _
    intro a b hab
    simpa [before] using hab
  · intro p
    unfold select
    have htied (a b : Rule) (ha : decide (a.priority = p) = true) (hb : decide (b.priority = p) = true) :
        before a b = true := by
      rw [decide_eq_true_iff] at ha hb
      simp [before, ha, hb]
    rw [List.filter_comm, filter_mergeSort before_trans before_total htied, List.filter_comm, hselect,
      List.filter_filter]
    refine List.filter_congr fun r _ => ?_
    rw [Bool.eq_iff_iff, Bool.and_eq_true, decide_eq_true_iff, decide_eq_true_iff, decide_eq_true_iff]
    exact and_comm

/-- There is one such list: what comes first has the highest priority, and is the first of that priority. -/
theorem Candidates.unique {event : Event} {stored xs ys : List Rule} (hx : Candidates event stored xs)
    (hy : Candidates event stored ys) : xs = ys := by
  have heq : ∀ p, (xs.filter fun r => r.priority = p) = ys.filter fun r => r.priority = p :=
    fun p => (hx.stable p).trans (hy.stable p).symm
  have hxs := hx.sorted
  have hys := hy.sorted
  clear hx hy
  induction xs generalizing ys with
  | nil =>
    cases ys with
    | nil => rfl
    | cons y ys => simpa using heq y.priority
  | cons x xs ih =>
    cases ys with
    | nil => simpa using heq x.priority
    | cons y ys =>
      rw [List.pairwise_cons] at hxs hys
      have hle {a b : Rule} {as bs : List Rule} (hb : ∀ b' ∈ bs, b'.priority ≤ b.priority)
          (h : ((a :: as).filter fun r => r.priority = a.priority) =
            (b :: bs).filter fun r => r.priority = a.priority) : a.priority ≤ b.priority := by
        have hmem : a ∈ (b :: bs).filter fun r => r.priority = a.priority := h ▸ by simp
        rcases List.mem_cons.1 (List.mem_filter.1 hmem).1 with rfl | hmem
        · exact UInt32.le_refl _
        · exact hb a hmem
      have hpriority : x.priority = y.priority :=
        UInt32.le_antisymm (hle hys.1 (heq x.priority)) (hle hxs.1 (heq y.priority).symm)
      have hfirst := heq x.priority
      simp only [List.filter_cons, hpriority, decide_true, if_true, List.cons.injEq] at hfirst
      obtain ⟨rfl, hrest⟩ := hfirst
      congr 1
      refine ih (fun p => ?_) hxs.2 hys.2
      have hp := heq p
      simp only [List.filter_cons] at hp
      split at hp
      · exact (List.cons.inj hp).2
      · exact hp

end Engine

end RuleFlow
