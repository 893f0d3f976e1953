import Mathlib.Logic.Relation
import Mathlib.Data.Set.Card
import RuleFlow.Graph.Basic
/-! # Paths of a compiled rule

The successor relation of a graph, and paths along it.  A path is the list of the choices that are made at its
nodes, so that two edges between the same nodes make two paths.  Main statements: the edges of a compiled rule
join positions of its nodes, and what choices lead to is what the successor relation reaches. -/
namespace RuleFlow.Graph

open Relation

def Edge (g : Graph) (p q : Nat) : Prop := q ∈ g.next p

def OnCycle (g : Graph) (p : Nat) : Prop := TransGen g.Edge p p

/-- Whether all edges begin and end at positions of nodes. -/
structure Closed (g : Graph) : Prop where
  source_lt : ∀ {p q}, g.Edge p q → p < g.size
  target_lt : ∀ {p q}, g.Edge p q → q < g.size

/-- Where a list of choices leads to: each one is the number of an edge that leaves the node reached so far. -/
def follow (g : Graph) (p : Nat) : List Nat → Option Nat
  | [] => some p
  | i :: choices => (g.next p)[i]?.bind fun q => g.follow q choices

def paths (g : Graph) (p q : Nat) : Set (List Nat) := {choices | g.follow p choices = some q}

variable {g : Graph} {p q : Nat}

@[simp] theorem follow_nil (g : Graph) (p : Nat) : g.follow p [] = some p := rfl

theorem follow_cons_eq_some {i : Nat} {choices : List Nat} :
    g.follow p (i :: choices) = some q ↔ ∃ r, (g.next p)[i]? = some r ∧ g.follow r choices = some q := by
  simp [follow, Option.bind_eq_some_iff]

theorem reflTransGen_of_follow {choices : List Nat} (h : g.follow p choices = some q) :
    ReflTransGen g.Edge p q := by
  induction choices generalizing p with
  | nil =>
    obtain rfl : p = q := by simpa using h
    exact .refl
  | cons i choices ih =>
    obtain ⟨r, hr, h⟩ := follow_cons_eq_some.1 h
    exact .head (List.mem_of_getElem? hr) (ih h)

/-- A position is reachable just if some path leads to it. -/
theorem paths_nonempty_iff : (g.paths p q).Nonempty ↔ ReflTransGen g.Edge p q := by
  constructor
  · rintro ⟨choices, h⟩
    exact reflTransGen_of_follow h
  · intro h
    induction h using ReflTransGen.head_induction_on with
    | refl => exact ⟨[], rfl⟩
    | head hedge _ ih =>
      obtain ⟨choices, hc⟩ := ih
      obtain ⟨i, hi⟩ := List.getElem?_of_mem hedge
      exact ⟨i :: choices, follow_cons_eq_some.2 ⟨_, hi, hc⟩⟩

theorem Closed.reachable_lt (hg : g.Closed) (hp : p < g.size) (h : ReflTransGen g.Edge p q) : q < g.size := by
  rcases ReflTransGen.cases_tail h with rfl | ⟨r, _, hr⟩
  · exact hp
  · exact hg.target_lt hr

variable {rule : Rule} {dropped : List DroppedConnection}

theorem compile_eq_ok_iff : compile rule = .ok (g, dropped) ↔
    ∃ nodes, rule.nodes.mapM Node.compile = .ok nodes ∧
      g = ⟨nodes, (List.range nodes.length).map (targets (edges nodes rule.connections))⟩ ∧
      dropped = Graph.dropped nodes rule.connections := by
  unfold compile
  cases h : rule.nodes.mapM Node.compile with
  | error e => simp [bind, Except.bind]
  | ok nodes =>
    simp only [bind, Except.bind, pure, Except.pure, Except.ok.injEq, Prod.mk.injEq, exists_eq_left']
    exact and_congr eq_comm eq_comm

theorem positionIn_lt {nodes : List Node} {id : String} (h : positionIn nodes id = some p) : p < nodes.length := by
  obtain ⟨hp, _⟩ := List.findIdx?_eq_some_iff_getElem.1 h
  exact hp

theorem lt_of_mem_edges {nodes : List Node} {connections : List Connection} {e : Nat × Nat}
    (h : e ∈ edges nodes connections) : e.1 < nodes.length ∧ e.2 < nodes.length := by
  obtain ⟨c, _, hc⟩ := List.mem_filterMap.1 h
  unfold resolve at hc
  split at hc
  · simp [Except.toOption] at hc
  · rename_i i hi
    split at hc
    · simp [Except.toOption] at hc
    · rename_i j hj
      obtain rfl : (i, j) = e := by simpa [Except.toOption] using hc
      exact ⟨positionIn_lt hi, positionIn_lt hj⟩

theorem compile_closed (h : compile rule = .ok (g, dropped)) : g.Closed := by
  obtain ⟨nodes, _, rfl, _⟩ := compile_eq_ok_iff.1 h
  have hedge {p q : Nat} (hpq : Edge ⟨nodes, (List.range nodes.length).map
      (targets (edges nodes rule.connections))⟩ p q) : p < nodes.length ∧ q < nodes.length := by
    by_cases hp : p < nodes.length
    · have hq : q ∈ targets (edges nodes rule.connections) p := by simpa [Edge, next, hp] using hpq
      obtain ⟨e, he, heq⟩ := List.mem_filterMap.1 hq
      split at heq
      · obtain rfl : e.2 = q := by simpa using heq
        exact ⟨hp, (lt_of_mem_edges he).2⟩
      · simp at heq
    · have hn : ((List.range nodes.length).map (targets (edges nodes rule.connections)))[p]? = none := by
        simpa using hp
      simp [Edge, next, hn] at hpq
  exact ⟨fun h => (hedge h).1, fun h => (hedge h).2⟩

theorem trigger_lt {start : Nat} (h : g.trigger = some start) : start < g.size := by
  obtain ⟨hs, _⟩ := List.findIdx?_eq_some_iff_getElem.1 h
  exact hs

theorem node?_eq_some_of_lt (h : p < g.size) : ∃ n, g.node? p = some n :=
  ⟨g.nodes[p], List.getElem?_eq_getElem h⟩

end RuleFlow.Graph
