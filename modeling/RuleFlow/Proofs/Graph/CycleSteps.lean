import Mathlib.Algebra.BigOperators.Group.Finset.Basic
import RuleFlow.Proofs.Graph.Compiled
import RuleFlow.Proofs.Graph.Cycles
/-! # The steps of the search for cycles

Every step of the search takes one from a count: of starts, of positions with the edges that leave them, and of what is
still to be looked at on the path.  So the search ends, after two steps for each node and one for each edge at the
latest.  Main statements: `stepsLeft_step` and `findCycle_names_cycle`. -/
namespace RuleFlow

/-- What a machine has come to after a number of steps, if it has not ended before; else its end. -/
def Progress.after {σ α : Type} (step : σ → Progress σ α) : Nat → σ → Progress σ α
  | 0, s => .next s
  | steps + 1, s =>
    match step s with
    | .next t => after step steps t
    | .done a => .done a

/-- A machine ends if each of its steps takes from a count. -/
theorem Progress.exists_after_eq_done {σ α : Type} {step : σ → Progress σ α} (count : σ → Nat)
    (h : ∀ s t, step s = .next t → count t < count s) (s : σ) :
    ∃ k ≤ count s, ∃ a, after step (k + 1) s = .done a := by
  induction hn : count s using Nat.strong_induction_on generalizing s with
  | _ n ih =>
    cases hs : step s with
    | done a => exact ⟨0, Nat.zero_le _, a, by rw [after, hs]⟩
    | next t =>
      have hlt : count t < n := hn ▸ h s t hs
      obtain ⟨k, hk, a, ha⟩ := ih (count t) hlt t rfl
      exact ⟨k + 1, by omega, a, by rw [after, hs]; exact ha⟩

namespace Graph

variable {g : Graph}

def edgeCount (g : Graph) : Nat := ∑ p ∈ Finset.range g.size, (g.next p).length

namespace CycleSearch

/-- The end of a search is what is found by its steps. -/
theorem run_eq_of_after {k : Nat} {s : CycleSearch} {found : Option Nat}
    (h : Progress.after (step g) k s = .done found) : run g s = found := by
  induction k generalizing s with
  | zero => cases h
  | succ k ih =>
    rw [Progress.after] at h
    rw [run]
    cases hs : s.step g with
    | next t => exact ih (by simpa [hs] using h)
    | done a => simpa [hs] using h

def unvisited (g : Graph) (s : CycleSearch) : Finset Nat := {p ∈ Finset.range g.size | s.marked p = false}

/-- The number of steps that are left at most: the work that is left without marking a position, and for each position
that is not marked its edges and the step that leaves it. -/
def stepsLeft (g : Graph) (s : CycleSearch) : Nat := s.work + ∑ p ∈ s.unvisited g, ((g.next p).length + 1)

theorem stepsLeft_initial (g : Graph) : stepsLeft g ⟨List.range g.size, [], []⟩ = 2 * g.size + g.edgeCount := by
  have hall : unvisited g ⟨List.range g.size, [], []⟩ = Finset.range g.size := by simp [unvisited, marked, onPath]
  rw [stepsLeft, hall, Finset.sum_add_distrib, ← Finset.card_eq_sum_ones, Finset.card_range, edgeCount, work,
    List.length_range]
  simp only [List.map_nil, List.foldr_nil]
  omega

section Count

variable {s t : CycleSearch}

theorem stepsLeft_of_kept (h : ∀ q, t.marked q = s.marked q) (hwork : s.work = t.work + 1) :
    stepsLeft g s = stepsLeft g t + 1 := by
  have hunvisited : t.unvisited g = s.unvisited g := by simp only [unvisited, h]
  rw [stepsLeft, stepsLeft, hunvisited]
  omega

/-- To mark a position takes its edges and the step that leaves it from the sum, which become work on the path. -/
theorem stepsLeft_of_marked {p : Nat} (hp : p < g.size) (hs : s.marked p = false)
    (ht : ∀ q, t.marked q = (q == p || s.marked q)) (hwork : t.work = s.work + (g.next p).length) :
    stepsLeft g s = stepsLeft g t + 1 := by
  have hmem : p ∈ s.unvisited g := Finset.mem_filter.2 ⟨Finset.mem_range.2 hp, hs⟩
  have herase : t.unvisited g = (s.unvisited g).erase p := by
    ext q
    simp only [unvisited, Finset.mem_filter, Finset.mem_erase, ht, Bool.or_eq_false_iff, beq_eq_false_iff_ne]
    tauto
  have hsum := Finset.add_sum_erase (s.unvisited g) (fun q => (g.next q).length + 1) hmem
  rw [← herase] at hsum
  rw [stepsLeft, stepsLeft]
  omega

/-- Each step of a search takes one from the steps that are left. -/
theorem stepsLeft_step (h : s.step g = .next t) : stepsLeft g s = stepsLeft g t + 1 := by
  obtain ⟨starts, path, finished⟩ := s
  match path with
  | [] =>
    match starts with
    | [] => cases h
    | p :: starts =>
      simp only [step] at h
      split at h <;> injection h with h <;> subst h
      · exact stepsLeft_of_kept (fun _ => rfl) (by simp only [work, List.length_cons]; omega)
      · rename_i hc
        simp only [not_or, Bool.not_eq_true, Nat.not_le] at hc
        refine stepsLeft_of_marked hc.2 hc.1 (fun q => ?_) ?_
        · simp only [marked, onPath, List.map_cons, List.map_nil, List.contains_cons, List.contains_nil, Bool.or_false,
            Bool.false_or]
        · simp only [work, List.length_cons, List.map_cons, List.map_nil, List.foldr_cons, List.foldr_nil]
          omega
  | (p, []) :: rest =>
    injection h with h
    subst h
    refine stepsLeft_of_kept (fun q => ?_) ?_
    · simp only [marked, onPath, List.map_cons, List.contains_cons]
      cases q == p <;> simp
    · simp only [work, List.map_cons, List.foldr_cons, List.length_nil]
      omega
  | (p, q :: more) :: rest =>
    simp only [step] at h
    split at h
    · cases h
    · rename_i hn
      split at h <;> injection h with h <;> subst h
      · refine stepsLeft_of_kept (fun _ => rfl) ?_
        simp only [work, List.map_cons, List.foldr_cons, List.length_cons]
        omega
      · rename_i hc
        simp only [not_or, Bool.not_eq_true, Nat.not_le] at hn hc
        refine stepsLeft_of_marked hc.2 (by rw [marked, hn, hc.1]; rfl) (fun r => ?_) ?_
        · simp only [marked, onPath, List.map_cons, List.contains_cons, Bool.or_assoc]
        · simp only [work, List.map_cons, List.foldr_cons, List.length_cons]
          omega

end Count

/-- The search comes to its end. -/
theorem exists_after_eq_done (g : Graph) : ∃ k ≤ 2 * g.size + g.edgeCount,
    Progress.after (step g) (k + 1) ⟨List.range g.size, [], []⟩ = .done (run g ⟨List.range g.size, [], []⟩) := by
  have hdecreases (s t : CycleSearch) (h : s.step g = .next t) : stepsLeft g t < stepsLeft g s := by
    rw [stepsLeft_step h]
    exact Nat.lt_succ_self _
  obtain ⟨k, hk, found, hfound⟩ := Progress.exists_after_eq_done (stepsLeft g) hdecreases ⟨List.range g.size, [], []⟩
  rw [stepsLeft_initial] at hk
  exact ⟨k, hk, by rw [run_eq_of_after hfound, hfound]⟩

end CycleSearch

variable {rule : Rule} {dropped : List DroppedConnection} {p q : Nat}

/-- Edges lead to positions that the ids there name, also where several nodes have one id. -/
theorem position_of_edge (h : compile rule = .ok (g, dropped)) (hpq : g.Edge p q) :
    g.position (g.idAt q) = some q := by
  obtain ⟨c, -, -, hq⟩ := (edge_iff h).1 hpq
  rwa [idAt_of_position hq]

theorem position_of_onCycle (h : compile rule = .ok (g, dropped)) (hp : g.OnCycle p) :
    g.position (g.idAt p) = some p := by
  obtain ⟨q, -, hedge⟩ := Relation.TransGen.tail'_iff.1 hp
  exact position_of_edge h hedge

/-- The search of a compiled rule comes to an end, and it names a node just if there is a cycle; the node that it names
lies on one. -/
theorem findCycle_names_cycle (h : compile rule = .ok (g, dropped)) :
    ((∃ id, g.findCycle = some id) ↔ ∃ p, g.OnCycle p) ∧
    (∀ id, g.findCycle = some id → ∃ p, g.position id = some p ∧ g.OnCycle p) ∧
    ∃ k ≤ 2 * g.size + g.edgeCount, ∃ found,
      Progress.after (CycleSearch.step g) (k + 1) ⟨List.range g.size, [], []⟩ = .done found ∧
        g.findCycle = found.bind fun p => (g.node? p).map (·.id) := by
  have hg := compile_closed h
  refine ⟨?_, ?_, ?_⟩
  · rw [← Option.ne_none_iff_exists', ne_eq, findCycle_eq_none_iff hg]
    simp only [not_forall, not_not]
  · intro id hid
    obtain ⟨p, n, hn, rfl, hp⟩ := onCycle_of_findCycle hg hid
    have hidAt : g.idAt p = n.id := by
      rw [idAt, hn]
      rfl
    exact ⟨p, hidAt ▸ position_of_onCycle h hp, hp⟩
  · obtain ⟨k, hk, hend⟩ := CycleSearch.exists_after_eq_done g
    refine ⟨k, hk, _, hend, ?_⟩
    unfold findCycle
    cases CycleSearch.run g ⟨List.range g.size, [], []⟩ with
    | none => rfl
    | some p => cases hn : g.node? p <;> simp [hn]

def apart : Rule where
  id := "r"
  tenantId := "t"
  name := "apart"
  description := none
  status := .active
  priority := 0
  appliesToAssetTypes := ["well"]
  appliesToAssets := none
  nodes := [⟨"start", "manual", .origin, [], [], []⟩, ⟨"note", "log", .origin, [], [], []⟩,
    ⟨"there", "log", .origin, [], [], []⟩, ⟨"back", "log", .origin, [], [], []⟩]
  connections :=
    [⟨"1", "start", "out", "note", "in"⟩, ⟨"2", "there", "out", "back", "in"⟩, ⟨"3", "back", "out", "there", "in"⟩]
  settings := ⟨none, false⟩
  createdAt := none

def apartGraph : Graph where
  nodes := [⟨"start", .trigger ⟨.manual, none, none⟩⟩, ⟨"note", .log NodeKind.defaultLogMessage .info⟩,
    ⟨"there", .log NodeKind.defaultLogMessage .info⟩, ⟨"back", .log NodeKind.defaultLogMessage .info⟩]
  successors := [[1], [], [3], [2]]

/-- The cycle is found where no walk comes to it. -/
theorem findCycle_apart :
    compile apart = .ok (apartGraph, []) ∧ (∀ p, apartGraph.Edge 0 p → p = 1) ∧ (∀ p, ¬ apartGraph.Edge 1 p) ∧
    ∃ id p, apartGraph.findCycle = some id ∧ apartGraph.position id = some p ∧ apartGraph.OnCycle p := by
  have hc : compile apart = .ok (apartGraph, []) := rfl
  have hcycle : apartGraph.OnCycle 2 :=
    .tail (.single (by decide : 3 ∈ apartGraph.next 2)) (by decide : 2 ∈ apartGraph.next 3)
  obtain ⟨hexists, hnamed, -⟩ := findCycle_names_cycle hc
  obtain ⟨id, hid⟩ := hexists.2 ⟨2, hcycle⟩
  obtain ⟨p, hp, honCycle⟩ := hnamed id hid
  exact ⟨hc, fun p hp => List.mem_singleton.1 hp, fun p hp => List.not_mem_nil hp, id, p, hid, hp, honCycle⟩

end Graph
end RuleFlow
