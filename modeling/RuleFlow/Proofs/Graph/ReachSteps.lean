import RuleFlow.Proofs.Graph.CycleSteps
import RuleFlow.Proofs.Graph.Reachability
/-! # The steps of the search for reachable positions

A position is put on the stack once for each edge that leads to it from a marked one, and each step takes one position
from the stack.  So the number of steps is known: one for the start and one for each edge that leaves a reachable
position, however often these lead to the same places.  Main statements: `stepsLeft_step` and
`reachableFrom_marks_reachable`. -/
namespace RuleFlow

open Relation

theorem Progress.after_succ_eq_next_iff {σ α : Type} {step : σ → Progress σ α} {k : Nat} {s t : σ} :
    after step (k + 1) s = .next t ↔ ∃ u, step s = .next u ∧ after step k u = .next t := by
  rw [after]
  cases step s <;> simp

/-- A machine comes to a state in which it ends, if each of its steps takes from a count. -/
theorem Progress.exists_after_eq_next {σ α : Type} {step : σ → Progress σ α} (count : σ → Nat)
    (h : ∀ s t, step s = .next t → count t < count s) (s : σ) :
    ∃ k t a, after step k s = .next t ∧ step t = .done a := by
  induction hn : count s using Nat.strong_induction_on generalizing s with
  | _ n ih =>
    cases hs : step s with
    | done a => exact ⟨0, s, a, rfl, hs⟩
    | next t =>
      have hlt : count t < n := hn ▸ h s t hs
      obtain ⟨k, u, a, hu, ha⟩ := ih (count t) hlt t rfl
      exact ⟨k + 1, u, a, after_succ_eq_next_iff.2 ⟨t, hs, hu⟩, ha⟩

/-- What every step keeps is kept by any number of steps. -/
theorem Progress.after_induction {σ α : Type} {step : σ → Progress σ α} {P : σ → Prop}
    (h : ∀ s t, step s = .next t → P s → P t) {k : Nat} {s t : σ} (hs : P s) (ht : after step k s = .next t) : P t := by
  induction k generalizing s with
  | zero =>
    cases ht
    exact hs
  | succ k ih =>
    obtain ⟨u, hu, ht⟩ := after_succ_eq_next_iff.1 ht
    exact ih (h s u hu hs) ht

namespace Graph

variable {g : Graph} {start : Nat}

/-- The number of edges that leave the positions which a search from a position marks. -/
def reachedEdges (g : Graph) (start : Nat) : Nat :=
  ∑ p ∈ Finset.range g.size with (g.reachableFrom start)[p]? = some true, (g.next p).length

namespace ReachSearch

variable {s t : ReachSearch} {k : Nat}

theorem step_eq_done_iff {seen : List Nat} : s.step g = .done seen ↔ s = ⟨seen, []⟩ := by
  obtain ⟨seen', pending⟩ := s
  cases pending with
  | nil => simp [step]
  | cons p rest =>
    simp only [step]
    split <;> simp

theorem run_of_next (h : s.step g = .next t) : run g s = run g t := by
  rw [run]
  split
  · rename_i u hu
    rw [h] at hu
    injection hu with hu
    rw [hu]
  · rename_i hdone
    rw [h] at hdone
    cases hdone

theorem run_of_after (h : Progress.after (step g) k s = .next t) : run g s = run g t :=
  Progress.after_induction (P := fun u => run g s = run g u) (fun _ _ huv hu => hu.trans (run_of_next huv)) rfl h

theorem run_empty (g : Graph) (seen : List Nat) : run g ⟨seen, []⟩ = seen := by
  rw [run]
  rfl

/-- A step takes a position from the stack.  A new one is marked, and what its edges lead to is put there. -/
theorem step_cases (h : s.step g = .next t) :
    ∃ seen p rest, s = ⟨seen, p :: rest⟩ ∧
      (t = ⟨seen, rest⟩ ∨ p ∉ seen ∧ p < g.size ∧ t = ⟨p :: seen, (g.next p).reverse ++ rest⟩) := by
  obtain ⟨seen, pending⟩ := s
  cases pending with
  | nil => cases h
  | cons p rest =>
    refine ⟨seen, p, rest, rfl, ?_⟩
    simp only [step] at h
    split at h
    · cases h
      exact .inl rfl
    · rename_i hnew
      cases h
      simp only [List.contains_iff_mem, not_or, Nat.not_le] at hnew
      exact .inr ⟨hnew.1, hnew.2, rfl⟩

/-- A position is marked once, however often it is put on the stack. -/
theorem nodup_seen_step (h : s.step g = .next t) (hs : s.seen.Nodup) : t.seen.Nodup := by
  obtain ⟨seen, p, rest, rfl, rfl | ⟨hnew, -, rfl⟩⟩ := step_cases h
  · exact hs
  · exact List.nodup_cons.2 ⟨hnew, hs⟩

def unseen (g : Graph) (s : ReachSearch) : Finset Nat := {p ∈ Finset.range g.size | p ∉ s.seen}

/-- The number of steps that are left if all positions are reachable: one for each position on the stack and for each
edge that leaves a position that is not marked. -/
def stepsLeft (g : Graph) (s : ReachSearch) : Nat := s.pending.length + ∑ p ∈ s.unseen g, (g.next p).length

/-- Each step of a search takes one from the steps that are left: to mark a position moves its edges from the sum to the
stack. -/
theorem stepsLeft_step (h : s.step g = .next t) : stepsLeft g s = stepsLeft g t + 1 := by
  obtain ⟨seen, p, rest, rfl, rfl | ⟨hnew, hp, rfl⟩⟩ := step_cases h
  · change rest.length + 1 + _ = rest.length + _ + 1
    exact Nat.add_right_comm _ _ _
  · have hmem : p ∈ unseen g ⟨seen, p :: rest⟩ := Finset.mem_filter.2 ⟨Finset.mem_range.2 hp, hnew⟩
    have herase : unseen g ⟨p :: seen, (g.next p).reverse ++ rest⟩ = (unseen g ⟨seen, p :: rest⟩).erase p := by
      ext q
      simp only [unseen, Finset.mem_filter, Finset.mem_erase, List.mem_cons, not_or]
      tauto
    have hsum := Finset.add_sum_erase (unseen g ⟨seen, p :: rest⟩) (fun q => (g.next q).length) hmem
    rw [stepsLeft, stepsLeft, herase]
    simp only [List.length_append, List.length_reverse, List.length_cons]
    omega

theorem stepsLeft_after (h : Progress.after (step g) k s = .next t) : stepsLeft g s = stepsLeft g t + k := by
  induction k generalizing s with
  | zero =>
    cases h
    rfl
  | succ k ih =>
    obtain ⟨u, hu, ht⟩ := Progress.after_succ_eq_next_iff.1 h
    rw [stepsLeft_step hu, ih ht, Nat.add_assoc]

theorem stepsLeft_initial (g : Graph) (start : Nat) : stepsLeft g ⟨[], [start]⟩ = 1 + g.edgeCount := by
  simp [stepsLeft, unseen, edgeCount]

/-- The edges of a graph leave what a search has marked in the end, or they are still in the sum. -/
theorem edgeCount_eq (g : Graph) (start : Nat) :
    g.edgeCount = g.reachedEdges start + stepsLeft g ⟨run g ⟨[], [start]⟩, []⟩ := by
  have hmarked (p : Nat) (hp : p ∈ Finset.range g.size) :
      (g.reachableFrom start)[p]? = some true ↔ p ∈ run g ⟨[], [start]⟩ := by
    simp [reachableFrom, Finset.mem_range.1 hp]
  rw [reachedEdges, Finset.filter_congr hmarked, stepsLeft, List.length_nil, Nat.zero_add]
  exact (Finset.sum_filter_add_sum_filter_not _ _ _).symm

/-- The search empties its stack after a step for the start and one for each edge that leaves a marked position. -/
theorem after_eq_run (g : Graph) (start : Nat) :
    Progress.after (step g) (1 + g.reachedEdges start) ⟨[], [start]⟩ = .next ⟨run g ⟨[], [start]⟩, []⟩ := by
  have hdecreases (s t : ReachSearch) (h : s.step g = .next t) : stepsLeft g t < stepsLeft g s := by
    rw [stepsLeft_step h]
    exact Nat.lt_succ_self _
  obtain ⟨k, t, seen, ht, hend⟩ := Progress.exists_after_eq_next (stepsLeft g) hdecreases ⟨[], [start]⟩
  obtain rfl : t = ⟨seen, []⟩ := step_eq_done_iff.1 hend
  have hrun : run g ⟨[], [start]⟩ = seen := (run_of_after ht).trans (run_empty g seen)
  have hleft := stepsLeft_after ht
  rw [stepsLeft_initial, edgeCount_eq, hrun] at hleft
  obtain rfl : k = 1 + g.reachedEdges start := by omega
  rw [ht, hrun]

theorem nodup_run (g : Graph) (start : Nat) : (run g ⟨[], [start]⟩).Nodup :=
  Progress.after_induction (P := fun s => s.seen.Nodup) (fun _ _ => nodup_seen_step) List.nodup_nil
    (after_eq_run g start)

end ReachSearch

variable {rule : Rule} {dropped : List DroppedConnection}

/-- From each position of a compiled rule the search marks just what edges lead to, each of them once, and it comes to
an end after as many steps as positions are put on its stack. -/
theorem reachableFrom_marks_reachable (h : compile rule = .ok (g, dropped)) (hs : start < g.size) :
    (g.reachableFrom start).length = g.size ∧
    (∀ p, (g.reachableFrom start)[p]? = some true ↔ ReflTransGen g.Edge start p) ∧
    ∃ seen, Progress.after (ReachSearch.step g) (1 + g.reachedEdges start) ⟨[], [start]⟩ = .next ⟨seen, []⟩ ∧
      seen.Nodup ∧ g.reachableFrom start = (List.range g.size).map seen.contains := by
  refine ⟨?_, fun p => reachableFrom_getElem? (compile_closed h) hs, _, ReachSearch.after_eq_run g start,
    ReachSearch.nodup_run g start, rfl⟩
  rw [reachableFrom, List.length_map, List.length_range]

def revisited : Rule where
  id := "r"
  tenantId := "t"
  name := "revisited"
  description := none
  status := .active
  priority := 0
  appliesToAssetTypes := ["well"]
  appliesToAssets := none
  nodes := [⟨"start", "manual", .origin, [], [], []⟩, ⟨"there", "log", .origin, [], [], []⟩,
    ⟨"back", "log", .origin, [], [], []⟩, ⟨"aside", "log", .origin, [], [], []⟩]
  connections :=
    [⟨"1", "start", "out", "there", "in"⟩, ⟨"2", "start", "out", "there", "in"⟩, ⟨"3", "there", "out", "back", "in"⟩,
      ⟨"4", "back", "out", "there", "in"⟩, ⟨"5", "aside", "out", "there", "in"⟩]
  settings := ⟨none, false⟩
  createdAt := none

def revisitedGraph : Graph where
  nodes := [⟨"start", .trigger ⟨.manual, none, none⟩⟩, ⟨"there", .log NodeKind.defaultLogMessage .info⟩,
    ⟨"back", .log NodeKind.defaultLogMessage .info⟩, ⟨"aside", .log NodeKind.defaultLogMessage .info⟩]
  successors := [[1, 1], [2], [1], [1]]

theorem reaches_revisited {p : Nat} : ReflTransGen revisitedGraph.Edge 0 p ↔ p ∈ [0, 1, 2] := by
  have hclosed : ∀ p ∈ [0, 1, 2], ∀ q ∈ revisitedGraph.next p, q ∈ [0, 1, 2] := by decide
  have hthere : revisitedGraph.Edge 0 1 := (by decide : 1 ∈ revisitedGraph.next 0)
  have hback : revisitedGraph.Edge 1 2 := (by decide : 2 ∈ revisitedGraph.next 1)
  constructor
  · intro h
    induction h with
    | refl => decide
    | tail _ hedge ih => exact hclosed _ ih _ hedge
  · intro h
    simp only [List.mem_cons, List.not_mem_nil, or_false] at h
    rcases h with rfl | rfl | rfl
    · exact .refl
    · exact .single hthere
    · exact .tail (.single hthere) hback

/-- One node is put on the stack three times and marked once. -/
theorem reachableFrom_revisited :
    compile revisited = .ok (revisitedGraph, []) ∧ 0 < revisitedGraph.size ∧
    (revisitedGraph.reachableFrom 0).length = 4 ∧
    (∀ p, (revisitedGraph.reachableFrom 0)[p]? = some true ↔ p ∈ [0, 1, 2]) ∧
    ∃ seen, Progress.after (ReachSearch.step revisitedGraph) 5 ⟨[], [0]⟩ = .next ⟨seen, []⟩ ∧ seen.Nodup := by
  have hc : compile revisited = .ok (revisitedGraph, []) := rfl
  have hs : 0 < revisitedGraph.size := by decide
  obtain ⟨hlength, hmarked, seen, hend, hnodup, -⟩ := reachableFrom_marks_reachable hc hs
  have hmarks (p : Nat) : (revisitedGraph.reachableFrom 0)[p]? = some true ↔ p ∈ [0, 1, 2] :=
    (hmarked p).trans reaches_revisited
  have hedges : revisitedGraph.reachedEdges 0 = 4 := by
    simp only [reachedEdges, hmarks]
    decide
  exact ⟨hc, hs, hlength, hmarks, seen, by rw [← hend, hedges], hnodup⟩

end Graph
end RuleFlow
