import RuleFlow.Graph.Reach
import RuleFlow.Proofs.Graph.Paths
/-! # The search for reachable positions

The search with a stack of pending positions marks just what the successor relation reaches.  Main statement:
`reachableFrom_getElem?`. -/
namespace RuleFlow.Graph

open Relation

namespace ReachSearch

variable {g : Graph} {start : Nat}

/-- What holds of a search on its way: all that it has come to is reachable, and the successors of what is marked
are marked or pending. -/
structure Invariant (g : Graph) (start : Nat) (s : ReachSearch) : Prop where
  started : start ∈ s.seen ∨ start ∈ s.pending
  seen_reachable : ∀ p ∈ s.seen, ReflTransGen g.Edge start p
  pending_reachable : ∀ p ∈ s.pending, ReflTransGen g.Edge start p
  covered : ∀ p ∈ s.seen, ∀ q, g.Edge p q → q ∈ s.seen ∨ q ∈ s.pending

theorem invariant_initial (g : Graph) (start : Nat) : Invariant g start ⟨[], [start]⟩ where
  started := by simp
  seen_reachable := by simp
  pending_reachable := by simpa using ReflTransGen.refl
  covered := by simp

theorem Invariant.drop {seen rest : List Nat} {p : Nat} (h : Invariant g start ⟨seen, p :: rest⟩)
    (hp : p ∈ seen) : Invariant g start ⟨seen, rest⟩ where
  started := by
    rcases h.started with hs | hs
    · exact .inl hs
    · rcases List.mem_cons.1 hs with rfl | hs
      · exact .inl hp
      · exact .inr hs
  seen_reachable := h.seen_reachable
  pending_reachable q hq := h.pending_reachable q (List.mem_cons_of_mem _ hq)
  covered q hq r hr := by
    rcases h.covered q hq r hr with hs | hs
    · exact .inl hs
    · rcases List.mem_cons.1 hs with rfl | hs
      · exact .inl hp
      · exact .inr hs

theorem Invariant.mark {seen rest : List Nat} {p : Nat} (h : Invariant g start ⟨seen, p :: rest⟩) :
    Invariant g start ⟨p :: seen, (g.next p).reverse ++ rest⟩ where
  started := by
    rcases h.started with hs | hs
    · exact .inl (List.mem_cons_of_mem _ hs)
    · rcases List.mem_cons.1 hs with rfl | hs
      · exact .inl List.mem_cons_self
      · exact .inr (List.mem_append_right _ hs)
  seen_reachable q hq := by
    rcases List.mem_cons.1 hq with rfl | hq
    · exact h.pending_reachable q List.mem_cons_self
    · exact h.seen_reachable q hq
  pending_reachable q hq := by
    rcases List.mem_append.1 hq with hq | hq
    · exact (h.pending_reachable p List.mem_cons_self).tail (List.mem_reverse.1 hq)
    · exact h.pending_reachable q (List.mem_cons_of_mem _ hq)
  covered q hq r hr := by
    rcases List.mem_cons.1 hq with rfl | hq
    · exact .inr (List.mem_append_left _ (List.mem_reverse.2 hr))
    · rcases h.covered q hq r hr with hs | hs
      · exact .inl (List.mem_cons_of_mem _ hs)
      · rcases List.mem_cons.1 hs with rfl | hs
        · exact .inl List.mem_cons_self
        · exact .inr (List.mem_append_right _ hs)

theorem invariant_step {s t : ReachSearch} (hg : g.Closed) (hs : start < g.size) (h : Invariant g start s)
    (ht : s.step g = .next t) : Invariant g start t := by
  obtain ⟨seen, pending⟩ := s
  cases pending with
  | nil => simp [step] at ht
  | cons p rest =>
    have hp : p < g.size := hg.reachable_lt hs (h.pending_reachable p List.mem_cons_self)
    simp only [step] at ht
    split at ht
    · rename_i hc
      injection ht with ht
      subst ht
      have hseen : p ∈ seen := by simpa [Nat.not_le.2 hp] using hc
      exact h.drop hseen
    · injection ht with ht
      subst ht
      exact h.mark

/-- When nothing is pending, what is marked is what is reachable. -/
theorem Invariant.mem_seen_iff {seen : List Nat} (h : Invariant g start ⟨seen, []⟩) {p : Nat} :
    p ∈ seen ↔ ReflTransGen g.Edge start p := by
  refine ⟨h.seen_reachable p, fun hr => ?_⟩
  induction hr with
  | refl => simpa using h.started
  | tail _ hedge ih => simpa using h.covered _ ih _ hedge

theorem mem_run_iff {s : ReachSearch} (hg : g.Closed) (hs : start < g.size) (h : Invariant g start s) {p : Nat} :
    p ∈ run g s ↔ ReflTransGen g.Edge start p := by
  fun_induction run g s with
  | case1 s t ht ih => exact ih (invariant_step hg hs h ht)
  | case2 s seen hd =>
    obtain ⟨seen', pending⟩ := s
    cases pending with
    | nil =>
      obtain rfl : seen' = seen := by simpa [step] using hd
      exact h.mem_seen_iff
    | cons p rest =>
      simp only [step] at hd
      split at hd <;> cases hd

end ReachSearch

variable {g : Graph} {start : Nat}

/-- The search marks just the positions that are reachable. -/
theorem reachableFrom_getElem? (hg : g.Closed) (hs : start < g.size) {p : Nat} :
    (g.reachableFrom start)[p]? = some true ↔ ReflTransGen g.Edge start p := by
  have hrun := ReachSearch.mem_run_iff hg hs (ReachSearch.invariant_initial g start) (p := p)
  constructor
  · intro h
    simp only [reachableFrom, List.getElem?_map, Option.map_eq_some_iff] at h
    obtain ⟨q, hq, hc⟩ := h
    obtain ⟨hlt, rfl⟩ := List.getElem?_eq_some_iff.1 hq
    exact hrun.1 (by simpa using hc)
  · intro h
    have hlt : p < g.size := hg.reachable_lt hs h
    simp [reachableFrom, hlt, hrun.2 h]

end RuleFlow.Graph
