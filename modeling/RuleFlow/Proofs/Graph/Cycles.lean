import Mathlib.Data.List.Chain
import RuleFlow.Graph.Cycle
import RuleFlow.Proofs.Graph.Paths
/-! # The search for cycles

The depth-first search keeps a path, and what it has finished reaches no cycle.  Main statements:
`findCycle_eq_none_iff`, and `onCycle_of_findCycle` for the node that is named. -/
namespace RuleFlow.Graph

open Relation

namespace CycleSearch

variable {g : Graph}

/-- Whether the successors of the positions on a path are still to be looked at, finished, or further in on the
path; `inner` are the positions further in. -/
def Looked (g : Graph) (finished : List Nat) : List Nat → List (Nat × List Nat) → Prop
  | _, [] => True
  | inner, (p, more) :: rest =>
    (∀ q, g.Edge p q → q ∈ more ∨ q ∈ finished ∨ q ∈ inner) ∧ Looked g finished (p :: inner) rest

theorem Looked.mono {finished finished' inner inner' : List Nat} {path : List (Nat × List Nat)}
    (hsub : ∀ q, q ∈ finished ∨ q ∈ inner → q ∈ finished' ∨ q ∈ inner') (h : Looked g finished inner path) :
    Looked g finished' inner' path := by
  induction path generalizing inner inner' with
  | nil => trivial
  | cons f rest ih =>
    obtain ⟨p, more⟩ := f
    refine ⟨fun q hq => ?_, ih ?_ h.2⟩
    · rcases h.1 q hq with hm | hf
      · exact .inl hm
      · exact .inr (hsub q hf)
    · intro q hq
      simp only [List.mem_cons] at hq ⊢
      rcases hq with hf | rfl | hi
      · exact (hsub q (.inl hf)).imp_right .inr
      · exact .inr (.inl rfl)
      · exact (hsub q (.inr hi)).imp_right .inr

/-- What holds of a search on its way.  The finished positions are closed under successors and lie on no cycle; the
path is a path of the graph. -/
structure Invariant (g : Graph) (s : CycleSearch) : Prop where
  chain : s.onPath.IsChain fun inner outer => g.Edge outer inner
  nodup : s.onPath.Nodup
  on_path_lt : ∀ p ∈ s.onPath, p < g.size
  not_finished : ∀ p ∈ s.onPath, p ∉ s.finished
  pending : ∀ f ∈ s.path, ∀ q ∈ f.2, g.Edge f.1 q
  looked : Looked g s.finished [] s.path
  finished_closed : ∀ p ∈ s.finished, ∀ q, g.Edge p q → q ∈ s.finished
  finished_acyclic : ∀ p ∈ s.finished, ¬ g.OnCycle p
  covered : ∀ p < g.size, p ∈ s.starts ∨ p ∈ s.finished ∨ p ∈ s.onPath

theorem invariant_initial (g : Graph) : Invariant g ⟨List.range g.size, [], []⟩ where
  chain := by simp [onPath]
  nodup := by simp [onPath]
  on_path_lt := by simp [onPath]
  not_finished := by simp [onPath]
  pending := by simp
  looked := trivial
  finished_closed := by simp
  finished_acyclic := by simp
  covered _ hp := .inl (List.mem_range.2 hp)

theorem Invariant.finished_of_reachable {s : CycleSearch} (h : Invariant g s) {p q : Nat} (hp : p ∈ s.finished)
    (hr : ReflTransGen g.Edge p q) : q ∈ s.finished := by
  induction hr with
  | refl => exact hp
  | tail _ hedge ih => exact h.finished_closed _ ih _ hedge

theorem Invariant.skip {p : Nat} {starts finished : List Nat} (h : Invariant g ⟨p :: starts, [], finished⟩)
    (hp : p ∈ finished ∨ g.size ≤ p) : Invariant g ⟨starts, [], finished⟩ where
  chain := h.chain
  nodup := h.nodup
  on_path_lt := h.on_path_lt
  not_finished := h.not_finished
  pending := h.pending
  looked := h.looked
  finished_closed := h.finished_closed
  finished_acyclic := h.finished_acyclic
  covered q hq := by
    rcases h.covered q hq with hs | hf
    · rcases List.mem_cons.1 hs with rfl | hs
      · exact .inr (.inl (hp.resolve_right (by omega)))
      · exact .inl hs
    · exact .inr hf

theorem Invariant.begin {p : Nat} {starts finished : List Nat} (h : Invariant g ⟨p :: starts, [], finished⟩)
    (hf : p ∉ finished) (hp : p < g.size) : Invariant g ⟨starts, [(p, g.next p)], finished⟩ where
  chain := by simp [onPath]
  nodup := by simp [onPath]
  on_path_lt := by simpa [onPath] using hp
  not_finished := by simpa [onPath] using hf
  pending f hmem q hq := by
    obtain rfl : f = (p, g.next p) := by simpa using hmem
    exact hq
  looked := ⟨fun q hq => .inl hq, trivial⟩
  finished_closed := h.finished_closed
  finished_acyclic := h.finished_acyclic
  covered q hq := by
    rcases h.covered q hq with hs | hf | hc
    · rcases List.mem_cons.1 hs with rfl | hs
      · exact .inr (.inr (by simp [onPath]))
      · exact .inl hs
    · exact .inr (.inl hf)
    · simp [onPath] at hc

theorem Invariant.leave {p : Nat} {starts finished : List Nat} {rest : List (Nat × List Nat)}
    (h : Invariant g ⟨starts, (p, []) :: rest, finished⟩) : Invariant g ⟨starts, rest, p :: finished⟩ := by
  have hp : p ∉ finished := h.not_finished p (by simp [onPath])
  have hsucc (q : Nat) (hq : g.Edge p q) : q ∈ finished := by simpa using h.looked.1 q hq
  have hnodup := h.nodup
  simp only [onPath, List.map_cons, List.nodup_cons] at hnodup
  have hchain := h.chain
  simp only [onPath, List.map_cons] at hchain
  refine ⟨hchain.tail, hnodup.2, ?_, ?_, ?_, ?_, ?_, ?_, ?_⟩
  · intro q hq
    exact h.on_path_lt q (List.mem_cons_of_mem _ hq)
  · intro q hq hf
    rcases List.mem_cons.1 hf with rfl | hf
    · exact hnodup.1 hq
    · exact h.not_finished q (List.mem_cons_of_mem _ hq) hf
  · intro f hf
    exact h.pending f (List.mem_cons_of_mem _ hf)
  · exact h.looked.2.mono (by simp [or_comm])
  · intro q hq r hr
    rcases List.mem_cons.1 hq with rfl | hq
    · exact List.mem_cons_of_mem _ (hsucc r hr)
    · exact List.mem_cons_of_mem _ (h.finished_closed q hq r hr)
  · intro q hq hcycle
    rcases List.mem_cons.1 hq with rfl | hq
    · -- the successors of `q` are finished, and a way back from them stays among finished positions
      obtain ⟨r, hr, hback⟩ := TransGen.head'_iff.1 hcycle
      exact hp (h.finished_of_reachable (hsucc r hr) hback)
    · exact h.finished_acyclic q hq hcycle
  · intro q hq
    rcases h.covered q hq with hs | hf | hc
    · exact .inl hs
    · exact .inr (.inl (List.mem_cons_of_mem _ hf))
    · rcases List.mem_cons.1 hc with rfl | hc
      · exact .inr (.inl List.mem_cons_self)
      · exact .inr (.inr hc)

theorem Invariant.pass {p q : Nat} {more starts finished : List Nat} {rest : List (Nat × List Nat)}
    (h : Invariant g ⟨starts, (p, q :: more) :: rest, finished⟩) (hq : q ∈ finished) :
    Invariant g ⟨starts, (p, more) :: rest, finished⟩ where
  chain := h.chain
  nodup := h.nodup
  on_path_lt := h.on_path_lt
  not_finished := h.not_finished
  pending f hf r hr := by
    rcases List.mem_cons.1 hf with rfl | hf
    · exact h.pending (p, q :: more) List.mem_cons_self r (List.mem_cons_of_mem _ hr)
    · exact h.pending f (List.mem_cons_of_mem _ hf) r hr
  looked := by
    refine ⟨fun r hr => ?_, h.looked.2⟩
    rcases h.looked.1 r hr with hm | hf
    · rcases List.mem_cons.1 hm with rfl | hm
      · exact .inr (.inl hq)
      · exact .inl hm
    · exact .inr hf
  finished_closed := h.finished_closed
  finished_acyclic := h.finished_acyclic
  covered := h.covered

theorem Invariant.enter {p q : Nat} {more starts finished : List Nat} {rest : List (Nat × List Nat)}
    (h : Invariant g ⟨starts, (p, q :: more) :: rest, finished⟩) (hg : g.Closed)
    (hp : q ∉ onPath ⟨starts, (p, q :: more) :: rest, finished⟩) (hf : q ∉ finished) :
    Invariant g ⟨starts, (q, g.next q) :: (p, more) :: rest, finished⟩ := by
  have hedge : g.Edge p q := h.pending (p, q :: more) List.mem_cons_self q List.mem_cons_self
  have hon : onPath ⟨starts, (q, g.next q) :: (p, more) :: rest, finished⟩ =
      q :: onPath ⟨starts, (p, q :: more) :: rest, finished⟩ := rfl
  refine ⟨?_, ?_, ?_, ?_, ?_, ?_, h.finished_closed, h.finished_acyclic, ?_⟩
  · have hchain := h.chain
    simp only [onPath, List.map_cons] at hchain ⊢
    exact List.isChain_cons_cons.2 ⟨hedge, hchain⟩
  · rw [hon]
    exact List.nodup_cons.2 ⟨hp, h.nodup⟩
  · intro r hr
    rw [hon] at hr
    rcases List.mem_cons.1 hr with rfl | hr
    · exact hg.target_lt hedge
    · exact h.on_path_lt r hr
  · intro r hr
    rw [hon] at hr
    rcases List.mem_cons.1 hr with rfl | hr
    · exact hf
    · exact h.not_finished r hr
  · intro f hmem r hr
    rcases List.mem_cons.1 hmem with rfl | hmem
    · exact hr
    · rcases List.mem_cons.1 hmem with rfl | hmem
      · exact h.pending (p, q :: more) List.mem_cons_self r (List.mem_cons_of_mem _ hr)
      · exact h.pending f (List.mem_cons_of_mem _ hmem) r hr
  · refine ⟨fun r hr => .inl hr, fun r hr => ?_, h.looked.2.mono ?_⟩
    · rcases h.looked.1 r hr with hm | hd | hi
      · rcases List.mem_cons.1 hm with rfl | hm
        · exact .inr (.inr List.mem_cons_self)
        · exact .inl hm
      · exact .inr (.inl hd)
      · simp at hi
    · intro r hr
      simp only [List.mem_cons, List.not_mem_nil, or_false] at hr ⊢
      exact hr.imp_right .inl
  · intro r hr
    rcases h.covered r hr with hs | hd | hc
    · exact .inl hs
    · exact .inr (.inl hd)
    · exact .inr (.inr (hon ▸ List.mem_cons_of_mem _ hc))

theorem invariant_step {s t : CycleSearch} (hg : g.Closed) (h : Invariant g s) (ht : s.step g = .next t) :
    Invariant g t := by
  obtain ⟨starts, path, finished⟩ := s
  match path with
  | [] =>
    match starts with
    | [] => simp [step] at ht
    | p :: starts =>
      simp only [step] at ht
      split at ht <;> injection ht with ht <;> subst ht
      · rename_i hc
        exact h.skip (by simpa using hc)
      · rename_i hc
        simp only [List.contains_iff_mem, not_or, Nat.not_le] at hc
        exact h.begin hc.1 hc.2
  | (p, []) :: rest =>
    injection ht with ht
    subst ht
    exact h.leave
  | (p, q :: more) :: rest =>
    have hq : q < g.size := hg.target_lt (h.pending _ List.mem_cons_self q List.mem_cons_self)
    simp only [step] at ht
    split at ht
    · simp at ht
    · rename_i hp
      split at ht <;> injection ht with ht <;> subst ht
      · rename_i hc
        exact h.pass (by simpa [Nat.not_le.2 hq] using hc)
      · rename_i hc
        simp only [List.contains_iff_mem, not_or, Nat.not_le] at hp hc
        exact h.enter hg hp hc.1

/-- Every position on a path reaches the innermost one. -/
theorem reaches_innermost {p : Nat} {outer : List Nat}
    (h : (p :: outer).IsChain fun inner outer => g.Edge outer inner) {q : Nat} (hq : q ∈ p :: outer) :
    ReflTransGen g.Edge q p := by
  induction outer generalizing p with
  | nil =>
    obtain rfl : q = p := by simpa using hq
    exact .refl
  | cons r outer ih =>
    obtain ⟨hedge, htail⟩ := List.isChain_cons_cons.1 h
    rcases List.mem_cons.1 hq with rfl | hq
    · exact .refl
    · exact (ih htail hq).tail hedge

/-- A successor of the innermost position that is on the path closes a cycle. -/
theorem Invariant.onCycle {p q : Nat} {more starts finished : List Nat} {rest : List (Nat × List Nat)}
    (h : Invariant g ⟨starts, (p, q :: more) :: rest, finished⟩)
    (hq : q ∈ onPath ⟨starts, (p, q :: more) :: rest, finished⟩) : g.OnCycle q := by
  have hchain := h.chain
  simp only [onPath, List.map_cons] at hchain hq
  exact TransGen.tail' (reaches_innermost hchain hq) (h.pending (p, q :: more) List.mem_cons_self q List.mem_cons_self)

/-- How a search ends: at a position on a cycle, or with all positions finished. -/
theorem run_spec {s : CycleSearch} (hg : g.Closed) (h : Invariant g s) :
    (∀ q, run g s = some q → q < g.size ∧ g.OnCycle q) ∧
    (run g s = none → ∀ p < g.size, ¬ g.OnCycle p) := by
  fun_induction run g s with
  | case1 s t ht ih => exact ih (invariant_step hg h ht)
  | case2 s found hd =>
    obtain ⟨starts, path, finished⟩ := s
    match path with
    | [] =>
      match starts with
      | [] =>
        obtain rfl : none = found := by simpa [step] using hd
        refine ⟨by simp, fun _ p hp => ?_⟩
        have hf : p ∈ finished := by simpa [onPath] using h.covered p hp
        exact h.finished_acyclic p hf
      | p :: starts =>
        simp only [step] at hd
        split at hd <;> cases hd
    | (p, []) :: rest => cases hd
    | (p, q :: more) :: rest =>
      simp only [step] at hd
      split at hd
      · rename_i hc
        obtain rfl : some q = found := by simpa using hd
        have hon : q ∈ onPath ⟨starts, (p, q :: more) :: rest, finished⟩ := by simpa using hc
        refine ⟨fun r hr => ?_, by simp⟩
        obtain rfl : q = r := by simpa using hr
        exact ⟨h.on_path_lt q hon, h.onCycle hon⟩
      · split at hd <;> cases hd

end CycleSearch

variable {g : Graph}

theorem Closed.lt_of_onCycle (hg : g.Closed) {p : Nat} (h : g.OnCycle p) : p < g.size := by
  obtain ⟨q, hedge, _⟩ := TransGen.head'_iff.1 h
  exact hg.source_lt hedge

theorem onCycle_of_findCycle (hg : g.Closed) {id : String} (h : g.findCycle = some id) :
    ∃ p n, g.node? p = some n ∧ n.id = id ∧ g.OnCycle p := by
  simp only [findCycle, bind, Option.bind_eq_some_iff] at h
  obtain ⟨p, hp, n, hn, hid⟩ := h
  have hspec := (CycleSearch.run_spec hg (CycleSearch.invariant_initial g)).1 p hp
  exact ⟨p, n, hn, by simpa using hid, hspec.2⟩

/-- No node is named just if there is no cycle. -/
theorem findCycle_eq_none_iff (hg : g.Closed) : g.findCycle = none ↔ ∀ p, ¬ g.OnCycle p := by
  constructor
  · intro h p hp
    have hspec := CycleSearch.run_spec hg (CycleSearch.invariant_initial g)
    cases hr : CycleSearch.run g ⟨List.range g.size, [], []⟩ with
    | none => exact hspec.2 hr p (hg.lt_of_onCycle hp) hp
    | some q =>
      obtain ⟨n, hn⟩ := node?_eq_some_of_lt (hspec.1 q hr).1
      simp [findCycle, hr, hn] at h
  · intro h
    cases hf : g.findCycle with
    | none => rfl
    | some id =>
      obtain ⟨p, _, _, _, hp⟩ := onCycle_of_findCycle hg hf
      exact absurd hp (h p)

end RuleFlow.Graph
