import RuleFlow.Proofs.Graph.ReachSteps
import RuleFlow.Walk.Machine
/-! # Look-ups by position

The searches and the walk look positions up: in the nodes, in the lists of successors, and in marks, of which there is
one for each node.  Here are their steps with every look-up made, which fail where there is nothing at a position.  On
compiled rules they do not fail: whatever a search or a walk has come to, its step is the step with the look-ups.  Main
statements: `ReachSearch.looksUp`, `CycleSearch.looksUp` and `Walk.looksUp`. -/
namespace RuleFlow

/-- Whether a machine can make its steps with look-ups, from a state on and as far as it goes. -/
def Progress.LooksUp {σ α : Type} (step : σ → Progress σ α) (lookup : σ → Option (Progress σ α)) (s : σ) : Prop :=
  ∀ k t, after step k s = .next t → lookup t = some (step t)

namespace Graph

variable {g : Graph} {p : Nat}

def marks (g : Graph) (mark : Nat → Bool) : List Bool := (List.range g.size).map mark

theorem getElem?_marks (mark : Nat → Bool) (hp : p < g.size) : (g.marks mark)[p]? = some (mark p) := by
  rw [marks, List.getElem?_map, List.getElem?_range hp, Option.map_some]

/-- Whether all edges join positions of nodes, and there is a list of successors for each node. -/
structure Sized (g : Graph) : Prop extends g.Closed where
  length_successors : g.successors.length = g.size

theorem Sized.getElem?_successors (hg : g.Sized) (hp : p < g.size) : g.successors[p]? = some (g.next p) := by
  have hlt : p < g.successors.length := hg.length_successors ▸ hp
  rw [next, List.getElem?_eq_getElem hlt, Option.getD_some]

theorem compile_sized {rule : Rule} {dropped : List DroppedConnection} (h : compile rule = .ok (g, dropped)) :
    g.Sized := by
  refine ⟨compile_closed h, ?_⟩
  obtain ⟨nodes, -, rfl, -⟩ := compile_eq_ok_iff.1 h
  rw [List.length_map, List.length_range]
  rfl

namespace ReachSearch

variable {s t : ReachSearch}

def lookup (g : Graph) (s : ReachSearch) : Option (Progress ReachSearch (List Nat)) :=
  match s.pending with
  | [] => some (.done s.seen)
  | p :: rest => do
    if ← (g.marks s.seen.contains)[p]? then return .next ⟨s.seen, rest⟩
    return .next ⟨p :: s.seen, (← g.successors[p]?).reverse ++ rest⟩

theorem lookup_eq (hg : g.Sized) (h : ∀ p ∈ s.pending, p < g.size) : s.lookup g = some (s.step g) := by
  obtain ⟨seen, pending⟩ := s
  cases pending with
  | nil => rfl
  | cons p rest =>
    have hp : p < g.size := h p List.mem_cons_self
    simp only [lookup, step, getElem?_marks _ hp, hg.getElem?_successors hp, Option.bind_eq_bind, Option.bind_some,
      Nat.not_le.2 hp, or_false]
    split <;> rfl

/-- What a step puts on the stack are positions of nodes. -/
theorem pending_lt_step (hg : g.Closed) (ht : s.step g = .next t) (h : ∀ p ∈ s.pending, p < g.size) :
    ∀ p ∈ t.pending, p < g.size := by
  obtain ⟨seen, p, rest, rfl, rfl | ⟨-, -, rfl⟩⟩ := step_cases ht
  · exact fun q hq => h q (List.mem_cons_of_mem _ hq)
  · refine List.forall_mem_append.2 ⟨fun q hq => ?_, fun q hq => h q (List.mem_cons_of_mem _ hq)⟩
    exact hg.target_lt (List.mem_reverse.1 hq)

/-- The search from a position of a node looks up positions of nodes alone. -/
theorem looksUp (hg : g.Sized) {start : Nat} (hs : start < g.size) :
    Progress.LooksUp (step g) (lookup g) ⟨[], [start]⟩ := by
  intro k t ht
  have hstart : ∀ p ∈ (⟨[], [start]⟩ : ReachSearch).pending, p < g.size := by simpa using hs
  exact lookup_eq hg (Progress.after_induction (fun _ _ => pending_lt_step hg.toClosed) hstart ht)

end ReachSearch

namespace CycleSearch

variable {s t : CycleSearch}

/-- A step with its look-ups: of the marks of a start, or of the successors of the innermost position on the path, of
the mark of the next of these, and of its node if it closes a cycle. -/
def lookup (g : Graph) (s : CycleSearch) : Option (Progress CycleSearch (Option Nat)) :=
  match s.path with
  | [] =>
    match s.starts with
    | [] => some (.done none)
    | p :: rest => do
      if ← (g.marks s.finished.contains)[p]? then return .next { s with starts := rest }
      return .next { s with starts := rest, path := [(p, ← g.successors[p]?)] }
  | (p, more) :: rest => do
    let _ ← g.successors[p]?
    match more with
    | [] =>
      let _ ← (g.marks s.finished.contains)[p]?
      return .next { s with path := rest, finished := p :: s.finished }
    | q :: more =>
      if ← (g.marks s.onPath.contains)[q]? then
        let _ ← g.nodes[q]?
        return .done (some q)
      if ← (g.marks s.finished.contains)[q]? then return .next { s with path := (p, more) :: rest }
      return .next { s with path := (q, ← g.successors[q]?) :: (p, more) :: rest }

theorem lookup_eq (hg : g.Sized) (h : Invariant g s) (hstarts : ∀ p ∈ s.starts, p < g.size) :
    s.lookup g = some (s.step g) := by
  obtain ⟨starts, path, finished⟩ := s
  match path with
  | [] =>
    cases starts with
    | nil => rfl
    | cons p rest =>
      have hp : p < g.size := hstarts p List.mem_cons_self
      simp only [lookup, step, getElem?_marks _ hp, hg.getElem?_successors hp, Option.bind_eq_bind, Option.bind_some,
        Nat.not_le.2 hp, or_false]
      split <;> rfl
  | (p, []) :: rest =>
    have hp : p < g.size := h.on_path_lt p List.mem_cons_self
    simp only [lookup, step, getElem?_marks _ hp, hg.getElem?_successors hp, Option.bind_eq_bind, Option.bind_some]
    rfl
  | (p, q :: more) :: rest =>
    have hp : p < g.size := h.on_path_lt p List.mem_cons_self
    have hq : q < g.size := hg.target_lt (h.pending _ List.mem_cons_self q List.mem_cons_self)
    obtain ⟨n, hn⟩ := node?_eq_some_of_lt hq
    have hnode : g.nodes[q]? = some n := hn
    simp only [lookup, step, getElem?_marks _ hq, hg.getElem?_successors hp, hg.getElem?_successors hq, hnode,
      Option.bind_eq_bind, Option.bind_some, Nat.not_le.2 hq, or_false]
    split
    · rfl
    · split <;> rfl

theorem starts_subset_step (ht : s.step g = .next t) : t.starts ⊆ s.starts := by
  obtain ⟨starts, path, finished⟩ := s
  match path with
  | [] =>
    cases starts with
    | nil => cases ht
    | cons p rest =>
      simp only [step] at ht
      split at ht <;> cases ht <;> exact List.subset_cons_self _ _
  | (p, []) :: rest =>
    cases ht
    exact List.Subset.refl _
  | (p, q :: more) :: rest =>
    simp only [step] at ht
    split at ht
    · cases ht
    · split at ht <;> cases ht <;> exact List.Subset.refl _

/-- The search for cycles looks up positions of nodes alone. -/
theorem looksUp (hg : g.Sized) : Progress.LooksUp (step g) (lookup g) ⟨List.range g.size, [], []⟩ := by
  intro k t ht
  have hstep (s t : CycleSearch) (ht : s.step g = .next t)
      (h : Invariant g s ∧ ∀ p ∈ s.starts, p < g.size) : Invariant g t ∧ ∀ p ∈ t.starts, p < g.size :=
    ⟨invariant_step hg.toClosed h.1 ht, fun p hp => h.2 p (starts_subset_step ht hp)⟩
  obtain ⟨hinvariant, hstarts⟩ :=
    Progress.after_induction hstep ⟨invariant_initial g, fun p hp => List.mem_range.1 hp⟩ ht
  exact lookup_eq hg hinvariant hstarts

end CycleSearch

end Graph

namespace Walk

variable {τ ε : Type} {g : Graph} {v : Visitor τ ε} {s t : State τ}

def Frame.position : Frame → Nat
  | .enter p => p
  | .leave p => p

/-- A step with its look-ups: of the node and the mark of a position that is entered, and of its successors if the visit
does not end the branch; of the mark of a position that is left. -/
def lookup (g : Graph) (v : Visitor τ ε) (s : State τ) : Option (Progress (State τ) (Result τ ε)) :=
  match s.frames with
  | [] => some (.done (.ok s.outputs, s.world))
  | .leave p :: rest => do
    let _ ← (g.marks s.path.contains)[p]?
    return .next { s with frames := rest, path := s.path.erase p }
  | .enter p :: rest => do
    let n ← g.nodes[p]?
    if ← (g.marks s.path.contains)[p]? then return .done (.error (.cycle n.id), s.world)
    match v.visit n s.outputs s.world with
    | (.error e, world) => return .done (.error (.visit e), world)
    | (.ok output, world) =>
      let next ← if v.halts n output then some [] else g.successors[p]?
      return .next ⟨next.map .enter ++ .leave p :: rest, p :: s.path, s.outputs.record n.id output, world⟩

theorem lookup_eq (hg : g.Sized) (h : ∀ f ∈ s.frames, f.position < g.size) : lookup g v s = some (step g v s) := by
  obtain ⟨frames, path, outputs, world⟩ := s
  match frames with
  | [] => rfl
  | .leave p :: rest =>
    have hp : p < g.size := h (.leave p) List.mem_cons_self
    simp only [lookup, step, Graph.getElem?_marks _ hp, Option.bind_eq_bind, Option.bind_some]
    rfl
  | .enter p :: rest =>
    have hp : p < g.size := h (.enter p) List.mem_cons_self
    obtain ⟨n, hn⟩ := Graph.node?_eq_some_of_lt hp
    have hnode : g.nodes[p]? = some n := hn
    simp only [lookup, step, hn, hnode, Graph.getElem?_marks _ hp, hg.getElem?_successors hp, Option.bind_eq_bind,
      Option.bind_some]
    split
    · rfl
    · rcases v.visit n outputs world with ⟨e | output, world⟩
      · rfl
      · cases hhalts : v.halts n output <;> simp only [hhalts] <;> rfl

theorem position_lt_step (hg : g.Closed) (ht : step g v s = .next t) (h : ∀ f ∈ s.frames, f.position < g.size) :
    ∀ f ∈ t.frames, f.position < g.size := by
  obtain ⟨frames, path, outputs, world⟩ := s
  match frames with
  | [] => cases ht
  | .leave p :: rest =>
    cases ht
    exact fun f hf => h f (List.mem_cons_of_mem _ hf)
  | .enter p :: rest =>
    have hrest (f : Frame) (hf : f ∈ rest) : f.position < g.size := h f (List.mem_cons_of_mem _ hf)
    have hp : p < g.size := h (.enter p) List.mem_cons_self
    obtain ⟨n, hn⟩ := Graph.node?_eq_some_of_lt hp
    simp only [step, hn] at ht
    split at ht
    · cases ht
    · split at ht
      · cases ht
      · cases ht
        refine List.forall_mem_append.2 ⟨fun f hf => ?_, List.forall_mem_cons.2 ⟨hp, hrest⟩⟩
        obtain ⟨q, hq, rfl⟩ := List.mem_map.1 hf
        -- There is nothing to enter where the visit ends the branch.
        split at hq
        · cases hq
        · exact hg.target_lt hq

/-- A walk from a position of a node looks up positions of nodes alone, whatever is done at the nodes. -/
theorem looksUp (hg : g.Sized) (v : Visitor τ ε) {start : Nat} (hs : start < g.size) (world : τ) :
    Progress.LooksUp (step g v) (lookup g v) ⟨[.enter start], [], [], world⟩ := by
  intro k t ht
  have hstart : ∀ f ∈ (⟨[.enter start], [], [], world⟩ : State τ).frames, f.position < g.size := by
    simpa [Frame.position] using hs
  exact lookup_eq hg (Progress.after_induction (fun _ _ => position_lt_step hg.toClosed) hstart ht)

end Walk

end RuleFlow
