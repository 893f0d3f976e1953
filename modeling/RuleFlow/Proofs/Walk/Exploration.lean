import RuleFlow.Proofs.Graph.Reachability
import RuleFlow.Proofs.Graph.Cycles
import RuleFlow.Proofs.Walk.Preorder
/-! # What a walk explores

A walk whose branches are never ended follows every path from its start, and closes a cycle just if there is one to
be reached.  Main statement: `walk_explores_paths`. -/
namespace RuleFlow.Walk

open Relation

variable {τ ε : Type} {g : Graph} {v : Visitor τ ε}

theorem inOrder_error {visit : Nat → Outputs → τ → Trace τ ε} {ps : List Nat} {o : Outputs} {world world' : τ}
    {e : Failure ε} (h : (Trace.inOrder visit ps o world).result = (.error e, world')) :
    ∃ p ∈ ps, ∃ o₁ world₁, (visit p o₁ world₁).result = (.error e, world') := by
  induction ps generalizing o world with
  | nil => simp [Trace.inOrder] at h
  | cons p ps ih =>
    rw [Trace.inOrder] at h
    rcases hr : (visit p o world).result with ⟨e₁ | o₁, world₁⟩
    · rw [Trace.andThen_error hr, hr] at h
      exact ⟨p, List.mem_cons_self, o, world, hr.trans h⟩
    · rw [Trace.andThen_ok hr] at h
      obtain ⟨q, hq, hrest⟩ := ih h
      exact ⟨q, List.mem_cons_of_mem _ hq, hrest⟩

theorem inOrder_ok {visit : Nat → Outputs → τ → Trace τ ε} {p : Nat} {ps : List Nat} {o o' : Outputs}
    {world world' : τ} (h : (Trace.inOrder visit (p :: ps) o world).result = (.ok o', world')) :
    ∃ o₁ world₁, (visit p o world).result = (.ok o₁, world₁) ∧
      (Trace.inOrder visit ps o₁ world₁).result = (.ok o', world') ∧
      (Trace.inOrder visit (p :: ps) o world).calls =
        (visit p o world).calls ++ (Trace.inOrder visit ps o₁ world₁).calls := by
  rw [Trace.inOrder] at h ⊢
  rcases hr : (visit p o world).result with ⟨e | o₁, world₁⟩
  · rw [Trace.andThen_error hr, hr] at h
    simp at h
  · rw [Trace.andThen_ok hr] at h ⊢
    exact ⟨o₁, world₁, rfl, h, rfl⟩

theorem inOrder_ok_of_mem {visit : Nat → Outputs → τ → Trace τ ε} {ps : List Nat} {o o' : Outputs}
    {world world' : τ} (h : (Trace.inOrder visit ps o world).result = (.ok o', world')) {p : Nat} (hp : p ∈ ps) :
    ∃ o₁ world₁ o₂ world₂, (visit p o₁ world₁).result = (.ok o₂, world₂) := by
  induction ps generalizing o world with
  | nil => simp at hp
  | cons q ps ih =>
    obtain ⟨o₁, world₁, hq, hrest, _⟩ := inOrder_ok h
    rcases List.mem_cons.1 hp with rfl | hp
    · exact ⟨o, world, o₁, world₁, hq⟩
    · exact ih hrest hp

/-- A walk that comes to a position on its way has closed a cycle, whatever the visitor does. -/
theorem onCycle_of_cycle {path : List Nat} {p : Nat} {o : Outputs} {world world' : τ} {id : String}
    (hpath : ∀ a ∈ path, TransGen g.Edge a p)
    (h : (preorder g v path p o world).result = (.error (.cycle id), world')) :
    ∃ q, ReflTransGen g.Edge p q ∧ g.OnCycle q := by
  fun_induction preorder g v path p o world with
  | case1 path p o world hn => simp at h
  | case2 path p o world n hn hp => exact ⟨p, .refl, hpath p hp⟩
  | case3 path p o world n hn hp e world₁ hv => simp at h
  | case4 path p o world n hn hp x world₁ hv ih =>
    obtain ⟨q, hq, o₁, world₂, hr⟩ := inOrder_error h
    have hedge : g.Edge p q := by
      split at hq
      · simp at hq
      · exact hq
    have hpath' : ∀ a ∈ p :: path, TransGen g.Edge a q := by
      intro a ha
      rcases List.mem_cons.1 ha with rfl | ha
      · exact .single hedge
      · exact (hpath a ha).tail hedge
    obtain ⟨r, hqr, hcycle⟩ := ih q o₁ world₂ hpath' hr
    exact ⟨r, .head hedge hqr, hcycle⟩

/-- A walk that completes, with no branch ended, comes to no position on its way and to no cycle. -/
theorem not_onCycle_of_completed (hg : g.Closed) (hh : ∀ n x, v.halts n x = false) {path : List Nat} {p : Nat}
    {o o' : Outputs} {world world' : τ} (hp : p < g.size)
    (h : (preorder g v path p o world).result = (.ok o', world')) {q : Nat} (hq : ReflTransGen g.Edge p q) :
    q ∉ path ∧ ¬ g.OnCycle q := by
  fun_induction preorder g v path p o world generalizing o' world' q with
  | case1 path p o world hn =>
    obtain ⟨n, hn'⟩ := Graph.node?_eq_some_of_lt hp
    simp [hn] at hn'
  | case2 path p o world n hn hon => simp at h
  | case3 path p o world n hn hon e world₁ hv => simp at h
  | case4 path p o world n hn hon x world₁ hv ih =>
    have hsucc {r q : Nat} (hr : g.Edge p r) (hq : ReflTransGen g.Edge r q) : q ∉ p :: path ∧ ¬ g.OnCycle q := by
      simp only [hh, Bool.false_eq_true, if_false, Trace.prepend] at h
      obtain ⟨o₁, world₂, o₂, world₃, hr'⟩ := inOrder_ok_of_mem h hr
      exact ih r o₁ world₂ (hg.target_lt hr) hr' hq
    rcases ReflTransGen.cases_head hq with rfl | ⟨r, hr, hrq⟩
    · -- a cycle through `p` would bring the walk of a successor to `p`, which is on its way
      refine ⟨hon, fun hcycle => ?_⟩
      obtain ⟨r, hr, hback⟩ := TransGen.head'_iff.1 hcycle
      exact (hsucc hr hback).1 List.mem_cons_self
    · obtain ⟨hq, hcycle⟩ := hsucc hr hrq
      exact ⟨fun hmem => hq (List.mem_cons_of_mem _ hmem), hcycle⟩

/-- The paths to a position from one of some positions, with the number of that one in front. -/
def branches (g : Graph) (ps : List Nat) (q : Nat) : Set (List Nat) :=
  {choices | ∃ i rest r, choices = i :: rest ∧ ps[i]? = some r ∧ rest ∈ g.paths r q}

theorem branches_nil (g : Graph) (q : Nat) : branches g [] q = ∅ := by
  ext choices
  simp [branches]

/-- The first of the positions is number zero, and the numbers of the others are one more than without it. -/
theorem branches_cons (g : Graph) (p : Nat) (ps : List Nat) (q : Nat) :
    branches g (p :: ps) q =
      List.cons 0 '' g.paths p q ∪ List.modifyHead (· + 1) '' branches g ps q := by
  ext choices
  constructor
  · rintro ⟨i, rest, r, rfl, hi, hrest⟩
    cases i with
    | zero =>
      obtain rfl : p = r := by simpa using hi
      exact .inl ⟨rest, hrest, rfl⟩
    | succ i => exact .inr ⟨i :: rest, ⟨i, rest, r, rfl, by simpa using hi, hrest⟩, rfl⟩
  · rintro (⟨rest, hrest, rfl⟩ | ⟨_, ⟨i, rest, r, rfl, hi, hrest⟩, rfl⟩)
    · exact ⟨0, rest, p, rfl, rfl, hrest⟩
    · exact ⟨i + 1, rest, r, rfl, by simpa using hi, hrest⟩

theorem modifyHead_succ_injective : Function.Injective (List.modifyHead (· + 1) : List Nat → List Nat) := by
  intro a b h
  cases a <;> cases b <;> simp_all

theorem encard_branches_cons (g : Graph) (p : Nat) (ps : List Nat) (q : Nat) :
    (branches g (p :: ps) q).encard = (g.paths p q).encard + (branches g ps q).encard := by
  have hdisj : Disjoint (List.cons 0 '' g.paths p q) (List.modifyHead (· + 1) '' branches g ps q) := by
    rw [Set.disjoint_left]
    rintro _ ⟨rest, _, rfl⟩ ⟨_, ⟨i, rest', r, rfl, _⟩, heq⟩
    simp at heq
  rw [branches_cons, Set.encard_union_eq hdisj, List.cons_injective.encard_image,
    modifyHead_succ_injective.encard_image]

/-- A path either ends where it begins or goes on from a successor. -/
theorem encard_paths (g : Graph) (p q : Nat) :
    (g.paths p q).encard = (if p = q then 1 else 0) + (branches g (g.next p) q).encard := by
  have hsplit : g.paths p q = (if p = q then {[]} else ∅) ∪ branches g (g.next p) q := by
    ext choices
    cases choices with
    | nil => by_cases h : p = q <;> simp [Graph.paths, branches, h]
    | cons i rest =>
      have hif : i :: rest ∉ (if p = q then {[]} else ∅ : Set (List Nat)) := by split <;> simp
      simp [Graph.paths, branches, hif, Graph.follow_cons_eq_some]
  have hdisj : Disjoint (if p = q then {[]} else ∅ : Set (List Nat)) (branches g (g.next p) q) := by
    rw [Set.disjoint_left]
    rintro choices hc ⟨i, rest, r, rfl, _⟩
    split at hc <;> simp at hc
  rw [hsplit, Set.encard_union_eq hdisj]
  split <;> simp

/-- Walks one after the other that complete visit a position as often as branches lead to it, if each of them
visits it as often as paths do. -/
theorem encard_branches_of_completed {visit : Nat → Outputs → τ → Trace τ ε} {q : Nat} {ps : List Nat}
    (hvisit : ∀ p ∈ ps, ∀ o world o' world', (visit p o world).result = (.ok o', world') →
      (g.paths p q).encard = (visit p o world).calls.countP (·.position = q))
    {o o' : Outputs} {world world' : τ} (h : (Trace.inOrder visit ps o world).result = (.ok o', world')) :
    (branches g ps q).encard = (Trace.inOrder visit ps o world).calls.countP (·.position = q) := by
  induction ps generalizing o world with
  | nil => simp [branches_nil, Trace.inOrder]
  | cons p ps ih =>
    obtain ⟨o₁, world₁, hp, hrest, hcalls⟩ := inOrder_ok h
    have hfirst := hvisit p List.mem_cons_self o world o₁ world₁ hp
    have hothers := ih (fun r hr => hvisit r (List.mem_cons_of_mem _ hr)) hrest
    rw [hcalls, encard_branches_cons, hfirst, hothers, List.countP_append, Nat.cast_add]

/-- A walk that completes, with no branch ended, visits a position once for each path that leads to it. -/
theorem encard_paths_of_completed (hg : g.Closed) (hh : ∀ n x, v.halts n x = false) {path : List Nat} {p : Nat}
    {o o' : Outputs} {world world' : τ} (hp : p < g.size)
    (h : (preorder g v path p o world).result = (.ok o', world')) (q : Nat) :
    (g.paths p q).encard = (preorder g v path p o world).calls.countP (·.position = q) := by
  fun_induction preorder g v path p o world generalizing o' world' with
  | case1 path p o world hn =>
    obtain ⟨n, hn'⟩ := Graph.node?_eq_some_of_lt hp
    simp [hn] at hn'
  | case2 path p o world n hn hon => simp at h
  | case3 path p o world n hn hon e world₁ hv => simp at h
  | case4 path p o world n hn hon x world₁ hv ih =>
    simp only [hh, Bool.false_eq_true, if_false, Trace.prepend] at h ⊢
    have hvisit : ∀ r ∈ g.next p, ∀ o₁ world₂ o₂ world₃,
        (preorder g v (p :: path) r o₁ world₂).result = (.ok o₂, world₃) →
        (g.paths r q).encard = (preorder g v (p :: path) r o₁ world₂).calls.countP (·.position = q) :=
      fun r hr o₁ world₂ _ _ hr' => ih r o₁ world₂ (hg.target_lt hr) hr'
    have hrest := encard_branches_of_completed hvisit h
    rw [encard_paths, hrest, List.singleton_append, List.countP_cons, Nat.cast_add, add_comm]
    simp

theorem halts_false (n : Node) (x : Json) : halts false n x = false := by
  unfold halts
  split <;> rfl

theorem exists_call_iff_reachable (hg : g.Closed) (hh : ∀ n x, v.halts n x = false) {start : Nat} {world : τ}
    {o : Outputs} {world' : τ} (hs : start < g.size)
    (h : (trace g v (.initial start world)).result = (.ok o, world')) {p : Nat} :
    (∃ c ∈ (trace g v (.initial start world)).calls, c.position = p) ↔ ReflTransGen g.Edge start p := by
  rw [trace_initial] at h ⊢
  rw [← Graph.paths_nonempty_iff, ← Set.encard_pos, encard_paths_of_completed hg hh hs h]
  simp [List.countP_pos_iff]

/-- The nodes with an output, after a walk that completes with no branch ended, are those that the search for
reachable positions marks. -/
theorem mem_keys_iff_marked (hg : g.Closed) (hh : ∀ n x, v.halts n x = false) {start : Nat} {world : τ}
    {o : Outputs} {world' : τ} (hs : start < g.size)
    (h : (trace g v (.initial start world)).result = (.ok o, world')) (id : String) :
    id ∈ o.keys ↔ ∃ p n, (g.reachableFrom start)[p]? = some true ∧ g.node? p = some n ∧ n.id = id := by
  obtain ⟨hall, ho⟩ := outputs_of_completed (congrArg Prod.fst h)
  have hkeys : o.keys = ((trace g v (.initial start world)).calls.map (·.node.id)).eraseDups :=
    ho ▸ keys_store hall
  rw [hkeys, List.mem_eraseDups, List.mem_map]
  constructor
  · rintro ⟨c, hmem, rfl⟩
    have hreach := (exists_call_iff_reachable hg hh hs h).1 ⟨c, hmem, rfl⟩
    exact ⟨c.position, c.node, (Graph.reachableFrom_getElem? hg hs).2 hreach, node?_of_mem_calls hmem, rfl⟩
  · rintro ⟨p, n, hmark, hn, rfl⟩
    have hreach := (Graph.reachableFrom_getElem? hg hs).1 hmark
    obtain ⟨c, hmem, rfl⟩ := (exists_call_iff_reachable hg hh hs h).2 hreach
    obtain rfl : c.node = n := Option.some.inj ((node?_of_mem_calls hmem).symm.trans hn)
    exact ⟨c, hmem, rfl⟩

theorem result_ne_visit {handler : Node → Outputs → τ → Except ε Json × τ} {branchOnFalse : Bool} {s : State τ}
    (hok : ∀ n o world, ∃ x, (handler n o world).1 = .ok x) (e : ε) (world : τ) :
    (trace g (handled handler branchOnFalse) s).result ≠ (.error (.visit e), world) := by
  intro h
  obtain ⟨c, hmem, he⟩ := exists_call_of_failed h
  obtain ⟨_, _, _, hcall⟩ := exists_steps_of_mem_calls hmem
  obtain ⟨x, hx⟩ := hok c.node c.outputs c.world
  have hanswer : c.answer = (handler c.node c.outputs c.world).1 := (call?_spec hcall).2.2.2
  rw [hanswer, hx] at he
  cases he

/-- What a walk explores whose handlers never fail and whose conditions end no branch.  It fails with a cycle just if
a cycle of the compiled rule can be reached from the trigger.  Otherwise it completes; the nodes that have an output
are those that the search for reachable positions marks; and each position has been visited once for each path
that leads to it from the trigger, where connections between the same nodes make different paths. -/
theorem walk_explores_paths {rule : Rule} {dropped : List DroppedConnection} {start : Nat}
    (hc : Graph.compile rule = .ok (g, dropped)) (hs : g.trigger = some start)
    {handler : Node → Outputs → τ → Except ε Json × τ} (hok : ∀ n o world, ∃ x, (handler n o world).1 = .ok x)
    (world : τ) :
    ((∃ id world', runFrom g (handled handler false) start world = (.error (.cycle id), world')) ↔
      ∃ q, ReflTransGen g.Edge start q ∧ g.OnCycle q) ∧
    ((¬ ∃ q, ReflTransGen g.Edge start q ∧ g.OnCycle q) →
      ∃ o world', runFrom g (handled handler false) start world = (.ok o, world') ∧
        (∀ id, id ∈ o.keys ↔ ∃ p n, (g.reachableFrom start)[p]? = some true ∧ g.node? p = some n ∧ n.id = id) ∧
        ∀ p, (g.paths start p).encard =
          (trace g (handled handler false) (.initial start world)).calls.countP (·.position = p)) := by
  have hg : g.Closed := Graph.compile_closed hc
  have hlt : start < g.size := Graph.trigger_lt hs
  have heq := trace_initial g (handled handler false) start world
  rw [runFrom_eq_result]
  rcases hr : (trace g (handled handler false) (.initial start world)).result with ⟨(⟨id⟩ | ⟨e⟩) | o, world'⟩
  · have hcycle := onCycle_of_cycle (by simp) (heq ▸ hr)
    exact ⟨⟨fun _ => hcycle, fun _ => ⟨id, world', rfl⟩⟩, fun h => absurd hcycle h⟩
  · exact absurd hr (result_ne_visit hok e world')
  · have hacyclic : ¬ ∃ q, ReflTransGen g.Edge start q ∧ g.OnCycle q := by
      rintro ⟨q, hq, hcycle⟩
      exact (not_onCycle_of_completed hg halts_false hlt (heq ▸ hr) hq).2 hcycle
    have hcount (p : Nat) := encard_paths_of_completed hg halts_false hlt (heq ▸ hr) p
    refine ⟨⟨?_, fun h => absurd h hacyclic⟩, fun _ => ⟨o, world', rfl, ?_, fun p => heq ▸ hcount p⟩⟩
    · rintro ⟨id, w, h⟩
      simp at h
    · exact mem_keys_iff_marked hg halts_false hlt hr

def diamond : Rule where
  id := "r"
  tenantId := "t"
  name := "diamond"
  description := none
  status := .active
  priority := 0
  appliesToAssetTypes := ["well"]
  appliesToAssets := none
  nodes := [⟨"start", "manual", .origin, [], [], []⟩, ⟨"left", "log", .origin, [], [], []⟩,
    ⟨"right", "log", .origin, [], [], []⟩, ⟨"join", "log", .origin, [], [], []⟩]
  connections :=
    [⟨"1", "start", "out", "left", "in"⟩, ⟨"2", "start", "out", "right", "in"⟩, ⟨"3", "left", "out", "join", "in"⟩,
      ⟨"4", "right", "out", "join", "in"⟩, ⟨"5", "right", "out", "join", "in"⟩]
  settings := ⟨none, false⟩
  createdAt := none

def diamondGraph : Graph where
  nodes := [⟨"start", .trigger ⟨.manual, none, none⟩⟩, ⟨"left", .log NodeKind.defaultLogMessage .info⟩,
    ⟨"right", .log NodeKind.defaultLogMessage .info⟩, ⟨"join", .log NodeKind.defaultLogMessage .info⟩]
  successors := [[1, 2], [3], [3, 3], []]

theorem diamond_acyclic (p : Nat) : ¬ diamondGraph.OnCycle p := by
  have hedge {p q : Nat} (h : diamondGraph.Edge p q) : p < q := by
    match p with
    | 0 | 1 | 2 | 3 => all_goals simp [Graph.Edge, Graph.next, diamondGraph] at h <;> omega
    | p + 4 => simp [Graph.Edge, Graph.next, diamondGraph] at h
  have hlt {p q : Nat} (h : TransGen diamondGraph.Edge p q) : p < q := by
    induction h with
    | single h => exact hedge h
    | tail _ h ih => exact ih.trans (hedge h)
  exact fun h => Nat.lt_irrefl p (hlt h)

theorem encard_paths_diamond : (diamondGraph.paths 0 3).encard = 3 := by
  have next0 : diamondGraph.next 0 = [1, 2] := rfl
  have next1 : diamondGraph.next 1 = [3] := rfl
  have next2 : diamondGraph.next 2 = [3, 3] := rfl
  have next3 : diamondGraph.next 3 = [] := rfl
  simp only [encard_paths diamondGraph _ 3, next0, next1, next2, next3, encard_branches_cons, branches_nil,
    Set.encard_empty]
  rfl

def countVisits (_ : Node) (_ : Outputs) (visits : Nat) : Except Unit Json × Nat := (.ok .null, visits + 1)

/-- The diamond is walked to its end, and the node where its ways meet is visited three times. -/
theorem walk_diamond :
    Graph.compile diamond = .ok (diamondGraph, []) ∧ diamondGraph.trigger = some 0 ∧
    ∃ o visits, runFrom diamondGraph (handled countVisits false) 0 0 = (.ok o, visits) ∧
      (trace diamondGraph (handled countVisits false) (.initial 0 0)).calls.countP (·.position = 3) = 3 := by
  have hc : Graph.compile diamond = .ok (diamondGraph, []) := rfl
  have hs : diamondGraph.trigger = some 0 := by decide
  have hok : ∀ n o visits, ∃ x, (countVisits n o visits).1 = .ok x := fun _ _ _ => ⟨.null, rfl⟩
  obtain ⟨o, visits, h, _, hcount⟩ :=
    (walk_explores_paths hc hs hok 0).2 fun ⟨q, _, hcycle⟩ => diamond_acyclic q hcycle
  have hthree := hcount 3
  rw [encard_paths_diamond] at hthree
  exact ⟨hc, hs, o, visits, h, by exact_mod_cast hthree.symm⟩

end RuleFlow.Walk
