import Mathlib.Data.List.Forall2
import RuleFlow.Proofs.Walk.Preorder
/-! # Walks that go alike

Two walks, of two graphs with two visitors, go alike if related positions hold the same node, are entered together, and
lead on to related positions.  Then they make the same calls in the same order, and end alike: `Simulation.trace_alike`.
-/
namespace RuleFlow.Walk

variable {τ τ' ε : Type} {P : Nat → Nat → Prop} {W : τ → τ' → Prop}

section Equations

variable {g : Graph} {v : Visitor τ ε} {path : List Nat} {p : Nat} {n : Node} {o : Outputs} {w w₁ : τ}

theorem preorder_of_none (hn : g.node? p = none) : preorder g v path p o w = ⟨[], (.ok o, w)⟩ := by
  rw [preorder]
  split
  · rfl
  · rename_i n hnode
    rw [hn] at hnode
    cases hnode

theorem preorder_of_mem (hn : g.node? p = some n) (hp : p ∈ path) :
    preorder g v path p o w = ⟨[], (.error (.cycle n.id), w)⟩ := by
  rw [preorder]
  split
  · rename_i hnode
    rw [hn] at hnode
    cases hnode
  · rename_i n' hnode
    obtain rfl : n = n' := Option.some.inj (hn.symm.trans hnode)
    rw [dif_pos hp]

theorem preorder_of_error {e : ε} (hn : g.node? p = some n) (hp : p ∉ path) (hv : v.visit n o w = (.error e, w₁)) :
    preorder g v path p o w = ⟨[⟨p, n, o, w, .error e⟩], (.error (.visit e), w₁)⟩ := by
  rw [preorder]
  split
  · rename_i hnode
    rw [hn] at hnode
    cases hnode
  · rename_i n' hnode
    obtain rfl : n = n' := Option.some.inj (hn.symm.trans hnode)
    rw [dif_neg hp, hv]

theorem preorder_of_ok {x : Json} (hn : g.node? p = some n) (hp : p ∉ path) (hv : v.visit n o w = (.ok x, w₁)) :
    preorder g v path p o w =
      (Trace.inOrder (fun q => preorder g v (p :: path) q) (if v.halts n x then [] else g.next p)
        (o.record n.id x) w₁).prepend [⟨p, n, o, w, .ok x⟩] := by
  rw [preorder]
  split
  · rename_i hnode
    rw [hn] at hnode
    cases hnode
  · rename_i n' hnode
    obtain rfl : n = n' := Option.some.inj (hn.symm.trans hnode)
    rw [dif_neg hp, hv]

end Equations

structure Call.Alike (P : Nat → Nat → Prop) (W : τ → τ' → Prop) (c : Call τ ε) (c' : Call τ' ε) : Prop where
  position : P c.position c'.position
  node : c.node = c'.node
  outputs : c.outputs = c'.outputs
  world : W c.world c'.world
  answer : c.answer = c'.answer

/-- Whether two walks make calls that are alike and end alike. -/
structure Trace.Alike (P : Nat → Nat → Prop) (W : τ → τ' → Prop) (t : Trace τ ε) (t' : Trace τ' ε) : Prop where
  calls : List.Forall₂ (Call.Alike P W) t.calls t'.calls
  result : t.result.1 = t'.result.1
  world : W t.result.2 t'.result.2

/-- What makes two walks go alike. -/
structure Simulation (g g' : Graph) (v : Visitor τ ε) (v' : Visitor τ' ε) (P : Nat → Nat → Prop)
    (W : τ → τ' → Prop) : Prop where
  node {p p' : Nat} (h : P p p') : g.node? p = g'.node? p'
  same {p p' q q' : Nat} (hp : P p p') (hq : P q q') : p = q ↔ p' = q'
  visit {p p' : Nat} {n : Node} (hp : P p p') (hn : g.node? p = some n) (o : Outputs) {w : τ} {w' : τ'} (hw : W w w') :
    (v.visit n o w).1 = (v'.visit n o w').1 ∧ W (v.visit n o w).2 (v'.visit n o w').2
  next {p p' : Nat} {n : Node} {o : Outputs} {w w₁ : τ} {x : Json} (hp : P p p') (hn : g.node? p = some n)
    (hx : v.visit n o w = (.ok x, w₁)) :
    List.Forall₂ P (if v.halts n x then [] else g.next p) (if v'.halts n x then [] else g'.next p')

namespace Trace.Alike

variable {t : Trace τ ε} {t' : Trace τ' ε}

theorem prepend {cs : List (Call τ ε)} {cs' : List (Call τ' ε)} (hcs : List.Forall₂ (Call.Alike P W) cs cs')
    (h : t.Alike P W t') : (t.prepend cs).Alike P W (t'.prepend cs') :=
  ⟨List.rel_append hcs h.calls, h.result, h.world⟩

theorem positions_eq (h : t.Alike Eq W t') : t.calls.map (·.position) = t'.calls.map (·.position) := by
  rw [← List.forall₂_eq_eq_eq, List.forall₂_map_left_iff, List.forall₂_map_right_iff]
  exact h.calls.imp fun _ _ hc => hc.position

theorem andThen {next : Outputs → τ → Trace τ ε} {next' : Outputs → τ' → Trace τ' ε} (h : t.Alike P W t')
    (hnext : ∀ o w w', W w w' → (next o w).Alike P W (next' o w')) :
    (t.andThen next).Alike P W (t'.andThen next') := by
  obtain ⟨calls, result, world⟩ := t
  obtain ⟨calls', result', world'⟩ := t'
  obtain ⟨hcalls, rfl, hworld⟩ : List.Forall₂ _ calls calls' ∧ result = result' ∧ W world world' :=
    ⟨h.calls, h.result, h.world⟩
  cases result with
  | error e => exact h
  | ok o => exact (hnext o world world' hworld).prepend hcalls

theorem inOrder {visit : Nat → Outputs → τ → Trace τ ε} {visit' : Nat → Outputs → τ' → Trace τ' ε}
    (hvisit : ∀ p p' o w w', P p p' → W w w' → (visit p o w).Alike P W (visit' p' o w')) {ps ps' : List Nat}
    (hps : List.Forall₂ P ps ps') (o : Outputs) {w : τ} {w' : τ'} (hw : W w w') :
    (Trace.inOrder visit ps o w).Alike P W (Trace.inOrder visit' ps' o w') := by
  induction hps generalizing o w w' with
  | nil => exact ⟨.nil, rfl, hw⟩
  | cons hp _ ih => exact (hvisit _ _ o w w' hp hw).andThen fun o _ _ hw => ih o hw

end Trace.Alike

namespace Simulation

variable {g g' : Graph} {v : Visitor τ ε} {v' : Visitor τ' ε}

theorem mem_iff (h : Simulation g g' v v' P W) {path path' : List Nat} (hpath : List.Forall₂ P path path')
    {p p' : Nat} (hp : P p p') : p ∈ path ↔ p' ∈ path' := by
  induction hpath with
  | nil => simp
  | cons hq _ ih => rw [List.mem_cons, List.mem_cons, ih, h.same hp hq]

theorem preorder_alike (h : Simulation g g' v v' P W) {path path' : List Nat} (hpath : List.Forall₂ P path path')
    {p p' : Nat} (hp : P p p') (o : Outputs) {w : τ} {w' : τ'} (hw : W w w') :
    (preorder g v path p o w).Alike P W (preorder g' v' path' p' o w') := by
  -- The recursion of one walk carries both: what is on the way and what is pending stays related.
  fun_induction preorder g v path p o w generalizing path' p' w' with
  | case1 path p o w hn =>
    rw [preorder_of_none ((h.node hp).symm.trans hn)]
    exact ⟨.nil, rfl, hw⟩
  | case2 path p o w n hn hmem =>
    rw [preorder_of_mem ((h.node hp).symm.trans hn) ((h.mem_iff hpath hp).1 hmem)]
    exact ⟨.nil, rfl, hw⟩
  | case3 path p o w n hn hmem e w₁ hv =>
    have hmem' : p' ∉ path' := mt (h.mem_iff hpath hp).2 hmem
    obtain ⟨hanswer, hworld⟩ := h.visit hp hn o hw
    rcases hv' : v'.visit n o w' with ⟨answer, w₁'⟩
    rw [hv, hv'] at hanswer hworld
    obtain rfl : .error e = answer := hanswer
    rw [preorder_of_error ((h.node hp).symm.trans hn) hmem' hv']
    exact ⟨.cons ⟨hp, rfl, rfl, hw, rfl⟩ .nil, rfl, hworld⟩
  | case4 path p o w n hn hmem x w₁ hv ih =>
    have hmem' : p' ∉ path' := mt (h.mem_iff hpath hp).2 hmem
    obtain ⟨hanswer, hworld⟩ := h.visit hp hn o hw
    rcases hv' : v'.visit n o w' with ⟨answer, w₁'⟩
    rw [hv, hv'] at hanswer hworld
    obtain rfl : .ok x = answer := hanswer
    rw [preorder_of_ok ((h.node hp).symm.trans hn) hmem' hv']
    have hnext := h.next hp hn hv
    have hbelow : (Trace.inOrder (fun q => preorder g v (p :: path) q) (if v.halts n x then [] else g.next p)
        (o.record n.id x) w₁).Alike P W
        (Trace.inOrder (fun q => preorder g' v' (p' :: path') q) (if v'.halts n x then [] else g'.next p')
          (o.record n.id x) w₁') :=
      Trace.Alike.inOrder (fun q q' o w w' hq hw => ih q o w (.cons hp hpath) hq hw) hnext _ hworld
    exact hbelow.prepend (.cons ⟨hp, rfl, rfl, hw, rfl⟩ .nil)

theorem trace_alike (h : Simulation g g' v v' P W) {start start' : Nat} (hstart : P start start') {w : τ} {w' : τ'}
    (hw : W w w') : (trace g v (.initial start w)).Alike P W (trace g' v' (.initial start' w')) := by
  rw [trace_initial, trace_initial]
  exact h.preorder_alike .nil hstart [] hw

end Simulation

end RuleFlow.Walk
