import RuleFlow.Proofs.Json.Objects
import RuleFlow.Proofs.Storage.Keyed
import RuleFlow.Proofs.Walk.Trace
/-! # The order of the outputs

Outputs that are stored one after the other stand in the order in which their nodes first came, each with the value
that came last.  Main statements: `keys_store` and `get?_store`. -/
namespace RuleFlow

namespace Outputs

def keys (o : Outputs) : List String := o.map (·.1)

theorem keys_record (node : String) (x : Json) (o : Outputs) :
    (o.record node x).keys = if node ∈ o.keys then o.keys else o.keys ++ [node] := by
  induction o with
  | nil => simp [record, keys]
  | cons m rest ih =>
    obtain ⟨n, y⟩ := m
    simp only [keys] at ih
    by_cases h : n = node
    · simp [record, keys, h]
    · by_cases hm : node ∈ rest.map (·.1)
      · simp only [hm, if_true] at ih
        simp [record, keys, h, Ne.symm h, hm, ih]
      · simp only [hm, if_false] at ih
        simp [record, keys, h, Ne.symm h, hm, ih]

theorem get?_cons (node key : String) (x : Json) (o : Outputs) :
    get? ((node, x) :: o) key = if node = key then some x else o.get? key :=
  Json.Object.get?_cons node key x o

theorem get?_record (node key : String) (x : Json) (o : Outputs) :
    (o.record node x).get? key = if node = key then some x else o.get? key := by
  induction o with
  | nil => rw [record, get?_cons]
  | cons m rest ih =>
    obtain ⟨n, y⟩ := m
    unfold record
    split
    · rename_i hn
      rw [get?_cons, get?_cons, hn]
      split <;> rfl
    · rename_i hn
      rw [get?_cons, get?_cons, ih]
      by_cases h : n = key
      · rw [if_pos h, if_neg (h ▸ Ne.symm hn), if_pos h]
      · rw [if_neg h, if_neg h]

end Outputs

namespace Walk

variable {τ ε : Type}

/-- The outputs stand in the order of the first calls of their nodes. -/
theorem keys_store {cs : List (Call τ ε)} (h : ∀ c ∈ cs, ∃ x, c.answer = .ok x) :
    (cs.foldl Call.store []).keys = (cs.map (·.node.id)).eraseDups := by
  induction cs using List.reverseRecOn with
  | nil => rfl
  | append_singleton cs c ih =>
    have ih := ih fun d hd => h d (List.mem_append_left _ hd)
    obtain ⟨x, hx⟩ := h c (by simp)
    simp only [List.foldl_append, List.foldl_cons, List.foldl_nil, Call.store, hx, Outputs.keys_record, ih,
      List.mem_eraseDups, List.map_append, List.map_cons, List.map_nil, eraseDups_concat]

/-- Each output is the answer of the last call of its node. -/
theorem get?_store {cs : List (Call τ ε)} (h : ∀ c ∈ cs, ∃ x, c.answer = .ok x) (id : String) :
    (cs.foldl Call.store []).get? id =
      (cs.filter fun c => c.node.id = id).getLast?.bind fun c => c.answer.toOption := by
  induction cs using List.reverseRecOn with
  | nil => rfl
  | append_singleton cs c ih =>
    have ih := ih fun d hd => h d (List.mem_append_left _ hd)
    obtain ⟨x, hx⟩ := h c (by simp)
    simp only [List.foldl_append, List.foldl_cons, List.foldl_nil, Call.store, hx, Outputs.get?_record,
      List.filter_append]
    by_cases hid : c.node.id = id
    · simp [hid, hx, Except.toOption]
    · simp [hid, ih]

end Walk

end RuleFlow
