import Mathlib.Data.List.Induction
import Mathlib.Data.List.Nodup
import RuleFlow.Storage.Keyed
/-! # What keyed lists hold

Items that are put into a keyed list one after the other stand there in the order in which their keys first came, each
key with the item that came last.  Main statements: `filterMap_put`, by which other keys are left alone, `map_putAll`
and `putAll_eq`. -/
namespace RuleFlow

section Order

variable {α : Type} [BEq α] [LawfulBEq α]

theorem eraseDups_concat (xs : List α) (x : α) :
    (xs ++ [x]).eraseDups = if x ∈ xs then xs.eraseDups else xs.eraseDups ++ [x] := by
  rw [List.eraseDups_append]
  by_cases h : x ∈ xs <;> simp [List.removeAll, List.eraseDups_cons, h]

theorem nodup_eraseDups (xs : List α) : xs.eraseDups.Nodup := by
  induction xs using List.reverseRecOn with
  | nil => exact List.nodup_nil
  | append_singleton xs x ih =>
    rw [eraseDups_concat]
    split
    · exact ih
    · rename_i h
      have hx : x ∉ xs.eraseDups := mt List.mem_eraseDups.1 h
      rw [← List.concat_eq_append]
      exact (List.nodup_concat _ _).2 ⟨hx, ih⟩

end Order

namespace Keyed

variable {α β κ : Type} [DecidableEq κ] {key : α → κ} {a : α}

theorem put_of_forall_ne {xs : List α} (h : ∀ b ∈ xs, key b ≠ key a) : put key a xs = xs ++ [a] := by
  induction xs with
  | nil => rfl
  | cons b rest ih =>
    obtain ⟨hb, hrest⟩ := List.forall_mem_cons.1 h
    rw [put, if_neg hb, ih hrest]
    rfl

theorem filterMap_put {f : α → Option β} (h : ∀ b, key b = key a → f b = none) (xs : List α) :
    (put key a xs).filterMap f = xs.filterMap f := by
  induction xs with
  | nil => rw [put, List.filterMap_cons_none (h a rfl)]
  | cons b rest ih =>
    rw [put]
    split
    · next hb => rw [List.filterMap_cons_none (h a rfl), List.filterMap_cons_none (h b hb)]
    · rw [List.filterMap_cons, List.filterMap_cons, ih]

theorem filter_put_ne (xs : List α) :
    ((put key a xs).filter fun b => key b ≠ key a) = xs.filter fun b => key b ≠ key a := by
  rw [← List.filterMap_eq_filter]
  exact filterMap_put (fun b hb => by simp [Option.guard, hb]) xs

/-- A new key comes last, and an old one stays where it is. -/
theorem map_put (xs : List α) :
    (put key a xs).map key = if key a ∈ xs.map key then xs.map key else xs.map key ++ [key a] := by
  induction xs with
  | nil => rfl
  | cons b rest ih =>
    rw [put]
    by_cases hb : key b = key a
    · simp [hb]
    · rw [if_neg hb, List.map_cons, ih]
      by_cases hrest : key a ∈ rest.map key
      · simp [hrest]
      · simp [hrest, Ne.symm hb]

def putAll (key : α → κ) (items : List α) : List α := items.foldl (fun xs a => put key a xs) []

def last? (key : α → κ) (items : List α) (k : κ) : Option α := (items.filter fun a => key a = k).getLast?

theorem putAll_concat (items : List α) (a : α) : putAll key (items ++ [a]) = put key a (putAll key items) := by
  simp [putAll]

theorem last?_concat (items : List α) (a : α) (k : κ) :
    last? key (items ++ [a]) k = if key a = k then some a else last? key items k := by
  by_cases h : key a = k <;> simp [last?, List.filter_append, h]

/-- The keys stand in the order in which they first came, each of them once. -/
theorem map_putAll [BEq κ] [LawfulBEq κ] (items : List α) : (putAll key items).map key = (items.map key).eraseDups := by
  induction items using List.reverseRecOn with
  | nil => rfl
  | append_singleton items a ih =>
    rw [putAll_concat, map_put, ih, List.map_append, List.map_singleton, eraseDups_concat]
    simp only [List.mem_eraseDups]

theorem get?_putAll (items : List α) (k : κ) : get? key (putAll key items) k = last? key items k := by
  induction items using List.reverseRecOn with
  | nil => rfl
  | append_singleton items a ih =>
    rw [putAll_concat, last?_concat, ← ih]
    by_cases h : key a = k
    · rw [if_pos h, ← h, get?_put_self]
    · rw [if_neg h, get?_put_of_ne key a _ h]

theorem nodup_putAll (key : α → κ) (items : List α) : ((putAll key items).map key).Nodup := by
  rw [map_putAll]
  exact nodup_eraseDups _

/-- If no two items have one key, the items with a key are the one that is found under it. -/
theorem filter_eq_get? {xs : List α} (h : (xs.map key).Nodup) (k : κ) :
    (xs.filter fun a => key a = k) = (get? key xs k).toList := by
  induction xs with
  | nil => rfl
  | cons b rest ih =>
    rw [List.map_cons, List.nodup_cons] at h
    obtain ⟨hnew, hrest⟩ := h
    have ih := ih hrest
    by_cases hb : key b = k
    · have hnone : (rest.filter fun a => key a = k) = [] := by
        refine List.filter_eq_nil_iff.2 fun c hc => ?_
        rw [decide_eq_true_iff]
        exact fun hk => hnew (hb.trans hk.symm ▸ List.mem_map_of_mem hc)
      simp [get?, hb, hnone]
    · simp only [get?] at ih
      simp [get?, hb, ih]

/-- Each key stands with the item that came last under it. -/
theorem putAll_eq [BEq κ] [LawfulBEq κ] (items : List α) :
    putAll key items = (items.map key).eraseDups.filterMap (last? key items) := by
  have hfound (b : α) (hb : b ∈ putAll key items) : last? key items (key b) = some b := by
    have honly := filter_eq_get? (nodup_putAll key items) (key b)
    have hmem : b ∈ (putAll key items).filter fun a => key a = key b := List.mem_filter.2 ⟨hb, by simp⟩
    rw [honly, get?_putAll] at hmem
    simpa using hmem
  rw [← map_putAll, List.filterMap_map]
  refine Eq.trans ?_ (List.filterMap_congr fun b hb => (hfound b hb).symm)
  exact List.filterMap_some.symm

end Keyed

end RuleFlow
