import Mathlib.Data.String.Basic
import RuleFlow.Json.Value
/-! # Writes to objects

What is found in an object after a key has been set, and in which order keys can be set.  Main statements:
`merge_insert`, by which to set a key in a sorted overlay is to set it in what the overlay is merged to, and
`ofList_of_sorted`, by which the members of a sorted object make that object again. -/
namespace RuleFlow.Json.Object

variable {k l : String} {x y : Json}

theorem get?_cons (k l : String) (x : Json) (o : Object) :
    get? ((k, x) :: o) l = if k = l then some x else get? o l := by
  unfold get?
  rw [List.lookup_cons]
  by_cases h : k = l
  · simp [h]
  · simp [h, beq_false_of_ne (Ne.symm h)]

theorem get?_insert (k l : String) (x : Json) (o : Object) :
    get? (insert k x o) l = if k = l then some x else get? o l := by
  induction o with
  | nil => rw [insert, get?_cons]
  | cons m rest ih =>
    obtain ⟨j, y⟩ := m
    unfold insert
    split
    · rw [get?_cons]
    · split
      · rename_i hj
        rw [get?_cons, get?_cons, hj]
        split <;> rfl
      · rename_i hj
        rw [get?_cons, get?_cons, ih]
        by_cases h : j = l
        · rw [if_pos h, if_neg (h ▸ hj), if_pos h]
        · rw [if_neg h, if_neg h]

theorem insert_insert_self (k : String) (x y : Json) (o : Object) :
    insert k y (insert k x o) = insert k y o := by
  induction o with
  | nil => simp [insert]
  | cons m rest ih =>
    obtain ⟨j, z⟩ := m
    by_cases hlt : k < j
    · simp [insert, hlt]
    · by_cases hj : k = j
      · simp [insert, hj]
      · simp [insert, hlt, hj, ih]

theorem insert_comm_of_lt (h : k < l) (x y : Json) (o : Object) :
    insert k x (insert l y o) = insert l y (insert k x o) := by
  have hlk : ¬ l < k := h.asymm
  have hne : l ≠ k := h.ne'
  induction o with
  | nil => simp [insert, h, hlk, hne]
  | cons m rest ih =>
    obtain ⟨j, z⟩ := m
    rcases lt_trichotomy l j with hlj | rfl | hjl
    · have hkj : k < j := h.trans hlj
      simp [insert, h, hlk, hne, hlj, hkj]
    · simp [insert, h, hlk, hne]
    · have hlj : ¬ l < j := hjl.asymm
      have hne' : l ≠ j := hjl.ne'
      rcases lt_trichotomy k j with hkj | rfl | hjk
      · simp [insert, hlj, hne', hkj, hlk, hne]
      · simp [insert, hlk, hne]
      · have hkj : ¬ k < j := hjk.asymm
        simp [insert, hlj, hne', hkj, hjk.ne', ih]

theorem insert_comm (h : k ≠ l) (x y : Json) (o : Object) :
    insert k x (insert l y o) = insert l y (insert k x o) := by
  rcases lt_or_gt_of_ne h with h | h
  · exact insert_comm_of_lt h x y o
  · exact (insert_comm_of_lt h y x o).symm

theorem get?_foldl_insert {ms : List (String × Json)} (hn : (ms.map (·.1)).Nodup) (o : Object)
    (key : String) :
    get? (ms.foldl (fun o m => o.insert m.1 m.2) o) key = (ms.lookup key).or (get? o key) := by
  induction ms generalizing o with
  | nil => rfl
  | cons m rest ih =>
    obtain ⟨k, x⟩ := m
    obtain ⟨hk, hrest⟩ := List.nodup_cons.1 hn
    rw [List.foldl_cons, ih hrest, get?_insert, ← get?, ← get?, get?_cons]
    by_cases h : k = key
    · subst h
      have hnone : get? rest k = none := by
        rw [get?, List.lookup_eq_none_iff]
        intro m hm
        have hne : m.1 ≠ k := fun heq => hk (List.mem_map.2 ⟨m, hm, heq⟩)
        simpa using hne.symm
      rw [if_pos rfl, if_pos rfl, hnone]
      rfl
    · rw [if_neg h, if_neg h]

theorem get?_ofList {ms : List (String × Json)} (hn : (ms.map (·.1)).Nodup) (key : String) :
    get? (ofList ms) key = ms.lookup key := by
  rw [ofList, get?_foldl_insert hn]
  exact Option.or_none

/-- Whether the keys of an object stand in their order, each once. -/
def Sorted (o : Object) : Prop := o.Pairwise fun m n => m.1 < n.1

theorem mem_insert {m : String × Json} {o : Object} (h : m ∈ insert k x o) : m = (k, x) ∨ m ∈ o := by
  induction o with
  | nil => exact .inl (List.mem_singleton.1 h)
  | cons n rest ih =>
    obtain ⟨j, z⟩ := n
    unfold insert at h
    split at h
    · exact List.mem_cons.1 h
    · split at h
      · exact (List.mem_cons.1 h).imp_right (List.mem_cons_of_mem _)
      · rcases List.mem_cons.1 h with rfl | h
        · exact .inr List.mem_cons_self
        · exact (ih h).imp_right (List.mem_cons_of_mem _)

theorem Sorted.insert {o : Object} (h : Sorted o) (k : String) (x : Json) : Sorted (insert k x o) := by
  induction o with
  | nil => exact List.pairwise_singleton _ _
  | cons m rest ih =>
    obtain ⟨j, z⟩ := m
    obtain ⟨hj, hrest⟩ := List.pairwise_cons.1 h
    unfold Object.insert
    split
    · rename_i hkj
      refine List.pairwise_cons.2 ⟨fun n hn => ?_, h⟩
      rcases List.mem_cons.1 hn with rfl | hn
      · exact hkj
      · exact hkj.trans (hj n hn)
    · rename_i hkj
      split
      · rename_i heq
        subst heq
        exact List.pairwise_cons.2 ⟨hj, hrest⟩
      · rename_i hne
        refine List.pairwise_cons.2 ⟨fun n hn => ?_, ih hrest⟩
        rcases mem_insert hn with hn | hn
        · rw [hn]
          exact lt_of_le_of_ne (not_lt.1 hkj) (Ne.symm hne)
        · exact hj n hn

theorem merge_insert_of_notMem {overlay : Object} (h : ∀ m ∈ overlay, m.1 ≠ k) (base : Object) :
    merge (insert k x base) overlay = insert k x (merge base overlay) := by
  unfold merge
  induction overlay generalizing base with
  | nil => rfl
  | cons m rest ih =>
    rw [List.foldl_cons, List.foldl_cons, insert_comm (h m List.mem_cons_self)]
    exact ih (fun n hn => h n (List.mem_cons_of_mem _ hn)) _

/-- To set a key in a sorted overlay is to set it in what the overlay is merged to. -/
theorem merge_insert {overlay : Object} (h : Sorted overlay) (base : Object) (k : String) (x : Json) :
    merge base (insert k x overlay) = insert k x (merge base overlay) := by
  induction overlay generalizing base with
  | nil => rfl
  | cons m rest ih =>
    obtain ⟨j, z⟩ := m
    obtain ⟨hj, hrest⟩ := List.pairwise_cons.1 h
    rw [insert]
    split
    · rename_i hkj
      refine merge_insert_of_notMem (fun n hn => ?_) base
      rcases List.mem_cons.1 hn with rfl | hn
      · exact hkj.ne'
      · exact (hkj.trans (hj n hn)).ne'
    · split
      · rename_i heq
        subst heq
        change merge (insert k x base) rest = insert k x (merge (insert k z base) rest)
        rw [← merge_insert_of_notMem (fun n hn => (hj n hn).ne'), insert_insert_self]
      · exact ih hrest _

theorem mem_foldl_insert {m : String × Json} {ms : List (String × Json)} {o : Object}
    (h : m ∈ ms.foldl (fun o m => o.insert m.1 m.2) o) : m ∈ ms ∨ m ∈ o := by
  induction ms generalizing o with
  | nil => exact .inr h
  | cons n rest ih =>
    rcases ih h with h | h
    · exact .inl (List.mem_cons_of_mem _ h)
    · exact (mem_insert h).imp_left fun (heq : m = n) => heq ▸ List.mem_cons_self

theorem mem_ofList {m : String × Json} {ms : List (String × Json)} (h : m ∈ ofList ms) : m ∈ ms :=
  (mem_foldl_insert h).resolve_right List.not_mem_nil

theorem sorted_ofList (ms : List (String × Json)) : Sorted (ofList ms) := by
  have hfold (o : Object) (ho : Sorted o) : Sorted (ms.foldl (fun o m => o.insert m.1 m.2) o) := by
    induction ms generalizing o with
    | nil => exact ho
    | cons m rest ih => exact ih _ (ho.insert m.1 m.2)
  exact hfold [] List.Pairwise.nil

theorem Sorted.nodup {o : Object} (h : Sorted o) : (o.map (·.1)).Nodup :=
  List.pairwise_map.2 (h.imp fun hlt => hlt.ne)

theorem insert_of_forall_lt {o : Object} (h : ∀ m ∈ o, m.1 < k) (x : Json) : insert k x o = o ++ [(k, x)] := by
  induction o with
  | nil => rfl
  | cons m rest ih =>
    obtain ⟨hm, hrest⟩ := List.forall_mem_cons.1 h
    rw [insert, if_neg hm.asymm, if_neg hm.ne', ih hrest]
    rfl

theorem ofList_of_sorted {o : Object} (h : Sorted o) : ofList o = o := by
  have hfold (front back : Object) (hsorted : Sorted (front ++ back)) :
      back.foldl (fun o m => o.insert m.1 m.2) front = front ++ back := by
    induction back generalizing front with
    | nil => exact (List.append_nil front).symm
    | cons m rest ih =>
      have hlast : ∀ n ∈ front, n.1 < m.1 := fun n hn =>
        (List.pairwise_append.1 hsorted).2.2 n hn m List.mem_cons_self
      have happend : front ++ m :: rest = front ++ [m] ++ rest := List.append_cons front m rest
      rw [List.foldl_cons, insert_of_forall_lt hlast m.2, happend]
      exact ih (front ++ [m]) (happend ▸ hsorted)
  exact hfold [] o h

end RuleFlow.Json.Object
