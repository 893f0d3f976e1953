import RuleFlow.Proofs.Json.Equality
import RuleFlow.Proofs.Number.Integers
/-! # Equality as an equivalence

Equality by value is an equivalence that is coarser than equality of form, in which numbers of different kinds differ,
and finer than truth.  Objects are equal if they have equally many members and each member of the one is found in the
other: their keys are then the same, by counting.  Main statement: `sameValue_equivalence`. -/
namespace RuleFlow.Json

open Binary64 (Same)

theorem Number.isFinite_toFloat (n : Number) : n.toFloat.isFinite = true := by
  cases n with
  | int n h => exact Binary64.isFinite_ofInt (by obtain ⟨hlow, hhigh⟩ := h; omega)
  | float x h => exact h

def Number.sameForm : Number → Number → Bool
  | .int m _, .int n _ => m == n
  | .float x _, .float y _ => x == y
  | _, _ => false

mutual

/-- Equality of form: an integer does not equal a float. -/
def sameForm : Json → Json → Bool
  | .null, .null => true
  | .bool a, .bool b => a == b
  | .number a, .number b => a.sameForm b
  | .string a, .string b => a == b
  | .array as, .array bs => sameFormItems as bs
  | .object as, .object bs => sameFormMembers as bs
  | _, _ => false

def sameFormItems : List Json → List Json → Bool
  | [], [] => true
  | a :: as, b :: bs => sameForm a b && sameFormItems as bs
  | _, _ => false

def sameFormMembers : List (String × Json) → List (String × Json) → Bool
  | [], [] => true
  | (k, a) :: as, (l, b) :: bs => k == l && sameForm a b && sameFormMembers as bs
  | _, _ => false

end

@[simp]
theorem Number.sameForm_refl (n : Number) : n.sameForm n = true := by
  cases n with
  | int n h => exact beq_self_eq_true n
  | float x h =>
    change (x == x) = true
    exact Binary64.beq_iff.2 ⟨Binary64.isNaN_of_isFinite h, Same.refl x⟩

mutual

theorem sameForm_refl : (a : Json) → sameForm a a = true
  | .null => rfl
  | .bool _ => beq_self_eq_true _
  | .number n => n.sameForm_refl
  | .string _ => beq_self_eq_true _
  | .array items => sameFormItems_refl items
  | .object members => sameFormMembers_refl members

theorem sameFormItems_refl : (as : List Json) → sameFormItems as as = true
  | [] => rfl
  | a :: as => by rw [sameFormItems, sameForm_refl a, sameFormItems_refl as]; rfl

theorem sameFormMembers_refl : (as : List (String × Json)) → sameFormMembers as as = true
  | [] => rfl
  | (k, a) :: as => by rw [sameFormMembers, sameForm_refl a, sameFormMembers_refl as, beq_self_eq_true]; rfl

end

theorem Number.beq_of_sameForm {m n : Number} (h : m.sameForm n = true) : (m.toFloat == n.toFloat) = true := by
  cases m with
  | int m hm =>
    cases n with
    | int n hn =>
      obtain rfl : m = n := beq_iff_eq.1 h
      exact Number.beq_toFloat.2 (Same.refl _)
    | float y hy => cases h
  | float x hx =>
    cases n with
    | int n hn => cases h
    | float y hy => exact h

mutual

theorem sameValue_of_sameForm {a b : Json} (h : sameForm a b = true) : sameValue a b = true := by
  cases a with
  | null => cases b with
    | null => rfl
    | _ => cases h
  | bool x => cases b with
    | bool y => exact h
    | _ => cases h
  | number m => cases b with
    | number n => exact Number.beq_of_sameForm h
    | _ => cases h
  | string s => cases b with
    | string t => exact h
    | _ => cases h
  | array as => cases b with
    | array bs => exact sameItems_of_sameForm h
    | _ => cases h
  | object as => cases b with
    | object bs => exact sameMembers_of_sameForm h
    | _ => cases h

theorem sameItems_of_sameForm {as bs : List Json} (h : sameFormItems as bs = true) : sameItems as bs = true := by
  cases as with
  | nil => cases bs with
    | nil => rfl
    | cons b bs => cases h
  | cons a as => cases bs with
    | nil => cases h
    | cons b bs =>
      obtain ⟨ha, has⟩ := Bool.and_eq_true_iff.1 h
      exact sameItems_cons.2 ⟨b, bs, rfl, sameValue_of_sameForm ha, sameItems_of_sameForm has⟩

theorem sameMembers_of_sameForm {as bs : List (String × Json)} (h : sameFormMembers as bs = true) :
    sameMembers as bs = true := by
  cases as with
  | nil => cases bs with
    | nil => rfl
    | cons b bs => cases h
  | cons m as => cases bs with
    | nil => cases h
    | cons n bs =>
      obtain ⟨hm, has⟩ := Bool.and_eq_true_iff.1 h
      obtain ⟨hkey, ha⟩ := Bool.and_eq_true_iff.1 hm
      obtain ⟨k, a⟩ := m
      obtain ⟨l, b⟩ := n
      obtain rfl : k = l := beq_iff_eq.1 hkey
      exact sameMembers_cons.2 ⟨b, bs, rfl, sameValue_of_sameForm ha, sameMembers_of_sameForm has⟩

end

/-- Whether each member of an object is found in another one. -/
def Within (as bs : Object) : Prop := ∀ m ∈ as, ∃ y, Object.get? bs m.1 = some y ∧ sameValue m.2 y = true

theorem Object.mem_of_get? {o : Object} {k : String} {x : Json} (h : get? o k = some x) : (k, x) ∈ o := by
  obtain ⟨before, after, hsplit, -⟩ := List.lookup_eq_some_iff.1 h
  rw [hsplit]
  exact List.mem_append_right _ List.mem_cons_self

/-- What is found has the keys of what it is found in, if there are equally many members. -/
theorem keys_eq_of_within {as bs : Object} (ha : as.Sorted) (hb : bs.Sorted) (hlength : as.length = bs.length)
    (h : Within as bs) : as.map (·.1) = bs.map (·.1) := by
  have hsubset : as.map (·.1) ⊆ bs.map (·.1) := by
    intro k hk
    obtain ⟨m, hm, rfl⟩ := List.mem_map.1 hk
    obtain ⟨y, hy, -⟩ := h m hm
    exact List.mem_map.2 ⟨_, Object.mem_of_get? hy, rfl⟩
  have hperm : (as.map (·.1)).Perm (bs.map (·.1)) :=
    (List.subperm_of_subset ha.nodup hsubset).perm_of_length_le (by simp [hlength])
  exact hperm.eq_of_pairwise (fun k l _ _ hkl hlk => absurd hlk hkl.asymm) (List.pairwise_map.2 ha)
    (List.pairwise_map.2 hb)

theorem sameMembers_of_within {as bs : Object} (ha : as.Sorted) (hkeys : as.map (·.1) = bs.map (·.1))
    (h : Within as bs) : sameMembers as bs = true := by
  induction as generalizing bs with
  | nil => rw [sameMembers_nil, ← List.map_eq_nil_iff, ← hkeys, List.map_nil]
  | cons m as ih =>
    obtain ⟨k, a⟩ := m
    obtain ⟨n, bs, rfl⟩ : ∃ n bs', bs = n :: bs' := List.exists_cons_of_ne_nil (by rintro rfl; cases hkeys)
    obtain ⟨l, b⟩ := n
    obtain ⟨hkl, hrest⟩ := List.cons_eq_cons.1 hkeys
    obtain rfl : k = l := hkl
    obtain ⟨hk, has⟩ := List.pairwise_cons.1 ha
    obtain ⟨y, hy, hay⟩ := h (k, a) List.mem_cons_self
    rw [Object.get?_cons, if_pos rfl, Option.some_inj] at hy
    refine sameMembers_cons.2 ⟨b, bs, rfl, hy ▸ hay, ih has hrest fun m hm => ?_⟩
    obtain ⟨y, hy, hsame⟩ := h m (List.mem_cons_of_mem _ hm)
    rw [Object.get?_cons, if_neg (hk m hm).ne] at hy
    exact ⟨y, hy, hsame⟩

theorem within_of_sameMembers {as bs : Object} (ha : as.Sorted) (h : sameMembers as bs = true) :
    as.length = bs.length ∧ Within as bs := by
  induction as generalizing bs with
  | nil =>
    rw [sameMembers_nil.1 h]
    exact ⟨rfl, fun m hm => nomatch hm⟩
  | cons m as ih =>
    obtain ⟨k, a⟩ := m
    obtain ⟨b, bs, rfl, hab, hrest⟩ := sameMembers_cons.1 h
    obtain ⟨hk, has⟩ := List.pairwise_cons.1 ha
    obtain ⟨hlength, hwithin⟩ := ih has hrest
    refine ⟨by rw [List.length_cons, List.length_cons, hlength], fun m hm => ?_⟩
    rcases List.mem_cons.1 hm with rfl | hm
    · exact ⟨b, by rw [Object.get?_cons, if_pos rfl], hab⟩
    · obtain ⟨y, hy, hsame⟩ := hwithin m hm
      exact ⟨y, by rw [Object.get?_cons, if_neg (hk m hm).ne, hy], hsame⟩

/-- Objects are equal if they have equally many members and each of the one is found in the other. -/
theorem sameValue_object_iff {as bs : Object} (ha : as.Sorted) (hb : bs.Sorted) :
    sameValue (.object as) (.object bs) = true ↔ as.length = bs.length ∧ Within as bs := by
  rw [sameValue]
  constructor
  · exact within_of_sameMembers ha
  · rintro ⟨hlength, hwithin⟩
    exact sameMembers_of_within ha (keys_eq_of_within ha hb hlength hwithin) hwithin

/-- Equality by value is an equivalence, in which objects are looked through in one direction only; what has the same
form is equal, and what is equal counts alike as true.  Numbers are finite. -/
theorem sameValue_equivalence :
    Equivalence (fun a b => sameValue a b = true) ∧
    (∀ as bs : Object, as.Sorted → bs.Sorted →
      (sameValue (.object as) (.object bs) = true ↔ as.length = bs.length ∧ Within as bs)) ∧
    (∀ a b, a = b → sameForm a b = true) ∧
    (∀ a b, sameForm a b = true → sameValue a b = true) ∧
    (∀ a b, sameValue a b = true → a.truthy = b.truthy) ∧
    ∀ n : Number, n.toFloat.isFinite = true := by
  refine ⟨⟨sameValue_refl, sameValue_symm, sameValue_trans⟩, fun _ _ => sameValue_object_iff, ?_,
    fun _ _ => sameValue_of_sameForm, fun _ _ => truthy_eq_of_sameValue, Number.isFinite_toFloat⟩
  rintro a _ rfl
  exact sameForm_refl a

/-- Integers and floats are mixed at any depth, which makes a difference of form only. -/
theorem mixed_numbers_same :
    let half : Json := .number (.float 0.5 (by decide +kernel))
    let a : Json := .object [("load", .array [.number (.int 480 (by decide)), half]),
      ("offset", .object [("x", .number (.float 12.0 (by decide +kernel)))])]
    let b : Json := .object [("load", .array [.number (.float 480.0 (by decide +kernel)), half]),
      ("offset", .object [("x", .number (.int 12 (by decide)))])]
    sameForm a b = false ∧ sameValue a b = true ∧ sameValue b a = true ∧ a.truthy = b.truthy := by
  intro half a b
  have h : sameValue a b = true := by decide +kernel
  obtain ⟨hequivalence, -, -, -, htruthy, -⟩ := sameValue_equivalence
  exact ⟨by decide +kernel, h, hequivalence.symm h, htruthy a b h⟩

end RuleFlow.Json
