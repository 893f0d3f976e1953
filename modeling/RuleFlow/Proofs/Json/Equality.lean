import RuleFlow.Proofs.Json.Objects
import RuleFlow.Proofs.Number.Equality
/-! # Equality of JSON values

Equality by value is an equivalence, since no number is NaN.  Equal values have the same type, count alike as true, and
have equal members and items at the same places.  Main statements: `sameValue_refl`, `sameValue_symm`,
`sameValue_trans`, and `same_toFloat?` and `sameValue_get?` for what is read out of equal values. -/
namespace RuleFlow.Json

open Binary64 (Same)

theorem Number.isNaN_toFloat (n : Number) : n.toFloat.isNaN = false := by
  cases n with
  | int n h => exact Binary64.isNaN_ofInt n
  | float x h => exact Binary64.isNaN_of_isFinite h

theorem Number.beq_toFloat {m n : Number} : (m.toFloat == n.toFloat) = true ↔ Same m.toFloat n.toFloat := by
  rw [Binary64.beq_iff, m.isNaN_toFloat]
  exact and_iff_right rfl

/-- A result does not tell the two zeros apart, both of which are the integer zero. -/
theorem Number.ofResult?_congr {x y : Float} (h : Same x y) : ofResult? x = ofResult? y := by
  have hzero : ∀ s, ofResult? (Binary64.zero s) = some (.int 0 (by decide)) := by
    intro s
    cases s <;> decide +kernel
  rcases Binary64.same_iff.1 h with rfl | ⟨⟨s, rfl⟩, t, rfl⟩
  · rfl
  · rw [hzero, hzero]

mutual

@[simp]
theorem sameValue_refl : (a : Json) → sameValue a a = true
  | .null => rfl
  | .bool _ => beq_self_eq_true _
  | .number _ => Number.beq_toFloat.2 (Same.refl _)
  | .string _ => beq_self_eq_true _
  | .array items => by rw [sameValue, sameItems_refl items]
  | .object members => by rw [sameValue, sameMembers_refl members]

theorem sameItems_refl : (as : List Json) → sameItems as as = true
  | [] => rfl
  | a :: as => by rw [sameItems, sameValue_refl a, sameItems_refl as]; rfl

theorem sameMembers_refl : (as : List (String × Json)) → sameMembers as as = true
  | [] => rfl
  | (k, a) :: as => by rw [sameMembers, sameValue_refl a, sameMembers_refl as, beq_self_eq_true]; rfl

end

section Inversion

variable {b : Json}

theorem sameValue_null : sameValue .null b = true ↔ b = .null := by
  cases b <;> simp [sameValue]

theorem sameValue_bool {x : Bool} : sameValue (.bool x) b = true ↔ b = .bool x := by
  cases b with
  | bool y => simpa [sameValue] using eq_comm
  | _ => simp [sameValue]

theorem sameValue_number {m : Number} :
    sameValue (.number m) b = true ↔ ∃ n, b = .number n ∧ Same m.toFloat n.toFloat := by
  cases b <;> simp [sameValue, Number.beq_toFloat]

theorem sameValue_string {s : String} : sameValue (.string s) b = true ↔ b = .string s := by
  cases b with
  | string t => simpa [sameValue] using eq_comm
  | _ => simp [sameValue]

theorem sameValue_array {as : List Json} :
    sameValue (.array as) b = true ↔ ∃ bs, b = .array bs ∧ sameItems as bs = true := by
  cases b <;> simp [sameValue]

theorem sameValue_object {as : List (String × Json)} :
    sameValue (.object as) b = true ↔ ∃ bs, b = .object bs ∧ sameMembers as bs = true := by
  cases b <;> simp [sameValue]

theorem sameItems_nil {bs : List Json} : sameItems [] bs = true ↔ bs = [] := by
  cases bs <;> simp [sameItems]

theorem sameItems_cons {a : Json} {as bs : List Json} :
    sameItems (a :: as) bs = true ↔ ∃ b bs', bs = b :: bs' ∧ sameValue a b = true ∧ sameItems as bs' = true := by
  cases bs <;> simp [sameItems]

theorem sameMembers_nil {bs : List (String × Json)} : sameMembers [] bs = true ↔ bs = [] := by
  cases bs <;> simp [sameMembers]

theorem sameMembers_cons {k : String} {a : Json} {as bs : List (String × Json)} :
    sameMembers ((k, a) :: as) bs = true ↔
      ∃ b bs', bs = (k, b) :: bs' ∧ sameValue a b = true ∧ sameMembers as bs' = true := by
  cases bs with
  | nil => simp [sameMembers]
  | cons m bs =>
    obtain ⟨l, b⟩ := m
    simp [sameMembers, @eq_comm _ l k, and_assoc]

end Inversion

mutual

theorem sameValue_symm {a b : Json} (h : sameValue a b = true) : sameValue b a = true := by
  cases a with
  | null => rw [sameValue_null.1 h, sameValue_refl]
  | bool x => rw [sameValue_bool.1 h, sameValue_refl]
  | number m =>
    obtain ⟨n, rfl, hmn⟩ := sameValue_number.1 h
    exact sameValue_number.2 ⟨m, rfl, hmn.symm⟩
  | string s => rw [sameValue_string.1 h, sameValue_refl]
  | array as =>
    obtain ⟨bs, rfl, hitems⟩ := sameValue_array.1 h
    exact sameValue_array.2 ⟨as, rfl, sameItems_symm hitems⟩
  | object as =>
    obtain ⟨bs, rfl, hmembers⟩ := sameValue_object.1 h
    exact sameValue_object.2 ⟨as, rfl, sameMembers_symm hmembers⟩

theorem sameItems_symm {as bs : List Json} (h : sameItems as bs = true) : sameItems bs as = true := by
  cases as with
  | nil => rw [sameItems_nil.1 h, sameItems]
  | cons a as =>
    obtain ⟨b, bs, rfl, ha, has⟩ := sameItems_cons.1 h
    exact sameItems_cons.2 ⟨a, as, rfl, sameValue_symm ha, sameItems_symm has⟩

theorem sameMembers_symm {as bs : List (String × Json)} (h : sameMembers as bs = true) :
    sameMembers bs as = true := by
  cases as with
  | nil => rw [sameMembers_nil.1 h, sameMembers]
  | cons m as =>
    obtain ⟨k, a⟩ := m
    obtain ⟨b, bs, rfl, ha, has⟩ := sameMembers_cons.1 h
    exact sameMembers_cons.2 ⟨a, as, rfl, sameValue_symm ha, sameMembers_symm has⟩

end

mutual

theorem sameValue_trans {a b c : Json} (h : sameValue a b = true) (h' : sameValue b c = true) :
    sameValue a c = true := by
  cases a with
  | null => rwa [← sameValue_null.1 h]
  | bool x => rwa [← sameValue_bool.1 h]
  | number m =>
    obtain ⟨n, rfl, hmn⟩ := sameValue_number.1 h
    obtain ⟨k, rfl, hnk⟩ := sameValue_number.1 h'
    exact sameValue_number.2 ⟨k, rfl, hmn.trans hnk⟩
  | string s => rwa [← sameValue_string.1 h]
  | array as =>
    obtain ⟨bs, rfl, hab⟩ := sameValue_array.1 h
    obtain ⟨cs, rfl, hbc⟩ := sameValue_array.1 h'
    exact sameValue_array.2 ⟨cs, rfl, sameItems_trans hab hbc⟩
  | object as =>
    obtain ⟨bs, rfl, hab⟩ := sameValue_object.1 h
    obtain ⟨cs, rfl, hbc⟩ := sameValue_object.1 h'
    exact sameValue_object.2 ⟨cs, rfl, sameMembers_trans hab hbc⟩

theorem sameItems_trans {as bs cs : List Json} (h : sameItems as bs = true) (h' : sameItems bs cs = true) :
    sameItems as cs = true := by
  cases as with
  | nil => rwa [← sameItems_nil.1 h]
  | cons a as =>
    obtain ⟨b, bs, rfl, ha, has⟩ := sameItems_cons.1 h
    obtain ⟨c, cs, rfl, hb, hbs⟩ := sameItems_cons.1 h'
    exact sameItems_cons.2 ⟨c, cs, rfl, sameValue_trans ha hb, sameItems_trans has hbs⟩

theorem sameMembers_trans {as bs cs : List (String × Json)} (h : sameMembers as bs = true)
    (h' : sameMembers bs cs = true) : sameMembers as cs = true := by
  cases as with
  | nil => rwa [← sameMembers_nil.1 h]
  | cons m as =>
    obtain ⟨k, a⟩ := m
    obtain ⟨b, bs, rfl, ha, has⟩ := sameMembers_cons.1 h
    obtain ⟨c, cs, rfl, hb, hbs⟩ := sameMembers_cons.1 h'
    exact sameMembers_cons.2 ⟨c, cs, rfl, sameValue_trans ha hb, sameMembers_trans has hbs⟩

end

theorem sameValue_congr {a a' b b' : Json} (ha : sameValue a a' = true) (hb : sameValue b b' = true) :
    sameValue a b = sameValue a' b' := by
  apply Bool.eq_iff_iff.2
  constructor
  · intro h
    exact sameValue_trans (sameValue_symm ha) (sameValue_trans h hb)
  · intro h
    exact sameValue_trans ha (sameValue_trans h (sameValue_symm hb))

section Reading

variable {a b : Json}

theorem typeName_eq_of_sameValue (h : sameValue a b = true) : a.typeName = b.typeName := by
  cases a with
  | null => rw [sameValue_null.1 h]
  | bool x => rw [sameValue_bool.1 h]
  | number m =>
    obtain ⟨n, rfl, -⟩ := sameValue_number.1 h
    rfl
  | string s => rw [sameValue_string.1 h]
  | array as =>
    obtain ⟨bs, rfl, -⟩ := sameValue_array.1 h
    rfl
  | object as =>
    obtain ⟨bs, rfl, -⟩ := sameValue_object.1 h
    rfl

theorem truthy_eq_of_sameValue (h : sameValue a b = true) : a.truthy = b.truthy := by
  cases a with
  | null => rw [sameValue_null.1 h]
  | bool x => rw [sameValue_bool.1 h]
  | number m =>
    obtain ⟨n, rfl, hmn⟩ := sameValue_number.1 h
    exact congrArg (!·) (hmn.beq (Same.refl 0.0))
  | string s => rw [sameValue_string.1 h]
  | array as =>
    obtain ⟨bs, rfl, -⟩ := sameValue_array.1 h
    rfl
  | object as =>
    obtain ⟨bs, rfl, -⟩ := sameValue_object.1 h
    rfl

theorem same_toFloat? (h : sameValue a b = true) : Option.Rel Same a.toFloat? b.toFloat? := by
  cases a with
  | null => rw [sameValue_null.1 h]; exact .none
  | bool x => rw [sameValue_bool.1 h]; exact .none
  | number m =>
    obtain ⟨n, rfl, hmn⟩ := sameValue_number.1 h
    exact .some hmn
  | string s => rw [sameValue_string.1 h]; exact .none
  | array as =>
    obtain ⟨bs, rfl, -⟩ := sameValue_array.1 h
    exact .none
  | object as =>
    obtain ⟨bs, rfl, -⟩ := sameValue_object.1 h
    exact .none

theorem length_eq_of_sameItems {as bs : List Json} (h : sameItems as bs = true) : as.length = bs.length := by
  induction as generalizing bs with
  | nil => rw [sameItems_nil.1 h]
  | cons a as ih =>
    obtain ⟨b, bs, rfl, -, h⟩ := sameItems_cons.1 h
    rw [List.length_cons, List.length_cons, ih h]

/-- The items at one place are equal, an absent one being `null`. -/
theorem sameValue_item {as bs : List Json} (h : sameItems as bs = true) (n : Nat) :
    sameValue ((as[n]?).getD .null) ((bs[n]?).getD .null) = true := by
  induction as generalizing bs n with
  | nil => rw [sameItems_nil.1 h, sameValue_refl]
  | cons a as ih =>
    obtain ⟨b, bs, rfl, ha, has⟩ := sameItems_cons.1 h
    cases n with
    | zero => exact ha
    | succ n => exact ih has n

theorem sameValue_get? {as bs : Object} (h : sameMembers as bs = true) (key : String) :
    sameValue ((Object.get? as key).getD .null) ((Object.get? bs key).getD .null) = true := by
  induction as generalizing bs with
  | nil => rw [sameMembers_nil.1 h, sameValue_refl]
  | cons m as ih =>
    obtain ⟨k, a⟩ := m
    obtain ⟨b, bs, rfl, ha, has⟩ := sameMembers_cons.1 h
    rw [Object.get?_cons, Object.get?_cons]
    split
    · exact ha
    · exact ih has

end Reading

end RuleFlow.Json
