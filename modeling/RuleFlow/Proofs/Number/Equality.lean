import RuleFlow.Proofs.Number.Unpacked
/-! # Equality of floats

Two floats are equal just if they are the same float and no NaN, or two zeros.  So equality is an equivalence but for
NaN, which no integer is, and what is computed of equal floats is the same float or two zeros.  Main statements:
`beq_iff`, `isNaN_ofInt`, and for each operation that it respects `Same`. -/
namespace RuleFlow.Binary64

open Float.Model (UnpackedFloat Format)
open Float.Model.UnpackedFloat

/-- Whether two floats are the same, or two zeros. -/
def Same (x y : Float) : Prop := SameParts x.toModel.unpack y.toModel.unpack

theorem beq_iff {x y : Float} : (x == y) = true ↔ x.isNaN = false ∧ Same x y := unpacked_beq_iff

@[refl]
theorem Same.refl (x : Float) : Same x x := .inl rfl

@[symm]
theorem Same.symm {x y : Float} (h : Same x y) : Same y x := SameParts.symm h

theorem Same.trans {x y z : Float} (hxy : Same x y) (hyz : Same y z) : Same x z := SameParts.trans hxy hyz

theorem isNaN_of_isFinite {x : Float} (h : x.isFinite = true) : x.isNaN = false := by
  change x.toModel.unpack.isFinite = true at h
  change x.toModel.unpack.isNaN = false
  cases hx : x.toModel.unpack with
  | notANumber => rw [hx] at h; cases h
  | _ => rfl

def zero (s : Sign) : Float := .ofModel (.pack (.zero s))

theorem same_iff {x y : Float} : Same x y ↔ x = y ∨ (∃ s, x = zero s) ∧ ∃ s, y = zero s := by
  have eq_zero : ∀ {x : Float} {s}, x.toModel.unpack = .zero s → x = zero s := by
    intro x s h
    apply eq_of_unpack_eq
    rw [h]
    exact (unpack_pack_zero s).symm
  constructor
  · rintro (h | ⟨⟨s, hs⟩, t, ht⟩)
    · exact .inl (eq_of_unpack_eq h)
    · exact .inr ⟨⟨s, eq_zero hs⟩, t, eq_zero ht⟩
  · rintro (rfl | ⟨⟨s, rfl⟩, t, rfl⟩)
    · rfl
    · exact SameParts.pack (sameParts_zero s t)

theorem zero_beq (s : Sign) : (zero s == 0.0) = true := by
  cases s <;> decide +kernel

theorem Same.eq_of_ne_zero {x y : Float} (h : Same x y) (hx : (x == 0.0) = false) : x = y := by
  rcases same_iff.1 h with h | ⟨⟨s, rfl⟩, -⟩
  · exact h
  · rw [zero_beq] at hx
    cases hx

section Congruence

variable {a a' b b' : Float}

theorem Same.beq (ha : Same a a') (hb : Same b b') : (a == b) = (a' == b') := by
  change UnpackedFloat.beq _ _ = UnpackedFloat.beq _ _
  rw [UnpackedFloat.beq, SameParts.compare ha hb, UnpackedFloat.beq]

theorem lt_iff : a < b ↔ UnpackedFloat.lt a.toModel.unpack b.toModel.unpack = true :=
  decide_eq_true_iff (p := a.toModel < b.toModel)

theorem le_iff : a ≤ b ↔ UnpackedFloat.le a.toModel.unpack b.toModel.unpack = true :=
  decide_eq_true_iff (p := a.toModel ≤ b.toModel)

theorem Same.lt (ha : Same a a') (hb : Same b b') : a < b ↔ a' < b' := by
  rw [lt_iff, lt_iff, UnpackedFloat.lt, UnpackedFloat.lt, SameParts.compare ha hb]

theorem Same.le (ha : Same a a') (hb : Same b b') : a ≤ b ↔ a' ≤ b' := by
  rw [le_iff, le_iff, UnpackedFloat.le, UnpackedFloat.le, SameParts.compare ha hb]

theorem Same.neg (ha : Same a a') : Same (-a) (-a') := SameParts.pack (SameParts.neg ha)

theorem Same.add (ha : Same a a') (hb : Same b b') : Same (a + b) (a' + b') := SameParts.pack (SameParts.add ha hb)

theorem Same.sub (ha : Same a a') (hb : Same b b') : Same (a - b) (a' - b') := SameParts.pack (SameParts.sub ha hb)

theorem Same.mul (ha : Same a a') (hb : Same b b') : Same (a * b) (a' * b') := SameParts.pack (SameParts.mul ha hb)

theorem Same.div (ha : Same a a') (hb : Same b b') (hzero : (b == 0.0) = false) : Same (a / b) (a' / b') := by
  obtain rfl := hb.eq_of_ne_zero hzero
  exact SameParts.pack (SameParts.div ha _)

theorem ofParts_zero (negative : Bool) (exponent : Int) :
    ofParts ⟨negative, 0, exponent⟩ = zero (if negative then .negative else .positive) := by
  have h : ofParts ⟨negative, 0, exponent⟩ = Float.ofBits (UInt64.ofNat (if negative then Nat.pow 2 63 else 0)) := rfl
  rw [h]
  cases negative <;> decide +kernel

theorem mantissa_parts_zero (s : Sign) : (parts (zero s)).mantissa = 0 := by
  cases s <;> decide +kernel

theorem remainder_zero (s : Sign) (y : Float) : ∃ t, remainder (zero s) y = zero t := by
  unfold remainder
  simp only [mantissa_parts_zero, Nat.zero_mul, Nat.zero_mod, ofParts_zero]
  exact ⟨_, rfl⟩

theorem Same.remainder (ha : Same a a') (hb : Same b b') (hzero : (b == 0.0) = false) :
    Same (remainder a b) (remainder a' b') := by
  obtain rfl := hb.eq_of_ne_zero hzero
  rcases same_iff.1 ha with rfl | ⟨⟨s, rfl⟩, t, rfl⟩
  · rfl
  · exact same_iff.2 (.inr ⟨remainder_zero s b, remainder_zero t b⟩)

end Congruence

theorem isNaN_ofNat (n : Nat) : (Float.ofNat n).isNaN = false := by
  unfold Float.ofNat
  change (Float.ofScientific n false 0).isNaN = false
  unfold Float.ofScientific
  split
  · apply isNaN_pack
    obtain ⟨s, m, e, hm, hone⟩ :
        ∃ s m e hm, (Float.ofBits 0x3FF0000000000000).toModel.unpack = .finite s m e hm := ⟨_, _, _, _, rfl⟩
    change (mul _ (UInt64.toFloat n.toUInt64).toModel.unpack (Float.ofBits 0x3FF0000000000000).toModel.unpack).isNaN = _
    rw [hone]
    apply isNaN_mul_finite
    apply isNaN_pack
    exact isNaN_normalize ..
  · apply isNaN_pack
    exact isNaN_ofScientific ..

theorem isNaN_ofInt (n : Int) : (Float.ofInt n).isNaN = false := by
  unfold Float.ofInt
  cases n with
  | ofNat n => exact isNaN_ofNat n
  | negSucc n =>
    apply isNaN_pack
    have h : (Float.ofNat (n + 1)).toModel.unpack.isNaN = false := isNaN_ofNat (n + 1)
    cases hu : (Float.ofNat (n + 1)).toModel.unpack with
    | notANumber => rw [hu] at h; cases h
    | _ => rfl

end RuleFlow.Binary64
