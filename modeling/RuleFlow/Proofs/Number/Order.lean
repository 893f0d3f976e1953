import RuleFlow.Proofs.Number.Equality
/-! # The order of floats

A finite float is a whole multiple of the least positive one, and finite floats are compared as those multiples are: a
mantissa outweighs all with a lesser exponent, since it has its leading bit.  Main statements: `lt_iff_units`,
`le_iff_units` and `beq_iff_units`. -/
namespace RuleFlow.Binary64

open Float.Model (UnpackedFloat Format)
open Float.Model.UnpackedFloat

/-- How many times the least positive float a finite float is. -/
def unitsOf : UnpackedFloat → Int
  | .finite s m e _ => s.apply (m * 2 ^ (e + 1074).toNat : Nat)
  | _ => 0

def units (x : Float) : Int := unitsOf x.toModel.unpack

/-- Whether a mantissa and an exponent are those of a finite float: the exponent is one of the format, and the mantissa
has its leading bit unless the exponent is the least one. -/
structure Canonical (m : Nat) (e : Int) : Prop where
  pos : 0 < m
  high : m < 2 ^ 53
  min : -1074 ≤ e
  max : e ≤ 971
  low : e = -1074 ∨ 2 ^ 52 ≤ m

namespace Canonical

variable {m m' : Nat} {e e' : Int}

theorem units_pos (h : Canonical m e) : 0 < m * 2 ^ (e + 1074).toNat := Nat.mul_pos h.pos (Nat.two_pow_pos _)

/-- A greater exponent outweighs every mantissa. -/
theorem units_lt_of_exponent_lt (h : Canonical m e) (h' : Canonical m' e') (hlt : e < e') :
    m * 2 ^ (e + 1074).toNat < m' * 2 ^ (e' + 1074).toNat := by
  have hmin := h.min
  have hleading : 2 ^ 52 ≤ m' := h'.low.resolve_left (by omega)
  calc m * 2 ^ (e + 1074).toNat < 2 ^ 53 * 2 ^ (e + 1074).toNat :=
        Nat.mul_lt_mul_of_pos_right h.high (Nat.two_pow_pos _)
    _ = 2 ^ 52 * 2 ^ ((e + 1074).toNat + 1) := by ring
    _ ≤ 2 ^ 52 * 2 ^ (e' + 1074).toNat := Nat.mul_le_mul_left _ (Nat.pow_le_pow_right (by decide) (by omega))
    _ ≤ m' * 2 ^ (e' + 1074).toNat := Nat.mul_le_mul_right _ hleading

theorem compare_eq (h : Canonical m e) (h' : Canonical m' e') :
    (Ord.compare e e').then (Ord.compare m m') =
      Ord.compare ((m * 2 ^ (e + 1074).toNat : Nat) : Int) (m' * 2 ^ (e' + 1074).toNat : Nat) := by
  rcases lt_trichotomy e e' with hlt | rfl | hgt
  · rw [Int.compare_eq_lt.2 hlt, Int.compare_eq_lt.2 (by exact_mod_cast h.units_lt_of_exponent_lt h' hlt)]
    rfl
  · have hpos : 0 < 2 ^ (e + 1074).toNat := Nat.two_pow_pos _
    rw [Int.compare_eq_eq.2 rfl, Ordering.eq_then]
    rcases lt_trichotomy m m' with hm | rfl | hm
    · rw [Nat.compare_eq_lt.2 hm, Int.compare_eq_lt.2 (by exact_mod_cast (Nat.mul_lt_mul_right hpos).2 hm)]
    · rw [Nat.compare_eq_eq.2 rfl, Int.compare_eq_eq.2 rfl]
    · rw [Nat.compare_eq_gt.2 hm, Int.compare_eq_gt.2 (by exact_mod_cast (Nat.mul_lt_mul_right hpos).2 hm)]
  · rw [Int.compare_eq_gt.2 hgt, Int.compare_eq_gt.2 (by exact_mod_cast h'.units_lt_of_exponent_lt h hgt)]
    rfl

end Canonical

def bits (x : Float) : BitVec Format.binary64.numBits := x.toBits.toBitVec

/-- The leading bit of a mantissa is not packed. -/
theorem toNat_leading (b : BitVec 52) : (1#1 ++ b).toNat = b.toNat + 2 ^ 52 := by
  rw [BitVec.toNat_append, ← Nat.shiftLeft_add_eq_or_of_lt b.isLt, Nat.shiftLeft_eq, Nat.add_comm]
  rfl

section Bits

variable {x : Float} {s : Sign} {m : Nat} {e : Int} {hm : 0 < m}

/-- A finite float is subnormal, or its mantissa has a leading bit. -/
theorem fields_of_unpack (h : x.toModel.unpack = .finite s m e hm) :
    s = .ofBitVec (unpackSign (bits x)) ∧
      ((unpackExponent (bits x)).toNat = 0 ∧ m = (unpackMantissa (bits x)).toNat ∧ e = -1074 ∨
        (unpackExponent (bits x)).toNat ≠ 0 ∧ (unpackExponent (bits x)).toNat ≤ 2046 ∧
          m = (unpackMantissa (bits x)).toNat + 2 ^ 52 ∧ e = (unpackExponent (bits x)).toNat - 1075) := by
  change UnpackedFloat.unpack Format.binary64 (bits x) = _ at h
  rw [UnpackedFloat.unpack] at h
  dsimp only at h
  split at h
  · split at h <;> cases h
  · rename_i hnone
    split at h
    · rename_i hzero
      split at h
      · cases h
      · cases h
        refine ⟨rfl, .inl ⟨congrArg BitVec.toNat hzero, rfl, ?_⟩⟩
        rw [hzero]
        rfl
    · rename_i hzero
      cases h
      have hlt : (unpackExponent (bits x)).toNat < 2 ^ 11 := (unpackExponent (bits x)).isLt
      have hne : (unpackExponent (bits x)).toNat ≠ 2047 := fun h => hnone (BitVec.eq_of_toNat_eq h)
      have hpos : (unpackExponent (bits x)).toNat ≠ 0 := fun h => hzero (BitVec.eq_of_toNat_eq h)
      exact ⟨rfl, .inr ⟨hpos, by omega, toNat_leading _, rfl⟩⟩

theorem canonical_of_unpack (h : x.toModel.unpack = .finite s m e hm) : Canonical m e := by
  have hmantissa : (unpackMantissa (bits x)).toNat < 2 ^ 52 := (unpackMantissa (bits x)).isLt
  obtain ⟨-, ⟨-, rfl, rfl⟩ | ⟨hpos, hmax, rfl, rfl⟩⟩ := fields_of_unpack h
  · exact ⟨hm, by omega, by decide, by decide, .inl rfl⟩
  · exact ⟨hm, by omega, by omega, by omega, .inr (by omega)⟩

end Bits

/-- Whether what a float is unpacked to is a zero or has a mantissa and an exponent of the format. -/
inductive Unpacked : UnpackedFloat → Prop
  | zero (s : Sign) : Unpacked (.zero s)
  | finite (s : Sign) {m : Nat} {e : Int} (hm : 0 < m) (h : Canonical m e) : Unpacked (.finite s m e hm)

theorem unpacked_of_isFinite {x : Float} (hx : x.isFinite = true) : Unpacked x.toModel.unpack := by
  change x.toModel.unpack.isFinite = true at hx
  cases h : x.toModel.unpack with
  | infinity s =>
    rw [h] at hx
    cases hx
  | notANumber =>
    rw [h] at hx
    cases hx
  | zero s => exact .zero s
  | finite s m e hm => exact .finite s hm (canonical_of_unpack h)

theorem compare_neg_neg (v x : Int) : Ord.compare (-v) (-x) = Ord.compare x v := by
  simp only [Int.compare_eq_ite_lt, neg_lt_neg_iff]

/-- Finite floats are compared as their multiples of the least positive float are. -/
theorem Unpacked.compare_eq {u w : UnpackedFloat} (hu : Unpacked u) (hw : Unpacked w) :
    u.compare w = some (Ord.compare (unitsOf u) (unitsOf w)) := by
  cases hu with
  | zero s =>
    cases hw with
    | zero t => rfl
    | @finite t m e hm h =>
      have hpos := h.units_pos
      cases t with
      | negative => exact congrArg some (Int.compare_eq_gt.2 (by change -((_ : Nat) : Int) < 0; omega)).symm
      | positive => exact congrArg some (Int.compare_eq_lt.2 (by change 0 < ((_ : Nat) : Int); omega)).symm
  | @finite s m e hm h =>
    have hpos := h.units_pos
    cases hw with
    | zero t =>
      cases s with
      | negative => exact congrArg some (Int.compare_eq_lt.2 (by change -((_ : Nat) : Int) < 0; omega)).symm
      | positive => exact congrArg some (Int.compare_eq_gt.2 (by change 0 < ((_ : Nat) : Int); omega)).symm
    | @finite t m' e' hm' h' =>
      have hpos' := h'.units_pos
      cases s <;> cases t
      · change some ((Ord.compare e e').then (Ord.compare m m')).swap =
          some (Ord.compare (-((_ : Nat) : Int)) (-((_ : Nat) : Int)))
        rw [h.compare_eq h', Int.compare_swap, compare_neg_neg]
      · exact congrArg some (Int.compare_eq_lt.2 (by change -((_ : Nat) : Int) < ((_ : Nat) : Int); omega)).symm
      · exact congrArg some (Int.compare_eq_gt.2 (by change -((_ : Nat) : Int) < ((_ : Nat) : Int); omega)).symm
      · exact congrArg some (h.compare_eq h')

section Finite

variable {x y : Float}

theorem compare_units (hx : x.isFinite = true) (hy : y.isFinite = true) :
    x.toModel.unpack.compare y.toModel.unpack = some (Ord.compare (units x) (units y)) :=
  (unpacked_of_isFinite hx).compare_eq (unpacked_of_isFinite hy)

theorem lt_iff_units (hx : x.isFinite = true) (hy : y.isFinite = true) : x < y ↔ units x < units y := by
  rw [lt_iff, UnpackedFloat.lt, compare_units hx hy, beq_iff_eq, Option.some_inj, Int.compare_eq_lt]

theorem le_iff_units (hx : x.isFinite = true) (hy : y.isFinite = true) : x ≤ y ↔ units x ≤ units y := by
  rw [le_iff, UnpackedFloat.le, compare_units hx hy, Option.any_some, Int.isLE_compare]

theorem beq_iff_units (hx : x.isFinite = true) (hy : y.isFinite = true) : (x == y) = true ↔ units x = units y := by
  change UnpackedFloat.beq _ _ = true ↔ _
  rw [UnpackedFloat.beq, compare_units hx hy, beq_iff_eq, Option.some_inj, Int.compare_eq_eq]

end Finite

end RuleFlow.Binary64
