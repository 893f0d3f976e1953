import Mathlib
import RuleFlow.Json.Number
/-! # Unpacked floats

A float is unpacked to its sign, mantissa and exponent, on which the operations work, and a result is packed again.
What is unpacked tells the float, and of two zeros the operations make the same, or two zeros again.  Main statements:
`eq_of_unpack_eq`, `unpacked_beq_iff`, `isNaN_pack`, and for each operation that it respects `SameParts`. -/
namespace RuleFlow.Binary64

open Float.Model (UnpackedFloat Format)
open Float.Model.UnpackedFloat

theorem eq_of_unpack_eq {x y : Float} (h : x.toModel.unpack = y.toModel.unpack) : x = y := by
  have hbits : x.toBits.toBitVec = y.toBits.toBitVec := (unpack_inj_of_valid x.toModel.valid y.toModel.valid).1 h
  exact Float.toBits_inj.1 (UInt64.toBitVec_inj.1 hbits)

def SameParts (u v : UnpackedFloat) : Prop := u = v ∨ (∃ s, u = .zero s) ∧ ∃ s, v = .zero s

theorem sameParts_zero (s t : Sign) : SameParts (.zero s) (.zero t) := .inr ⟨⟨s, rfl⟩, t, rfl⟩

theorem SameParts.symm {u v : UnpackedFloat} (h : SameParts u v) : SameParts v u := by
  rcases h with h | ⟨hu, hv⟩
  · exact .inl h.symm
  · exact .inr ⟨hv, hu⟩

theorem SameParts.trans {u v w : UnpackedFloat} (huv : SameParts u v) (hvw : SameParts v w) : SameParts u w := by
  rcases huv with rfl | ⟨hu, hv⟩
  · exact hvw
  · rcases hvw with rfl | ⟨-, hw⟩
    · exact .inr ⟨hu, hv⟩
    · exact .inr ⟨hu, hw⟩

theorem unpacked_beq_iff {u v : UnpackedFloat} : u.beq v = true ↔ u.isNaN = false ∧ SameParts u v := by
  rw [beq_iff_ne_notANumber_and_eq, ← Bool.not_eq_true, isNaN_iff]
  constructor
  · rintro ⟨hu, -, rfl | ⟨rfl, rfl⟩ | ⟨rfl, rfl⟩⟩
    · exact ⟨hu, .inl rfl⟩
    · exact ⟨hu, sameParts_zero _ _⟩
    · exact ⟨hu, sameParts_zero _ _⟩
  · rintro ⟨hu, rfl | ⟨⟨s, rfl⟩, t, rfl⟩⟩
    · exact ⟨hu, hu, .inl rfl⟩
    · cases s <;> cases t <;> simp

section Operations

variable {f : Format} {u u' v v' : UnpackedFloat}

theorem compare_zero_left (s t : Sign) (v : UnpackedFloat) :
    UnpackedFloat.compare (.zero s) v = UnpackedFloat.compare (.zero t) v := by
  cases v with
  | infinity r => cases r <;> rfl
  | finite r m e h => cases r <;> rfl
  | _ => rfl

theorem compare_zero_right (u : UnpackedFloat) (s t : Sign) : u.compare (.zero s) = u.compare (.zero t) := by
  cases u with
  | infinity r => cases r <;> rfl
  | finite r m e h => cases r <;> rfl
  | _ => rfl

theorem SameParts.compare (hu : SameParts u u') (hv : SameParts v v') : u.compare v = u'.compare v' := by
  rcases hu with rfl | ⟨⟨s, rfl⟩, t, rfl⟩ <;> rcases hv with rfl | ⟨⟨s', rfl⟩, t', rfl⟩
  · rfl
  · exact compare_zero_right u s' t'
  · exact compare_zero_left s t v
  · rfl

theorem SameParts.neg (hu : SameParts u u') : SameParts u.neg u'.neg := by
  rcases hu with rfl | ⟨⟨s, rfl⟩, t, rfl⟩
  · exact .inl rfl
  · exact sameParts_zero (-s) (-t)

theorem add_zeros (f : Format) (s t : Sign) : SameParts (add f (.zero s) (.zero t)) (.zero s) := by
  unfold add
  dsimp only
  split <;> exact sameParts_zero _ _

theorem add_zero_left (s : Sign) (v : UnpackedFloat) : SameParts (add f (.zero s) v) v := by
  cases v with
  | zero t => exact (add_zeros f s t).trans (sameParts_zero s t)
  | _ => exact .inl rfl

theorem add_zero_right (u : UnpackedFloat) (s : Sign) : SameParts (add f u (.zero s)) u := by
  cases u with
  | zero t => exact add_zeros f t s
  | _ => exact .inl rfl

theorem SameParts.add (hu : SameParts u u') (hv : SameParts v v') : SameParts (add f u v) (add f u' v') := by
  rcases hu with rfl | ⟨⟨s, rfl⟩, t, rfl⟩
  · rcases hv with rfl | ⟨⟨s, rfl⟩, t, rfl⟩
    · exact .inl rfl
    · exact (add_zero_right u s).trans (add_zero_right u t).symm
  · exact (add_zero_left s v).trans (hv.trans (add_zero_left t v').symm)

theorem sub_zeros (f : Format) (s t : Sign) : SameParts (sub f (.zero s) (.zero t)) (.zero s) := by
  unfold sub
  dsimp only
  split <;> exact sameParts_zero _ _

theorem sub_zero_left (s : Sign) (v : UnpackedFloat) : SameParts (sub f (.zero s) v) v.neg := by
  cases v with
  | zero t => exact (sub_zeros f s t).trans (sameParts_zero s (-t))
  | _ => exact .inl rfl

theorem sub_zero_right (u : UnpackedFloat) (s : Sign) : SameParts (sub f u (.zero s)) u := by
  cases u with
  | zero t => exact sub_zeros f t s
  | _ => exact .inl rfl

theorem SameParts.sub (hu : SameParts u u') (hv : SameParts v v') : SameParts (sub f u v) (sub f u' v') := by
  rcases hu with rfl | ⟨⟨s, rfl⟩, t, rfl⟩
  · rcases hv with rfl | ⟨⟨s, rfl⟩, t, rfl⟩
    · exact .inl rfl
    · exact (sub_zero_right u s).trans (sub_zero_right u t).symm
  · exact (sub_zero_left s v).trans (hv.neg.trans (sub_zero_left t v').symm)

theorem mul_zero_left (s t : Sign) (v : UnpackedFloat) : SameParts (mul f (.zero s) v) (mul f (.zero t) v) := by
  cases v with
  | zero r => exact sameParts_zero (s * r) (t * r)
  | finite r m e h => exact sameParts_zero (s * r) (t * r)
  | _ => exact .inl rfl

theorem mul_zero_right (u : UnpackedFloat) (s t : Sign) : SameParts (mul f u (.zero s)) (mul f u (.zero t)) := by
  cases u with
  | zero r => exact sameParts_zero (r * s) (r * t)
  | finite r m e h => exact sameParts_zero (r * s) (r * t)
  | _ => exact .inl rfl

theorem SameParts.mul (hu : SameParts u u') (hv : SameParts v v') : SameParts (mul f u v) (mul f u' v') := by
  have left : SameParts (UnpackedFloat.mul f u v) (UnpackedFloat.mul f u' v) := by
    rcases hu with rfl | ⟨⟨s, rfl⟩, t, rfl⟩
    · exact .inl rfl
    · exact mul_zero_left s t v
  have right : SameParts (UnpackedFloat.mul f u' v) (UnpackedFloat.mul f u' v') := by
    rcases hv with rfl | ⟨⟨s, rfl⟩, t, rfl⟩
    · exact .inl rfl
    · exact mul_zero_right u' s t
  exact left.trans right

theorem SameParts.div (hu : SameParts u u') (v : UnpackedFloat) : SameParts (div f u v) (div f u' v) := by
  rcases hu with rfl | ⟨⟨s, rfl⟩, t, rfl⟩
  · exact .inl rfl
  · cases v with
    | infinity r => exact sameParts_zero (s / r) (t / r)
    | finite r m e h => exact sameParts_zero (s / r) (t / r)
    | _ => exact .inl rfl

end Operations

theorem unpack_pack_zero (s : Sign) : (Float.Model.pack (.zero s)).unpack = .zero s := by
  cases s <;> rfl

theorem SameParts.pack {u v : UnpackedFloat} (h : SameParts u v) :
    SameParts (Float.Model.pack u).unpack (Float.Model.pack v).unpack := by
  rcases h with rfl | ⟨⟨s, rfl⟩, t, rfl⟩
  · exact .inl rfl
  · rw [unpack_pack_zero, unpack_pack_zero]
    exact sameParts_zero s t

theorem isNaN_roundWithAccuracy (f : Format) (s : Sign) (m : Nat) (e : Int) (a : Accuracy) :
    (roundWithAccuracy f s m e a).isNaN = false := by
  unfold roundWithAccuracy
  dsimp only
  split <;> rfl

theorem isNaN_normalize (f : Format) (m e : Int) (s : Sign) : (UnpackedFloat.normalize f m e s).isNaN = false := by
  unfold UnpackedFloat.normalize UnpackedFloat.round
  dsimp only
  split
  · exact isNaN_roundWithAccuracy ..
  · rfl
  · exact isNaN_roundWithAccuracy ..

theorem isNaN_mul_finite (f : Format) {u : UnpackedFloat} (hu : u.isNaN = false) (s : Sign) (m : Nat) (e : Int)
    (hm : 0 < m) : (mul f u (.finite s m e hm)).isNaN = false := by
  cases u with
  | notANumber => cases hu
  | finite => exact isNaN_roundWithAccuracy ..
  | _ => rfl

theorem isNaN_ofScientific (f : Format) (m : Nat) (e : Int) : (ofScientific f m e).isNaN = false := by
  unfold ofScientific
  split
  · rfl
  · split
    · rfl
    · split
      · rfl
      · split
        · exact isNaN_mul_finite f rfl ..
        · exact isNaN_roundWithAccuracy ..

theorem isNaN_unpack {b : BitVec Format.binary64.numBits} (h : (UnpackedFloat.unpack Format.binary64 b).isNaN = true) :
    unpackExponent b = -1#_ ∧ unpackMantissa b ≠ 0#_ := by
  unfold UnpackedFloat.unpack at h
  dsimp only at h
  split at h
  · split at h
    · cases h
    · exact ⟨‹_›, ‹_›⟩
  · split at h
    · split at h <;> cases h
    · cases h

theorem isNaN_pack {u : UnpackedFloat} (hu : u.isNaN = false) : (Float.Model.pack u).unpack.isNaN = false := by
  rw [← Bool.not_eq_true]
  intro h
  obtain ⟨hones, hmantissa⟩ := isNaN_unpack h
  change unpackExponent (UnpackedFloat.pack Format.binary64 u) = -1#_ at hones
  change unpackMantissa (UnpackedFloat.pack Format.binary64 u) ≠ 0#_ at hmantissa
  have hinfinity : ∀ s, unpackMantissa (packedInfinity Format.binary64 s) = 0#_ := fun s =>
    unpackMantissa_packComponents
  cases u with
  | notANumber => cases hu
  | infinity s => exact hmantissa (hinfinity s)
  | zero s => exact hmantissa unpackMantissa_packComponents
  | finite s m e hm =>
    unfold UnpackedFloat.pack at hones hmantissa
    dsimp only at hones hmantissa
    split at hmantissa
    · exact hmantissa (hinfinity s)
    · rename_i hbiased
      rw [if_neg hbiased] at hones
      split at hones <;> rw [unpackExponent_packComponents] at hones
      · have h := congrArg BitVec.toNat hones
        rw [BitVec.toNat_ofNat] at h
        have hlast : (-1#11 : BitVec 11).toNat = 2047 := rfl
        omega
      · cases hones

end RuleFlow.Binary64
