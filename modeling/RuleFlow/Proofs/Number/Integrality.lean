import RuleFlow.Proofs.Number.Arithmetic
/-! # Floats that are read as integers

The parts of a float are its bits, and so what it is unpacked to.  Main statement: `denotes_iff`, by which the integer
that is read off the parts of a finite float is the one that it denotes. -/
namespace RuleFlow.Binary64

open Float.Model (UnpackedFloat Format)
open Float.Model.UnpackedFloat

section Fields

variable (b : BitVec Format.binary64.numBits)

theorem toNat_unpackMantissa : (unpackMantissa b).toNat = b.toNat % 2 ^ 52 := by
  rw [unpackMantissa, BitVec.toNat_cast, BitVec.extractLsb_toNat, Nat.shiftRight_zero]
  rfl

theorem toNat_unpackExponent : (unpackExponent b).toNat = b.toNat / 2 ^ 52 % 2 ^ 11 := by
  rw [unpackExponent, BitVec.toNat_cast, BitVec.extractLsb_toNat, Nat.shiftRight_eq_div_pow]
  rfl

theorem toNat_unpackSign : (unpackSign b).toNat = b.toNat / 2 ^ 63 := by
  have hword : b.toNat < 2 ^ 64 := b.isLt
  rw [unpackSign, BitVec.toNat_cast, BitVec.extractLsb_toNat, Nat.shiftRight_eq_div_pow]
  change b.toNat / 2 ^ 63 % 2 ^ 1 = _
  omega

end Fields

def isMinus : Sign → Bool
  | .negative => true
  | .positive => false

theorem isMinus_ofBitVec (b : BitVec 1) : isMinus (.ofBitVec b) = (b.toNat == 1) := by
  rcases BitVec.eq_zero_or_eq_one b with rfl | rfl <;> rfl

theorem parts_eq (x : Float) : parts x =
    if (unpackExponent (bits x)).toNat = 0 then
      ⟨isMinus (.ofBitVec (unpackSign (bits x))), (unpackMantissa (bits x)).toNat, -1074⟩
    else
      ⟨isMinus (.ofBitVec (unpackSign (bits x))), (unpackMantissa (bits x)).toNat + 2 ^ 52,
        (unpackExponent (bits x)).toNat - 1075⟩ := by
  rw [isMinus_ofBitVec, toNat_unpackMantissa, toNat_unpackExponent, toNat_unpackSign]
  rfl

section Finite

variable {x : Float} {s : Sign} {m : Nat} {e : Int} {hm : 0 < m}

/-- The parts of a finite float are what it is unpacked to. -/
theorem parts_of_unpack (h : x.toModel.unpack = .finite s m e hm) : parts x = ⟨isMinus s, m, e⟩ := by
  rw [parts_eq]
  obtain ⟨rfl, ⟨hzero, rfl, rfl⟩ | ⟨hpos, -, rfl, rfl⟩⟩ := fields_of_unpack h
  · rw [if_pos hzero]
  · rw [if_neg hpos]

/-- Whether a float is integral depends on its exponent, or on the bits of its mantissa behind the point. -/
theorem integer?_of_unpack (h : x.toModel.unpack = .finite s m e hm) : integer? x =
      if 0 ≤ e then some (s.apply (m * 2 ^ e.toNat : Nat))
      else if m % 2 ^ (-e).toNat = 0 then some (s.apply (m / 2 ^ (-e).toNat : Nat)) else none := by
  unfold integer?
  rw [parts_of_unpack h]
  cases s <;> rfl

end Finite

theorem integer?_of_zero {x : Float} {s : Sign} (h : x.toModel.unpack = .zero s) : integer? x = some 0 := by
  obtain rfl : x = zero s := eq_of_unpack_eq (h.trans (unpack_pack_zero s).symm)
  cases s <;> decide +kernel

theorem integer?_of_denotes {x : Float} {v : Int} (h : Denotes x.toModel.unpack v) : integer? x = some v := by
  generalize hu : x.toModel.unpack = u at h
  cases h with
  | zero s => exact integer?_of_zero hu
  | @finite s m v e hm h =>
    rw [integer?_of_unpack hu]
    have hweighs := h.weighs
    split
    · rename_i he
      obtain ⟨up, rfl⟩ := Int.eq_ofNat_of_zero_le he
      unfold Weighs at hweighs
      rw [zpow_natCast] at hweighs
      rw [Int.toNat_natCast, show m * 2 ^ up = v by exact_mod_cast hweighs]
    · rename_i he
      obtain ⟨up, rfl⟩ : ∃ up : Nat, e = -up := ⟨(-e).toNat, by omega⟩
      rw [neg_neg, Int.toNat_natCast, hweighs.eq_mul, if_pos (Nat.mul_mod_left _ _),
        Nat.mul_div_cancel _ (Nat.two_pow_pos _)]

theorem denotes_of_integer? {x : Float} {v : Int} (hx : x.isFinite = true) (h : integer? x = some v) :
    Denotes x.toModel.unpack v := by
  change x.toModel.unpack.isFinite = true at hx
  cases hu : x.toModel.unpack with
  | zero s =>
    rw [integer?_of_zero hu] at h
    cases h
    exact .zero s
  | finite s m e hm =>
    rw [integer?_of_unpack hu] at h
    obtain ⟨-, hhigh, -, hmax, hlow⟩ := canonical_of_unpack hu
    split at h
    · rename_i he
      cases h
      obtain ⟨up, rfl⟩ := Int.eq_ofNat_of_zero_le he
      refine .finite s hm ⟨by omega, hhigh, by omega, hmax, ?_⟩
      rw [Int.toNat_natCast, show ((up : Int) + 52).toNat = up + 52 by omega, Nat.pow_add, Nat.mul_assoc]
    · rename_i he
      split at h
      · rename_i hwhole
        cases h
        obtain ⟨down, rfl⟩ : ∃ down : Nat, e = -down := ⟨(-e).toNat, by omega⟩
        rw [neg_neg, Int.toNat_natCast] at hwhole ⊢
        -- a subnormal mantissa would stand behind the point with all its bits
        have hdown : down ≤ 52 := by
          have hle : 2 ^ down ≤ m := Nat.le_of_dvd hm (Nat.dvd_of_mod_eq_zero hwhole)
          have hlt : 2 ^ down < 2 ^ 53 := hle.trans_lt hhigh
          have := (Nat.pow_lt_pow_iff_right (by decide)).1 hlt
          omega
        refine .finite s hm ⟨by omega, hhigh, by omega, hmax, ?_⟩
        calc m * 2 ^ (-(down : Int) + 52).toNat = m / 2 ^ down * (2 ^ down * 2 ^ (52 - down)) := by
              rw [show (-(down : Int) + 52).toNat = 52 - down by omega, ← Nat.mul_assoc,
                Nat.div_mul_cancel (Nat.dvd_of_mod_eq_zero hwhole)]
          _ = m / 2 ^ down * 2 ^ 52 := by rw [← Nat.pow_add, Nat.add_sub_cancel' hdown]
      · cases h
  | infinity s => rw [hu] at hx; cases hx
  | notANumber => rw [hu] at hx; cases hx

theorem denotes_iff {x : Float} {v : Int} :
    Denotes x.toModel.unpack v ↔ x.isFinite = true ∧ integer? x = some v :=
  ⟨fun h => ⟨isFinite_of_denotes h, integer?_of_denotes h⟩, fun h => denotes_of_integer? h.1 h.2⟩

/-- What a float denotes has a mantissa of 53 bits. -/
theorem Denotes.isShort {u : UnpackedFloat} {v : Int} (h : Denotes u v) : IsShort v := by
  cases h with
  | zero s => exact isShort_of_abs_le (by decide)
  | @finite s m v e hm h =>
    have hshort : IsShort v := by
      have hhigh : (m : Int) < 2 ^ 53 := by exact_mod_cast h.high
      rcases Int.eq_nat_or_neg e with ⟨bits, rfl | rfl⟩
      · have hweighs := h.weighs
        unfold Weighs at hweighs
        refine ⟨m, bits, by rw [Nat.abs_cast]; exact hhigh.le, ?_⟩
        rw [zpow_natCast] at hweighs
        exact_mod_cast hweighs.symm
      · have hle : v ≤ m := h.weighs.eq_mul ▸ Nat.le_mul_of_pos_right v (Nat.two_pow_pos bits)
        exact isShort_of_abs_le (by rw [Nat.abs_cast]; omega)
    cases s with
    | positive => exact hshort
    | negative => exact hshort.neg

theorem nearest_eq_zero_iff {n : Int} : nearest n = 0 ↔ n = 0 := by
  constructor
  · intro h
    have hunit : nearest 1 = 1 := (isShort_of_abs_le (by decide)).nearest_eq
    have hminus : nearest (-1) = -1 := (isShort_of_abs_le (by decide)).nearest_eq
    rcases lt_trichotomy n 0 with hneg | hzero | hpos
    · have hle := nearest_mono (show n ≤ -1 by omega)
      omega
    · exact hzero
    · have hle := nearest_mono (show 1 ≤ n by omega)
      omega
  · rintro rfl
    rfl

theorem ofInt_beq_zero {n : Int} (hn : n.natAbs < 2 ^ 64) : (Float.ofInt n == 0.0) = true ↔ n = 0 := by
  have hzero : (0.0 : Float) = Float.ofInt 0 := by rfl
  rw [hzero, beq_ofInt hn (by decide)]
  exact nearest_eq_zero_iff

theorem beq_zero_iff {x : Float} : (x == 0.0) = true ↔ x = 0.0 ∨ x = -0.0 := by
  have hpositive : zero .positive = 0.0 := by decide +kernel
  have hnegative : zero .negative = -0.0 := by decide +kernel
  constructor
  · intro h
    rcases same_iff.1 (beq_iff.1 h).2 with rfl | ⟨⟨s, rfl⟩, -⟩
    · exact .inl rfl
    · cases s with
      | positive => exact .inl hpositive
      | negative => exact .inr hnegative
  · rintro (rfl | rfl)
    · exact hpositive ▸ zero_beq .positive
    · exact hnegative ▸ zero_beq .negative

end RuleFlow.Binary64
