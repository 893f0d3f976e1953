import RuleFlow.Proofs.Number.Order
import RuleFlow.Proofs.Number.Rounding
/-! # Integers as floats

The float of an integer is the nearest integer with a mantissa of 53 bits, and floats of integers are compared as those
nearest integers are.  Main statements: `denotes_ofInt`, and from it `isFinite_ofInt`, `units_ofInt` and `beq_ofInt`. -/
namespace RuleFlow.Binary64

open Float.Model (UnpackedFloat Format)
open Float.Model.UnpackedFloat

/-- What is kept of the bits that are shifted out of a mantissa: the last of them, and whether one of the others is
set. -/
theorem shiftRight_exact (m bits : Nat) :
    ExtendedMantissa.ofMantissaAndAccuracy m .exact >>> bits =
      ⟨m / 2 ^ bits, decide (2 ^ bits ≤ 2 * (m % 2 ^ bits)), decide (2 * (m % 2 ^ bits) % 2 ^ bits ≠ 0)⟩ := by
  change Nat.repeat ExtendedMantissa.shiftRightOne bits _ = _
  induction bits with
  | zero => simp [Nat.repeat, ExtendedMantissa.ofMantissaAndAccuracy, Nat.mod_one]
  | succ bits ih =>
    have hrest : m % 2 ^ bits < 2 ^ bits := Nat.mod_lt _ (Nat.two_pow_pos bits)
    have hsplit : m % 2 ^ (bits + 1) = m % 2 ^ bits + 2 ^ bits * (m / 2 ^ bits % 2) := by
      rw [Nat.pow_succ, Nat.mod_mul]
    have hlast : (m / 2 ^ bits % 2 != 0) = decide (2 ^ (bits + 1) ≤ 2 * (m % 2 ^ (bits + 1))) := by
      rw [hsplit, Nat.pow_succ]
      rcases Nat.mod_two_eq_zero_or_one (m / 2 ^ bits) with hbit | hbit
      · rw [hbit, decide_eq_false (by omega)]
        rfl
      · rw [hbit, decide_eq_true (by omega)]
        rfl
    have hothers : (decide (2 ^ bits ≤ 2 * (m % 2 ^ bits)) || decide (2 * (m % 2 ^ bits) % 2 ^ bits ≠ 0)) =
        decide (2 * (m % 2 ^ (bits + 1)) % 2 ^ (bits + 1) ≠ 0) := by
      rw [Nat.pow_succ, Nat.mul_comm (2 ^ bits) 2, Nat.mul_mod_mul_left, Nat.mul_comm 2 (2 ^ bits), ← Nat.pow_succ,
        hsplit, Nat.add_mul_mod_self_left, Nat.mod_mod, ← Bool.decide_or]
      refine decide_eq_decide.2 ?_
      rcases Nat.lt_or_ge (2 * (m % 2 ^ bits)) (2 ^ bits) with hlow | hhigh
      · rw [Nat.mod_eq_of_lt hlow]
        omega
      · exact ⟨fun _ => by omega, fun _ => .inl hhigh⟩
    rw [Nat.repeat, ih, ExtendedMantissa.shiftRightOne, Nat.div_div_eq_div_mul, ← Nat.pow_succ, hlast, hothers]

theorem mantissa_shiftRight (m bits : Nat) :
    (ExtendedMantissa.ofMantissaAndAccuracy m .exact >>> bits).mantissa = m / 2 ^ bits := by
  rw [shiftRight_exact]

/-- To shift a mantissa and to round it by the bits that are kept is to round half to even. -/
theorem roundedMantissa_shiftRight (m bits : Nat) :
    (ExtendedMantissa.ofMantissaAndAccuracy m .exact >>> bits).roundedMantissa = halfEven m bits := by
  have hrest : m % 2 ^ bits < 2 ^ bits := Nat.mod_lt _ (Nat.two_pow_pos bits)
  rw [shiftRight_exact, ExtendedMantissa.roundedMantissa, halfEven]
  rcases Nat.lt_or_ge (2 * (m % 2 ^ bits)) (2 ^ bits) with hlow | hhigh
  · rw [if_pos hlow, decide_eq_false (Nat.not_le.2 hlow)]
    cases decide (2 * (m % 2 ^ bits) % 2 ^ bits ≠ 0) <;> rfl
  · have hmod : 2 * (m % 2 ^ bits) % 2 ^ bits = 2 * (m % 2 ^ bits) - 2 ^ bits := by
      rw [Nat.mod_eq_sub_mod hhigh, Nat.mod_eq_of_lt (by omega)]
    rw [if_neg (Nat.not_lt.2 hhigh), decide_eq_true hhigh, hmod]
    split
    · rw [decide_eq_false (by omega)]
      rfl
    · rw [decide_eq_true (by omega)]
      rfl

theorem log2_of_mantissa {m : Nat} (hlow : 2 ^ 52 ≤ m) (hhigh : m < 2 ^ 53) : m.log2 = 52 :=
  (Nat.log2_eq_iff (by omega)).2 ⟨hlow, hhigh⟩

theorem shiftToTargetExponent_exact {m bits : Nat} {e : Int} (hlog : m.log2 = 52 + bits) (he : -1074 ≤ e + bits) :
    shiftToTargetExponent Format.binary64 m e .exact =
      (ExtendedMantissa.ofMantissaAndAccuracy m .exact >>> bits, e + bits) := by
  have htarget : Format.binary64.targetExponent (Float.Model.totalExponent m e) = e + bits := by
    simp only [Format.targetExponent, Float.Model.totalExponent, Format.mantissaBits, Format.minExponent, hlog]
    push_cast
    omega
  have hamount : (e + (bits : Int) - e).toNat = bits := by omega
  rw [shiftToTargetExponent, htarget, shiftToExponent, hamount]

/-- A number that is rounded to the bits of a mantissa has those, or is the power of two after them. -/
theorem halfEven_bounds {m bits : Nat} (hlog : m.log2 = 52 + bits) :
    2 ^ 52 ≤ halfEven m bits ∧ halfEven m bits ≤ 2 ^ 53 := by
  have hm : m ≠ 0 := by
    rintro rfl
    simp at hlog
    omega
  have hlow : 2 ^ 52 ≤ m / 2 ^ bits := by
    rw [Nat.le_div_iff_mul_le (Nat.two_pow_pos _), ← Nat.pow_add, ← hlog]
    exact Nat.log2_self_le hm
  have hhigh : m / 2 ^ bits < 2 ^ 53 := by
    rw [Nat.div_lt_iff_lt_mul (Nat.two_pow_pos _), ← Nat.pow_add, show 53 + bits = m.log2 + 1 by omega]
    exact Nat.lt_log2_self
  exact ⟨hlow.trans (div_le_halfEven m bits), (halfEven_le m bits).trans hhigh⟩

theorem roundWithAccuracy_of_lt (s : Sign) {m bits : Nat} {e : Int} (hlog : m.log2 = 52 + bits) (he : -1074 ≤ e + bits)
    (hlt : halfEven m bits < 2 ^ 53) :
    roundWithAccuracy Format.binary64 s m e .exact =
      .finite s (halfEven m bits) (e + bits) (by have := halfEven_bounds hlog; omega) := by
  obtain ⟨hlow, -⟩ := halfEven_bounds hlog
  have hagain : (halfEven m bits).log2 = 52 + 0 := log2_of_mantissa hlow hlt
  have hsecond := shiftToTargetExponent_exact (e := e + bits) hagain (by simpa using he)
  rw [roundWithAccuracy, shiftToTargetExponent_exact hlog he]
  simp only [roundedMantissa_shiftRight, hsecond, mantissa_shiftRight, Nat.pow_zero, Nat.div_one, Nat.cast_zero,
    add_zero]
  rw [dif_neg (by omega)]

theorem roundWithAccuracy_of_eq (s : Sign) {m bits : Nat} {e : Int} (hlog : m.log2 = 52 + bits) (he : -1074 ≤ e + bits)
    (heq : halfEven m bits = 2 ^ 53) :
    roundWithAccuracy Format.binary64 s m e .exact = .finite s (2 ^ 52) (e + bits + 1) (by decide) := by
  have hagain : (2 ^ 53 : Nat).log2 = 52 + 1 := Nat.log2_two_pow
  have hsecond := shiftToTargetExponent_exact (e := e + bits) hagain (by push_cast; omega)
  rw [roundWithAccuracy, shiftToTargetExponent_exact hlog he]
  simp only [roundedMantissa_shiftRight, heq, hsecond, mantissa_shiftRight]
  rfl

/-- Whether a mantissa has its leading bit and scaled by an exponent of the format is a whole number. -/
structure Scales (m : Nat) (e : Int) (v : Nat) : Prop where
  low : 2 ^ 52 ≤ m
  high : m < 2 ^ 53
  min : -52 ≤ e
  max : e ≤ 971
  eq : m * 2 ^ (e + 52).toNat = v * 2 ^ 52

inductive Denotes : UnpackedFloat → Int → Prop
  | zero (s : Sign) : Denotes (.zero s) 0
  | finite (s : Sign) {m v : Nat} {e : Int} (hm : 0 < m) (h : Scales m e v) : Denotes (.finite s m e hm) (s.apply v)

/-- An integer is rounded to the nearest one. -/
theorem denotes_roundWithAccuracy (s : Sign) {n : Nat} (up : Nat) (hn : n ≠ 0) (hword : n < 2 ^ 64)
    (hup : 52 ≤ n.log2 + up) :
    Denotes (roundWithAccuracy Format.binary64 s (n * 2 ^ up) (-up) .exact) (s.apply (nearestNat n)) := by
  obtain ⟨bits, hbits⟩ := Nat.exists_eq_add_of_le hup
  have hlog : (n * 2 ^ up).log2 = 52 + bits := (log2_mul_two_pow hn up).trans hbits
  have hlt : n.log2 < 64 := (Nat.log2_lt hn).2 hword
  have hscaled := halfEven_scaled hbits
  obtain ⟨hlow, hhigh⟩ := halfEven_bounds hlog
  rcases Nat.eq_or_lt_of_le hhigh with heq | hlt
  · rw [roundWithAccuracy_of_eq s hlog (by omega) heq]
    refine .finite s _ ⟨Nat.le_refl _, by decide, by omega, by omega, ?_⟩
    have hexponent : (-(up : Int) + bits + 1 + 52).toNat = bits + 52 - up + 1 := by omega
    rw [← hscaled, heq, hexponent, Nat.pow_succ]
    ring
  · rw [roundWithAccuracy_of_lt s hlog (by omega) hlt]
    refine .finite s _ ⟨hlow, hlt, by omega, by omega, ?_⟩
    have hexponent : (-(up : Int) + bits + 52).toNat = bits + 52 - up := by omega
    rw [← hscaled, hexponent]

theorem unpack_pack_finite (s : Sign) {m v : Nat} {e : Int} (hm : 0 < m) (h : Scales m e v) :
    (Float.Model.pack (.finite s m e hm)).unpack = .finite s m e hm := by
  obtain ⟨hlow, hhigh, hmin, hmax, -⟩ := h
  change unpack Format.binary64 (UnpackedFloat.pack Format.binary64 _) = _
  obtain ⟨biased, hbiased⟩ : ∃ biased : Nat, e = biased - 1075 := ⟨(e + 1075).toNat, by omega⟩
  have hexponent :
      (e + Format.binary64.exponentBias + Format.binary64.mantissaBitsWithoutImplicit).toNat = biased := by
    change (e + (2 ^ (11 - 1) - 1 : Nat) + (52 : Nat)).toNat = biased
    omega
  have hofNat : (BitVec.ofNat 11 biased).toNat = biased := Nat.mod_eq_of_lt (by omega)
  have hne {b : BitVec 11} (hb : b.toNat ≠ biased) : BitVec.ofNat 11 biased ≠ b := fun h => hb (by rw [← h, hofNat])
  have hnone : BitVec.ofNat 11 biased ≠ -1#11 := hne (by change 2047 ≠ biased; omega)
  have hnzero : BitVec.ofNat 11 biased ≠ 0#11 := hne (by change 0 ≠ biased; omega)
  -- the leading bit is not packed, and put back
  have hmantissa : (1#1 ++ BitVec.ofNat 52 m).toNat = m := by
    rw [BitVec.toNat_append, ← Nat.shiftLeft_add_eq_or_of_lt (BitVec.ofNat 52 m).isLt, BitVec.toNat_ofNat,
      BitVec.toNat_ofNat, Nat.shiftLeft_eq]
    omega
  rw [UnpackedFloat.pack]
  simp only [log2_of_mantissa hlow hhigh, hexponent]
  rw [if_neg (by omega), if_pos (show 52 + 1 = Format.binary64.mantissaBits from rfl), unpack]
  simp only [unpackMantissa_packComponents, unpackExponent_packComponents, unpackSign_packComponents,
    Sign.ofBitVec_toBitVec]
  rw [if_neg hnone, if_neg hnzero]
  simp only [hmantissa, hofNat]
  congr 1
  rw [hbiased]
  rfl

theorem Denotes.unpack_pack {u : UnpackedFloat} {v : Int} (h : Denotes u v) : (Float.Model.pack u).unpack = u := by
  cases h with
  | zero s => exact unpack_pack_zero s
  | finite s hm h => exact unpack_pack_finite s hm h

theorem Denotes.neg {u : UnpackedFloat} {v : Int} (h : Denotes u v) : Denotes u.neg (-v) := by
  cases h with
  | zero s => exact .zero (-s)
  | finite s hm h =>
    have hsign (n : Int) : -s.apply n = (-s).apply n := by
      cases s
      · exact Int.neg_neg n
      · rfl
    rw [hsign]
    exact .finite (-s) hm h

theorem unpack_one :
    (Float.ofBits 0x3FF0000000000000).toModel.unpack = .finite .positive (2 ^ 52) (-52) (by decide) := by
  obtain ⟨s, m, e, hm, h, hs, hmantissa, hexponent⟩ :
      ∃ s m e hm, (Float.ofBits 0x3FF0000000000000).toModel.unpack = .finite s m e hm ∧
        s = .positive ∧ m = 2 ^ 52 ∧ e = -52 :=
    ⟨_, _, _, _, rfl, rfl, rfl, rfl⟩
  subst hs hmantissa hexponent
  exact h

theorem Denotes.mul_one {u : UnpackedFloat} {v : Int} (h : Denotes u v) :
    mul Format.binary64 u (.finite .positive (2 ^ 52) (-52) (by decide)) = u := by
  cases h with
  | zero s => cases s <;> rfl
  | @finite s m v e hm h =>
    have hsign : s * .positive = s := by cases s <;> rfl
    have hlog : (m * 2 ^ 52).log2 = 52 + 52 := by rw [log2_mul_two_pow hm.ne', log2_of_mantissa h.low h.high]
    have hexact : halfEven (m * 2 ^ 52) 52 = m := halfEven_mul m 52
    rw [mul, hsign, roundWithAccuracy_of_lt s hlog (by have := h.min; push_cast; omega)
      (by rw [hexact]; exact h.high)]
    simp only [hexact]
    congr 1
    push_cast
    omega

theorem denotes_unpacked_ofNat {n : Nat} (hword : n < 2 ^ 64) :
    Denotes (UnpackedFloat.ofNat Format.binary64 n) (nearestNat n) := by
  rcases Nat.eq_zero_or_pos n with rfl | hn
  · exact .zero .positive
  · have hpositive : compare (n : Int) 0 = .gt := Int.compare_eq_gt.2 (by omega)
    have htarget : Format.binary64.targetExponent (Float.Model.totalExponent n 0) = n.log2 - 52 := by
      simp only [Format.targetExponent, Float.Model.totalExponent, Format.mantissaBits, Format.minExponent]
      push_cast
      omega
    rw [UnpackedFloat.ofNat, UnpackedFloat.ofInt, UnpackedFloat.normalize, hpositive]
    simp only [Int.toNat_natCast, UnpackedFloat.round, htarget, decreaseExponent, Nat.shiftLeft_eq, zero_sub]
    exact denotes_roundWithAccuracy .positive _ hn.ne' hword (by omega)

theorem denotes_ofScientific {n : Nat} (hn : n ≠ 0) (hword : n < 2 ^ 64) :
    Denotes (UnpackedFloat.ofScientific Format.binary64 n 0) (nearestNat n) := by
  have hbound : ¬(0 : Int) < -((2 ^ Format.binary64.exponentBits : Int) + n.log2) := by
    change ¬(0 : Int) < -((2 ^ 11 : Int) + n.log2)
    omega
  rw [UnpackedFloat.ofScientific, dif_neg hn, if_neg (by decide), if_neg hbound, if_pos (le_refl 0), mul,
    Nat.shiftLeft_eq, Int.toNat_zero, pow_zero, Nat.mul_one, add_zero]
  exact denotes_roundWithAccuracy .positive 53 hn hword (by omega)

/-- The float of a natural number is the nearest one, whether it is short enough to be multiplied by a power of ten or
not. -/
theorem denotes_ofNat {n : Nat} (hword : n < 2 ^ 64) : Denotes (Float.ofNat n).toModel.unpack (nearestNat n) := by
  change Denotes (Float.ofScientific n false 0).toModel.unpack _
  unfold Float.ofScientific
  split
  · have hn : n.toUInt64.toNat = n := Nat.mod_eq_of_lt hword
    have h := denotes_unpacked_ofNat hword
    change Denotes (Float.Model.pack (mul Format.binary64
      (Float.Model.pack (UnpackedFloat.ofNat Format.binary64 n.toUInt64.toNat)).unpack
      (Float.ofBits 0x3FF0000000000000).toModel.unpack)).unpack _
    rw [hn, h.unpack_pack, unpack_one, h.mul_one, h.unpack_pack]
    exact h
  · next hslow =>
    have h := denotes_ofScientific (n := n) (by omega) hword
    change Denotes (Float.Model.pack (UnpackedFloat.ofScientific Format.binary64 n 0)).unpack _
    rw [h.unpack_pack]
    exact h

theorem denotes_ofInt {n : Int} (hword : n.natAbs < 2 ^ 64) : Denotes (Float.ofInt n).toModel.unpack (nearest n) := by
  unfold Float.ofInt
  cases n with
  | ofNat n =>
    rw [Int.ofNat_eq_natCast, nearest_natCast]
    exact denotes_ofNat hword
  | negSucc n =>
    have h := (denotes_ofNat (n := n + 1) hword).neg
    rw [Int.negSucc_eq, nearest_neg]
    change Denotes (Float.Model.pack _).unpack _
    rw [h.unpack_pack]
    exact_mod_cast nearest_natCast (n + 1) ▸ h

theorem Scales.pos {m v : Nat} {e : Int} (h : Scales m e v) : 0 < v := by
  refine Nat.pos_of_ne_zero ?_
  rintro rfl
  have hm : 0 < m * 2 ^ (e + 52).toNat := Nat.mul_pos (by have := h.low; omega) (Nat.two_pow_pos _)
  have := h.eq
  omega

/-- How many times the least positive float one is. -/
def unitsOfOne : Nat := 2 ^ (52 + 1022)

theorem unitsOfOne_pos : 0 < unitsOfOne := by
  unfold unitsOfOne
  positivity

theorem mul_two_pow_add {m v k : Nat} (h : m * 2 ^ k = v * 2 ^ 52) (more : Nat) :
    m * 2 ^ (k + more) = v * 2 ^ (52 + more) := by
  rw [Nat.pow_add, Nat.pow_add, ← Nat.mul_assoc, h, Nat.mul_assoc]

theorem Scales.units_eq {m v : Nat} {e : Int} (h : Scales m e v) : m * 2 ^ (e + 1074).toNat = v * unitsOfOne := by
  have hmin := h.min
  have hshift : (e + 1074).toNat = (e + 52).toNat + 1022 := by omega
  rw [hshift]
  exact mul_two_pow_add h.eq 1022

theorem Denotes.unitsOf_eq {u : UnpackedFloat} {v : Int} (h : Denotes u v) : unitsOf u = v * unitsOfOne := by
  cases h with
  | zero s => exact (Int.zero_mul _).symm
  | @finite s m v e hm h =>
    change s.apply (m * 2 ^ (e + 1074).toNat : Nat) = _
    rw [h.units_eq]
    cases s with
    | positive => exact Int.natCast_mul _ _
    | negative => exact (congrArg (-·) (Int.natCast_mul _ _)).trans (Int.neg_mul _ _).symm

section Words

variable {m n : Int}

theorem natAbs_lt_of_isWord (h : Json.IsWord n) : n.natAbs < 2 ^ 64 := by
  obtain ⟨hlow, hhigh⟩ := h
  omega

theorem isFinite_of_denotes {x : Float} (h : Denotes x.toModel.unpack n) : x.isFinite = true := by
  change x.toModel.unpack.isFinite = true
  generalize x.toModel.unpack = u at h
  cases h <;> rfl

theorem isFinite_ofInt (hn : n.natAbs < 2 ^ 64) : (Float.ofInt n).isFinite = true :=
  isFinite_of_denotes (denotes_ofInt hn)

theorem units_ofInt (hn : n.natAbs < 2 ^ 64) : units (Float.ofInt n) = nearest n * unitsOfOne :=
  (denotes_ofInt hn).unitsOf_eq

theorem beq_ofInt (hm : m.natAbs < 2 ^ 64) (hn : n.natAbs < 2 ^ 64) :
    (Float.ofInt m == Float.ofInt n) = true ↔ nearest m = nearest n := by
  have hpos : (0 : Int) < unitsOfOne := Int.natCast_pos.2 unitsOfOne_pos
  rw [beq_iff_units (isFinite_ofInt hm) (isFinite_ofInt hn), units_ofInt hm, units_ofInt hn]
  exact Int.mul_eq_mul_right_iff hpos.ne'

end Words

end RuleFlow.Binary64
