import RuleFlow.Proofs.Number.Integers
/-! # Sums, differences and products of integers

Floats of integers are added, subtracted and multiplied as the integers are, as long as the result has no more than the
53 bits of a mantissa.  Main statements: `denotes_add`, `denotes_sub` and `denotes_mul`. -/
namespace RuleFlow.Binary64

open Float.Model (UnpackedFloat Format)
open Float.Model.UnpackedFloat

/-- Whether an integer is a mantissa scaled by an exponent. -/
def Weighs (m e v : Int) : Prop := (m : ℚ) * 2 ^ e = v

theorem Scales.weighs {m v : Nat} {e : Int} (h : Scales m e v) : Weighs m e v := by
  have hmin := h.min
  have hscaled : (m : ℚ) * 2 ^ (e + 52) = v * 2 ^ (52 : Int) := by
    have heq : ((m * 2 ^ (e + 52).toNat : Nat) : ℚ) = (v * 2 ^ 52 : Nat) := by rw [h.eq]
    push_cast at heq
    rw [← zpow_natCast, Int.toNat_of_nonneg (by omega)] at heq
    exact heq
  rw [zpow_add₀ two_ne_zero, ← mul_assoc] at hscaled
  have hpos : (2 : ℚ) ^ (52 : Int) ≠ 0 := by positivity
  have h := mul_right_cancel₀ hpos hscaled
  unfold Weighs
  exact_mod_cast h

theorem Weighs.apply {m v e : Int} (h : Weighs m e v) (s : Sign) : Weighs (s.apply m) e (s.apply v) := by
  cases s with
  | positive => exact h
  | negative =>
    unfold Weighs at h ⊢
    simp [Sign.apply, ← h]

theorem Weighs.add {m n v x e : Int} (hm : Weighs m e v) (hn : Weighs n e x) : Weighs (m + n) e (v + x) := by
  unfold Weighs at hm hn ⊢
  push_cast
  rw [add_mul, hm, hn]

theorem Weighs.mul {m n v x e f : Int} (hm : Weighs m e v) (hn : Weighs n f x) : Weighs (m * n) (e + f) (v * x) := by
  unfold Weighs at hm hn ⊢
  push_cast
  rw [zpow_add₀ two_ne_zero, ← hm, ← hn]
  ring

/-- A mantissa is shifted up as far as its exponent is decreased. -/
theorem Weighs.decrease {m : Nat} {v e : Int} (h : Weighs m e v) (target : Int) :
    Weighs (decreaseExponent m e target).1 (decreaseExponent m e target).2 v := by
  unfold Weighs decreaseExponent at *
  dsimp only
  rw [Nat.shiftLeft_eq, zpow_sub₀ two_ne_zero, ← h]
  push_cast
  rw [zpow_natCast]
  field_simp

theorem Weighs.eq_mul {m n up : Nat} (h : Weighs m (-up) n) : m = n * 2 ^ up := by
  unfold Weighs at h
  rw [zpow_neg, zpow_natCast, mul_inv_eq_iff_eq_mul₀ (by positivity)] at h
  exact_mod_cast h

/-- The leading bit of a mantissa, scaled by the exponent, is that of the value. -/
theorem Weighs.log2_eq {m n : Nat} {e : Int} (h : Weighs m e n) (hn : n ≠ 0) : (m.log2 : Int) + e = n.log2 := by
  obtain ⟨up, rfl | rfl⟩ := Int.eq_nat_or_neg e
  · have heq : m * 2 ^ up = n := by
      unfold Weighs at h
      rw [zpow_natCast] at h
      exact_mod_cast h
    have hm : m ≠ 0 := by
      rintro rfl
      omega
    rw [← heq, log2_mul_two_pow hm]
    push_cast
    rfl
  · rw [h.eq_mul, log2_mul_two_pow hn]
    push_cast
    omega

theorem nearestNat_eq {n : Nat} (h : n ≤ 2 ^ 53) : nearestNat n = n := by
  have hshort : nearest n = n := (isShort_of_abs_le (by rw [Nat.abs_cast]; exact_mod_cast h)).nearest_eq
  rw [nearest_natCast] at hshort
  exact_mod_cast hshort

/-- What fits a mantissa is not changed by rounding, provided that the bits of a mantissa are there. -/
theorem denotes_of_weighs (s : Sign) {m n : Nat} {e : Int} (h : Weighs m e n) (hn : n ≠ 0) (hsmall : n < 2 ^ 53)
    (hfull : 52 ≤ m.log2) : Denotes (roundWithAccuracy Format.binary64 s m e .exact) (s.apply n) := by
  have hlog := h.log2_eq hn
  have hlt : n.log2 < 53 := (Nat.log2_lt hn).2 hsmall
  obtain ⟨up, rfl⟩ : ∃ up : Nat, e = -up := ⟨(-e).toNat, by omega⟩
  have hrounded := denotes_roundWithAccuracy s up hn (by omega) (by omega)
  rwa [nearestNat_eq hsmall.le, ← h.eq_mul] at hrounded

theorem denotes_round (s : Sign) {m n : Nat} {e : Int} (h : Weighs m e n) (hn : n ≠ 0) (hsmall : n < 2 ^ 53) :
    Denotes (UnpackedFloat.round Format.binary64 s m e) (s.apply n) := by
  have hlog := h.log2_eq hn
  have hlt : n.log2 < 53 := (Nat.log2_lt hn).2 hsmall
  have htarget : Format.binary64.targetExponent (Float.Model.totalExponent m e) = n.log2 - 52 := by
    simp only [Format.targetExponent, Float.Model.totalExponent, Format.mantissaBits, Format.minExponent]
    push_cast
    omega
  have hdecreased := h.decrease (n.log2 - 52)
  have hlog' := hdecreased.log2_eq hn
  rw [UnpackedFloat.round, htarget]
  refine denotes_of_weighs s hdecreased hn hsmall ?_
  unfold decreaseExponent at hlog'
  dsimp only at hlog'
  omega

theorem apply_apply (s : Sign) (v : Int) : s.apply (s.apply v) = v := by
  cases s with
  | positive => rfl
  | negative => exact Int.neg_neg v

theorem abs_apply (s : Sign) (v : Int) : |s.apply v| = |v| := by
  cases s with
  | positive => rfl
  | negative => exact abs_neg v

theorem normalize_apply (s zero : Sign) {k : Nat} (hk : k ≠ 0) (e : Int) :
    UnpackedFloat.normalize Format.binary64 (s.apply k) e zero = UnpackedFloat.round Format.binary64 s k e := by
  cases s with
  | positive =>
    have hpositive : Ord.compare (k : Int) 0 = .gt := Int.compare_eq_gt.2 (by omega)
    have happly : Sign.positive.apply k = k := rfl
    rw [happly, UnpackedFloat.normalize, hpositive]
    rfl
  | negative =>
    have hnegative : Ord.compare (-(k : Int)) 0 = .lt := Int.compare_eq_lt.2 (by omega)
    have happly : Sign.negative.apply k = -k := rfl
    rw [happly, UnpackedFloat.normalize, hnegative]
    simp only [neg_neg, Int.toNat_natCast]

theorem denotes_normalize {m v e : Int} (h : Weighs m e v) (hsmall : |v| < 2 ^ 53) (zero : Sign) :
    Denotes (UnpackedFloat.normalize Format.binary64 m e zero) v := by
  have hpos : (0 : ℚ) < 2 ^ e := by positivity
  rcases eq_or_ne m 0 with rfl | hm
  · have hv : v = 0 := by
      unfold Weighs at h
      rw [Int.cast_zero, zero_mul] at h
      exact_mod_cast h.symm
    subst hv
    exact .zero zero
  · obtain ⟨s, k, rfl⟩ : ∃ (s : Sign) (k : Nat), m = s.apply k := by
      rcases Int.eq_nat_or_neg m with ⟨k, rfl | rfl⟩
      · exact ⟨.positive, k, rfl⟩
      · exact ⟨.negative, k, rfl⟩
    have hk : k ≠ 0 := by
      rintro rfl
      cases s <;> exact hm rfl
    have hweighs := h.apply s
    rw [apply_apply] at hweighs
    obtain ⟨n, hn⟩ : ∃ n : Nat, s.apply v = n := by
      refine Int.eq_ofNat_of_zero_le ?_
      have hvalue : (0 : ℚ) ≤ s.apply v := hweighs ▸ by positivity
      exact_mod_cast hvalue
    have hn0 : n ≠ 0 := by
      rintro rfl
      rw [hn] at hweighs
      have hzero : (k : ℚ) * 2 ^ e ≠ 0 := by positivity
      exact hzero (by simpa [Weighs] using hweighs)
    rw [hn] at hweighs
    rw [← abs_apply s, hn, Nat.abs_cast] at hsmall
    rw [normalize_apply s zero hk, ← apply_apply s v, hn]
    exact denotes_round s hweighs hn0 (by exact_mod_cast hsmall)

theorem decreaseExponent_snd {m : Nat} {e target : Int} (h : target ≤ e) :
    (decreaseExponent m e target).2 = target := by
  unfold decreaseExponent
  dsimp only
  omega

variable {u w : UnpackedFloat} {v x : Int}

theorem Denotes.add (hu : Denotes u v) (hw : Denotes w x) (hsmall : |v + x| < 2 ^ 53) :
    Denotes (add Format.binary64 u w) (v + x) := by
  cases hu with
  | zero s =>
    cases hw with
    | zero t =>
      rw [UnpackedFloat.add]
      split <;> exact .zero _
    | finite t hm h =>
      rw [Int.zero_add]
      exact .finite t hm h
  | @finite s m v e hm h =>
    cases hw with
    | zero t =>
      rw [Int.add_zero]
      exact .finite s hm h
    | @finite t m' x e' hm' h' =>
      have hleft := (h.weighs.decrease (min e e')).apply s
      have hright := (h'.weighs.decrease (min e e')).apply t
      rw [decreaseExponent_snd (min_le_left e e')] at hleft
      rw [decreaseExponent_snd (min_le_right e e')] at hright
      exact denotes_normalize (hleft.add hright) hsmall .positive

theorem sub_eq_add_neg (f : Format) (u w : UnpackedFloat) : sub f u w = add f u w.neg := by
  cases u with
  | finite s m e hm =>
    cases w with
    | finite t m' e' hm' =>
      have hneg (k : Int) : (-t).apply k = -t.apply k := by
        cases t
        · exact (Int.neg_neg k).symm
        · rfl
      simp only [UnpackedFloat.sub, UnpackedFloat.neg, UnpackedFloat.add, hneg, Int.sub_eq_add_neg]
    | _ => rfl
  | _ => cases w <;> rfl

theorem Denotes.sub (hu : Denotes u v) (hw : Denotes w x) (hsmall : |v - x| < 2 ^ 53) :
    Denotes (sub Format.binary64 u w) (v - x) := by
  rw [sub_eq_add_neg, Int.sub_eq_add_neg]
  exact hu.add hw.neg hsmall

theorem mul_apply (s t : Sign) (v x : Int) : s.apply v * t.apply x = (s * t).apply (v * x) := by
  cases s <;> cases t
  · exact Int.neg_mul_neg v x
  · exact Int.neg_mul v x
  · exact Int.mul_neg v x
  · rfl

theorem Denotes.mul (hu : Denotes u v) (hw : Denotes w x) (hsmall : |v * x| < 2 ^ 53) :
    Denotes (mul Format.binary64 u w) (v * x) := by
  cases hu with
  | zero s =>
    rw [Int.zero_mul]
    cases hw with
    | zero t => exact .zero (s * t)
    | finite t hm h => exact .zero (s * t)
  | @finite s m v e hm h =>
    cases hw with
    | zero t =>
      rw [Int.mul_zero]
      exact .zero (s * t)
    | @finite t m' x e' hm' h' =>
      rw [mul_apply] at hsmall ⊢
      rw [abs_apply] at hsmall
      have hweighs := h.weighs.mul h'.weighs
      have hfull : 52 ≤ (m * m').log2 := by
        refine (Nat.le_log2 (Nat.mul_pos hm hm').ne').2 ?_
        exact h.low.trans (Nat.le_mul_of_pos_right m hm')
      have hpos : 0 < v * x := Nat.mul_pos h.pos h'.pos
      exact denotes_of_weighs (s * t) (by exact_mod_cast hweighs) hpos.ne' (by exact_mod_cast hsmall) hfull

section Floats

variable {x y : Float} {v w : Int}

theorem denotes_add (hx : Denotes x.toModel.unpack v) (hy : Denotes y.toModel.unpack w) (hsmall : |v + w| < 2 ^ 53) :
    Denotes (x + y).toModel.unpack (v + w) := by
  have h := hx.add hy hsmall
  change Denotes (Float.Model.pack _).unpack _
  rwa [h.unpack_pack]

theorem denotes_sub (hx : Denotes x.toModel.unpack v) (hy : Denotes y.toModel.unpack w) (hsmall : |v - w| < 2 ^ 53) :
    Denotes (x - y).toModel.unpack (v - w) := by
  have h := hx.sub hy hsmall
  change Denotes (Float.Model.pack _).unpack _
  rwa [h.unpack_pack]

theorem denotes_mul (hx : Denotes x.toModel.unpack v) (hy : Denotes y.toModel.unpack w) (hsmall : |v * w| < 2 ^ 53) :
    Denotes (x * y).toModel.unpack (v * w) := by
  have h := hx.mul hy hsmall
  change Denotes (Float.Model.pack _).unpack _
  rwa [h.unpack_pack]

end Floats

end RuleFlow.Binary64
