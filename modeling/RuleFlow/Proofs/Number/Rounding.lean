import Mathlib.Algebra.Order.Ring.Abs
import Mathlib.Tactic.Linarith
import Mathlib.Tactic.Ring
/-! # Integers rounded to a mantissa

An integer that needs more than the 53 bits of a mantissa is rounded to the nearest one that does not, and halfway to
the one with an even mantissa.  Main statements: `abs_sub_nearest_le`, by which nothing with a mantissa of 53 bits is
nearer, and `nearest_mono`. -/
namespace RuleFlow.Binary64

/-- A number shifted down by some bits and rounded to the nearest whole, halfway to the even one. -/
def halfEven (m bits : Nat) : Nat :=
  if 2 * (m % 2 ^ bits) < 2 ^ bits then m / 2 ^ bits
  else if 2 * (m % 2 ^ bits) = 2 ^ bits then m / 2 ^ bits + m / 2 ^ bits % 2
  else m / 2 ^ bits + 1

/-- What is less than half is dropped, and what is more makes one more. -/
theorem halfEven_cases (m bits : Nat) :
    2 * (m % 2 ^ bits) ≤ 2 ^ bits ∧ halfEven m bits = m / 2 ^ bits ∨
      2 ^ bits ≤ 2 * (m % 2 ^ bits) ∧ halfEven m bits = m / 2 ^ bits + 1 := by
  unfold halfEven
  split
  · exact .inl ⟨by omega, rfl⟩
  · split
    · rcases Nat.mod_two_eq_zero_or_one (m / 2 ^ bits) with heven | hodd
      · exact .inl ⟨by omega, by omega⟩
      · exact .inr ⟨by omega, by omega⟩
    · exact .inr ⟨by omega, rfl⟩

theorem div_le_halfEven (m bits : Nat) : m / 2 ^ bits ≤ halfEven m bits := by
  rcases halfEven_cases m bits with ⟨-, h⟩ | ⟨-, h⟩ <;> omega

theorem halfEven_le (m bits : Nat) : halfEven m bits ≤ m / 2 ^ bits + 1 := by
  rcases halfEven_cases m bits with ⟨-, h⟩ | ⟨-, h⟩ <;> omega

theorem halfEven_mul (m bits : Nat) : halfEven (m * 2 ^ bits) bits = m := by
  have hpos : 0 < 2 ^ bits := Nat.two_pow_pos bits
  rw [halfEven, Nat.mul_mod_left, Nat.mul_div_cancel _ hpos, if_pos (by omega)]

@[simp] theorem halfEven_zero (m : Nat) : halfEven m 0 = m := by
  simpa using halfEven_mul m 0

/-- To shift up and then further down is to shift down. -/
theorem halfEven_mul_add (m bits up : Nat) : halfEven (m * 2 ^ up) (bits + up) = halfEven m bits := by
  have hpos : 0 < 2 ^ up := Nat.two_pow_pos up
  have hmod : m * 2 ^ up % 2 ^ (bits + up) = m % 2 ^ bits * 2 ^ up := by rw [Nat.pow_add, Nat.mul_mod_mul_right]
  have hdiv : m * 2 ^ up / 2 ^ (bits + up) = m / 2 ^ bits := by rw [Nat.pow_add, Nat.mul_div_mul_right _ _ hpos]
  unfold halfEven
  simp only [hmod, hdiv]
  simp only [Nat.pow_add, ← Nat.mul_assoc, Nat.mul_lt_mul_right hpos, Nat.mul_left_inj hpos.ne']

theorem halfEven_mono {m n : Nat} (h : m ≤ n) (bits : Nat) : halfEven m bits ≤ halfEven n bits := by
  rcases Nat.eq_or_lt_of_le (Nat.div_le_div_right h : m / 2 ^ bits ≤ n / 2 ^ bits) with heq | hlt
  · have hmod : m % 2 ^ bits ≤ n % 2 ^ bits := by
      have hm := Nat.div_add_mod m (2 ^ bits)
      have hn := Nat.div_add_mod n (2 ^ bits)
      rw [heq] at hm
      omega
    unfold halfEven
    rw [heq]
    split_ifs <;> omega
  · calc halfEven m bits ≤ m / 2 ^ bits + 1 := halfEven_le m bits
      _ ≤ n / 2 ^ bits := hlt
      _ ≤ halfEven n bits := div_le_halfEven n bits

/-- The number of bits that a number has beyond those of a mantissa. -/
def excess (n : Nat) : Nat := n.log2 - 52

/-- The nearest number with a mantissa of 53 bits. -/
def nearestNat (n : Nat) : Nat := halfEven n (excess n) * 2 ^ excess n

theorem excess_mono {m n : Nat} (h : m ≤ n) : excess m ≤ excess n := by
  rcases Nat.eq_zero_or_pos m with rfl | hm
  · simp [excess]
  · have hlog : m.log2 ≤ n.log2 := (Nat.le_log2 (by omega)).2 ((Nat.log2_self_le hm.ne').trans h)
    exact Nat.sub_le_sub_right hlog 52

theorem lt_two_pow_excess (n : Nat) : n < 2 ^ (53 + excess n) :=
  Nat.lt_of_lt_of_le Nat.lt_log2_self (Nat.pow_le_pow_right (by decide) (by unfold excess; omega))

theorem two_pow_excess_le {n : Nat} (h : 0 < excess n) : 2 ^ (52 + excess n) ≤ n := by
  have hlog : 52 + excess n = n.log2 := by
    unfold excess at h ⊢
    omega
  rw [hlog]
  refine Nat.log2_self_le ?_
  rintro rfl
  simp [excess] at h

theorem div_excess_lt (n : Nat) : n / 2 ^ excess n < 2 ^ 53 := by
  rw [Nat.div_lt_iff_lt_mul (Nat.two_pow_pos _), ← Nat.pow_add]
  exact lt_two_pow_excess n

theorem le_div_excess {n : Nat} (h : 0 < excess n) : 2 ^ 52 ≤ n / 2 ^ excess n := by
  rw [Nat.le_div_iff_mul_le (Nat.two_pow_pos _), ← Nat.pow_add]
  exact two_pow_excess_le h

theorem halfEven_excess_le (n : Nat) : halfEven n (excess n) ≤ 2 ^ 53 :=
  (halfEven_le n _).trans (div_excess_lt n)

theorem nearestNat_mono {m n : Nat} (h : m ≤ n) : nearestNat m ≤ nearestNat n := by
  rcases Nat.eq_or_lt_of_le (excess_mono h) with heq | hlt
  · unfold nearestNat
    rw [heq]
    exact Nat.mul_le_mul_right _ (halfEven_mono h _)
  · -- a power of two lies between numbers with different numbers of bits
    calc nearestNat m ≤ 2 ^ 53 * 2 ^ excess m := Nat.mul_le_mul_right _ (halfEven_excess_le m)
      _ = 2 ^ (53 + excess m) := (Nat.pow_add 2 53 _).symm
      _ ≤ 2 ^ (52 + excess n) := Nat.pow_le_pow_right (by decide) (by omega)
      _ = 2 ^ 52 * 2 ^ excess n := Nat.pow_add 2 52 _
      _ ≤ n / 2 ^ excess n * 2 ^ excess n := Nat.mul_le_mul_right _ (le_div_excess (by omega))
      _ ≤ nearestNat n := Nat.mul_le_mul_right _ (div_le_halfEven n _)

theorem log2_mul_two_pow {n : Nat} (hn : n ≠ 0) (bits : Nat) : (n * 2 ^ bits).log2 = n.log2 + bits := by
  have hpos : 0 < 2 ^ bits := Nat.two_pow_pos bits
  rw [Nat.log2_eq_iff (by positivity), Nat.pow_add, Nat.mul_le_mul_right_iff hpos, Nat.add_right_comm, Nat.pow_add,
    Nat.mul_lt_mul_right hpos]
  exact ⟨Nat.log2_self_le hn, Nat.lt_log2_self⟩

/-- A number that is shifted up is rounded to the nearest one all the same. -/
theorem halfEven_scaled {n up bits : Nat} (hlog : n.log2 + up = 52 + bits) :
    halfEven (n * 2 ^ up) bits * 2 ^ (bits + 52 - up) = nearestNat n * 2 ^ 52 := by
  rcases Nat.le_total bits up with hle | hle
  · obtain ⟨more, rfl⟩ := Nat.exists_eq_add_of_le hle
    have hexcess : excess n = 0 := by
      unfold excess
      omega
    rw [nearestNat, hexcess, halfEven_zero, Nat.add_comm bits more, Nat.pow_add, ← Nat.mul_assoc, halfEven_mul,
      Nat.mul_assoc, ← Nat.pow_add, Nat.pow_zero, Nat.mul_one]
    congr 2
    omega
  · obtain ⟨more, rfl⟩ := Nat.exists_eq_add_of_le hle
    have hexcess : excess n = more := by
      unfold excess
      omega
    rw [nearestNat, hexcess, Nat.add_comm up more, halfEven_mul_add, Nat.mul_assoc, ← Nat.pow_add]
    congr 2
    omega

/-- The nearest integer with a mantissa of 53 bits. -/
def nearest (n : Int) : Int := n.sign * nearestNat n.natAbs

def IsShort (v : Int) : Prop := ∃ (a : Int) (bits : Nat), |a| ≤ 2 ^ 53 ∧ v = a * 2 ^ bits

theorem isShort_of_abs_le {v : Int} (h : |v| ≤ 2 ^ 53) : IsShort v := ⟨v, 0, h, by simp⟩

theorem IsShort.neg {v : Int} (h : IsShort v) : IsShort (-v) := by
  obtain ⟨a, bits, ha, rfl⟩ := h
  exact ⟨-a, bits, by rwa [abs_neg], by ring⟩

theorem nearest_natCast (n : Nat) : nearest n = nearestNat n := by
  rcases Nat.eq_zero_or_pos n with rfl | hn
  · rfl
  · rw [nearest, Int.sign_natCast_of_ne_zero hn.ne', Int.natAbs_natCast, one_mul]

theorem nearest_neg (n : Int) : nearest (-n) = -nearest n := by
  rw [nearest, Int.sign_neg, Int.natAbs_neg, nearest, neg_mul]

theorem isShort_nearest (n : Int) : IsShort (nearest n) := by
  have hnat (n : Nat) : IsShort (nearest n) := by
    refine ⟨halfEven n (excess n), excess n, ?_, ?_⟩
    · rw [Nat.abs_cast]
      exact_mod_cast halfEven_excess_le n
    · rw [nearest_natCast, nearestNat]
      push_cast
      ring
  rcases Int.eq_nat_or_neg n with ⟨m, rfl | rfl⟩
  · exact hnat m
  · rw [nearest_neg]
    exact (hnat m).neg

/-- Between two neighbours on the grid of the nearest number there is nothing with a mantissa of 53 bits. -/
theorem IsShort.le_or_ge {v : Int} (h : IsShort v) (n : Nat) :
    v ≤ (n / 2 ^ excess n * 2 ^ excess n : Nat) ∨ ((n / 2 ^ excess n + 1) * 2 ^ excess n : Nat) ≤ v := by
  obtain ⟨a, bits, ha, rfl⟩ := h
  by_contra hbetween
  obtain ⟨hlow, hhigh⟩ := not_or.1 hbetween
  rw [not_le] at hlow hhigh
  rcases Nat.lt_or_ge bits (excess n) with hlt | hge
  · -- a finer grid ends below the number
    have hfill := le_div_excess (Nat.zero_lt_of_lt hlt)
    have hbits : (a * 2 ^ bits : Int) ≤ 2 ^ 52 * 2 ^ excess n := by
      calc (a * 2 ^ bits : Int) ≤ 2 ^ 53 * 2 ^ bits := by
            exact mul_le_mul_of_nonneg_right ((le_abs_self a).trans ha) (by positivity)
        _ = 2 ^ 52 * 2 ^ (bits + 1) := by ring
        _ ≤ 2 ^ 52 * 2 ^ excess n := by
            exact mul_le_mul_of_nonneg_left (pow_le_pow_right₀ (by decide) hlt) (by positivity)
    have hcast : (2 ^ 52 * 2 ^ excess n : Int) ≤ (n / 2 ^ excess n * 2 ^ excess n : Nat) := by
      exact_mod_cast Nat.mul_le_mul_right (2 ^ excess n) hfill
    omega
  · obtain ⟨more, rfl⟩ := Nat.exists_eq_add_of_le hge
    have hpos : (0 : Int) < 2 ^ excess n := by positivity
    have hmultiple : (a * 2 ^ (excess n + more) : Int) = a * 2 ^ more * 2 ^ excess n := by ring
    rw [hmultiple] at hlow hhigh
    push_cast at hlow hhigh
    have h1 := lt_of_mul_lt_mul_right hlow hpos.le
    have h2 := lt_of_mul_lt_mul_right hhigh hpos.le
    omega

theorem abs_sub_nearestNat_le (n : Nat) {v : Int} (h : IsShort v) : |(n : Int) - nearestNat n| ≤ |n - v| := by
  have hsplit : n / 2 ^ excess n * 2 ^ excess n + n % 2 ^ excess n = n := Nat.div_add_mod' n (2 ^ excess n)
  have hlt : n % 2 ^ excess n < 2 ^ excess n := Nat.mod_lt _ (Nat.two_pow_pos _)
  have hgrid := h.le_or_ge n
  have hnearest : nearestNat n = n / 2 ^ excess n * 2 ^ excess n ∧ 2 * (n % 2 ^ excess n) ≤ 2 ^ excess n ∨
      nearestNat n = n / 2 ^ excess n * 2 ^ excess n + 2 ^ excess n ∧ 2 ^ excess n ≤ 2 * (n % 2 ^ excess n) := by
    unfold nearestNat
    rcases halfEven_cases n (excess n) with ⟨hrest, h⟩ | ⟨hrest, h⟩
    · exact .inl ⟨by rw [h], hrest⟩
    · exact .inr ⟨by rw [h, Nat.succ_mul], hrest⟩
  rw [Nat.succ_mul] at hgrid
  rw [abs_le, neg_le, le_abs, le_abs]
  omega

/-- Nothing with a mantissa of 53 bits is nearer than the nearest. -/
theorem abs_sub_nearest_le (n : Int) {v : Int} (h : IsShort v) : |n - nearest n| ≤ |n - v| := by
  rcases Int.eq_nat_or_neg n with ⟨m, rfl | rfl⟩
  · rw [nearest_natCast]
    exact abs_sub_nearestNat_le m h
  · have hneg := abs_sub_nearestNat_le m h.neg
    rw [nearest_neg, nearest_natCast, ← abs_neg, ← abs_neg (-(m : Int) - v)]
    convert hneg using 2 <;> ring

theorem IsShort.nearest_eq {n : Int} (h : IsShort n) : nearest n = n := by
  have hzero := abs_sub_nearest_le n h
  rw [sub_self, abs_zero, abs_nonpos_iff, sub_eq_zero] at hzero
  exact hzero.symm

theorem nearest_mono {m n : Int} (h : m ≤ n) : nearest m ≤ nearest n := by
  have hnonneg (k : Nat) : 0 ≤ nearest k := by
    rw [nearest_natCast]
    exact Int.natCast_nonneg _
  rcases Int.eq_nat_or_neg m with ⟨a, rfl | rfl⟩ <;> rcases Int.eq_nat_or_neg n with ⟨b, rfl | rfl⟩
  · rw [nearest_natCast, nearest_natCast]
    exact_mod_cast nearestNat_mono (by exact_mod_cast h)
  · obtain ⟨rfl, rfl⟩ : a = 0 ∧ b = 0 := by omega
    exact le_refl _
  · rw [nearest_neg]
    exact (neg_nonpos.2 (hnonneg a)).trans (hnonneg b)
  · rw [nearest_neg, nearest_neg, nearest_natCast, nearest_natCast, neg_le_neg_iff]
    exact_mod_cast nearestNat_mono (by omega)

end RuleFlow.Binary64
