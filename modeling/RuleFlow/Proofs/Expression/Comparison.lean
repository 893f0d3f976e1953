import RuleFlow.Expression.Evaluation
import RuleFlow.Proofs.Json.Equivalence
import RuleFlow.Proofs.Number.Integers
/-! # Integers under the operators of comparison

Numbers are compared as floats, so that of two integers the operators see the nearest ones with a mantissa of 53 bits.
Those that have such a mantissa are compared exactly; of others two may be found equal, but never in the wrong order.
Main statement: `integers_compared_as_nearest`. -/
namespace RuleFlow.Expression

open Binary64 (nearest IsShort)

def Binary.compares? (op : Binary) (m n : Int) : Option Bool :=
  match op with
  | .eq => some (m = n)
  | .ne => some (m ≠ n)
  | .lt => some (m < n)
  | .le => some (m ≤ n)
  | .gt => some (n < m)
  | .ge => some (n ≤ m)
  | _ => none

/-- Whether the operators of comparison find of two operands what they say of two integers. -/
def Compared (scope : Json) (l r : Tree) (m n : Int) : Prop :=
  ∀ op answer, Binary.compares? op m n = some answer → (Tree.binary op l r).eval scope = .ok (.bool answer)

theorem ok_decide {p q : Prop} [Decidable p] [Decidable q] (h : p ↔ q) :
    (.ok (.bool (decide p)) : Except Error Json) = .ok (.bool (decide q)) := by
  rw [decide_eq_decide.2 h]

/-- Numbers are compared by their multiples of the least positive float. -/
theorem applyBinary_numbers {op : Binary} {m n : Json.Number} {answer : Bool}
    (h : op.compares? (Binary64.units m.toFloat) (Binary64.units n.toFloat) = some answer) :
    applyBinary op (.number m) (.number n) = .ok (.bool answer) := by
  have hm := m.isFinite_toFloat
  have hn := n.isFinite_toFloat
  have hsame : Json.sameValue (.number m) (.number n) =
      decide (Binary64.units m.toFloat = Binary64.units n.toFloat) := by
    rw [Json.sameValue, Bool.eq_iff_iff, decide_eq_true_iff]
    exact Binary64.beq_iff_units hm hn
  cases op <;> simp only [Binary.compares?, Option.some_inj, reduceCtorEq] at h <;> subst h
  case eq => rw [applyBinary, hsame]
  case ne => rw [applyBinary, hsame, decide_not]
  case lt => exact ok_decide (Binary64.lt_iff_units hm hn)
  case le => exact ok_decide (Binary64.le_iff_units hm hn)
  case gt => exact ok_decide (Binary64.lt_iff_units hn hm)
  case ge => exact ok_decide (Binary64.le_iff_units hn hm)

theorem Binary.compares?_mul (op : Binary) (m n : Int) {c : Int} (hc : 0 < c) :
    op.compares? (m * c) (n * c) = op.compares? m n := by
  simp only [Binary.compares?, ne_eq, Int.mul_lt_mul_right hc, Int.mul_le_mul_right hc,
    Int.mul_eq_mul_right_iff hc.ne']

section Integers

variable {m n : Int} {hm : Json.IsWord m} {hn : Json.IsWord n}

theorem applyBinary_integers {op : Binary} {answer : Bool} (h : op.compares? (nearest m) (nearest n) = some answer) :
    applyBinary op (.number (.int m hm)) (.number (.int n hn)) = .ok (.bool answer) := by
  have hpos : (0 : Int) < Binary64.unitsOfOne := Int.natCast_pos.2 Binary64.unitsOfOne_pos
  apply applyBinary_numbers
  rw [Json.Number.toFloat, Json.Number.toFloat, Binary64.units_ofInt (Binary64.natAbs_lt_of_isWord hm),
    Binary64.units_ofInt (Binary64.natAbs_lt_of_isWord hn), op.compares?_mul _ _ hpos]
  exact h

variable {l r : Tree} {scope : Json}

theorem compared_nearest (hl : l.eval scope = .ok (.number (.int m hm)))
    (hr : r.eval scope = .ok (.number (.int n hn))) :
    Compared scope l r (nearest m) (nearest n) := by
  intro op answer h
  rw [Tree.eval, hl, hr]
  exact applyBinary_integers h

/-- Integers that have mantissas of 53 bits are compared exactly. -/
theorem compared_of_isShort (hl : l.eval scope = .ok (.number (.int m hm)))
    (hr : r.eval scope = .ok (.number (.int n hn))) (hms : IsShort m) (hns : IsShort n) : Compared scope l r m n := by
  have h := compared_nearest hl hr
  rwa [hms.nearest_eq, hns.nearest_eq] at h

/-- Two integers are compared as the nearest ones with mantissas of 53 bits, and so exactly if they have such mantissas,
as all up to 2^53 do; the lesser of two is never found to be the greater. -/
theorem integers_compared_as_nearest (hl : l.eval scope = .ok (.number (.int m hm)))
    (hr : r.eval scope = .ok (.number (.int n hn))) :
    Compared scope l r (nearest m) (nearest n) ∧
    (∀ k, IsShort (nearest k) ∧ ∀ v, IsShort v → |k - nearest k| ≤ |k - v|) ∧
    (IsShort m → IsShort n → Compared scope l r m n) ∧
    (|m| ≤ 2 ^ 53 → |n| ≤ 2 ^ 53 → Compared scope l r m n) ∧
    (m ≤ n → (Tree.binary .le l r).eval scope = .ok (.bool true) ∧
      (Tree.binary .gt l r).eval scope = .ok (.bool false)) ∧
    (n ≤ m → (Tree.binary .ge l r).eval scope = .ok (.bool true) ∧
      (Tree.binary .lt l r).eval scope = .ok (.bool false)) := by
  have hnearest := compared_nearest hl hr
  refine ⟨hnearest, fun k => ⟨Binary64.isShort_nearest k, fun v => Binary64.abs_sub_nearest_le k⟩,
    compared_of_isShort hl hr, fun hms hns => ?_, fun h => ?_, fun h => ?_⟩
  · exact compared_of_isShort hl hr (Binary64.isShort_of_abs_le hms) (Binary64.isShort_of_abs_le hns)
  · have hle := Binary64.nearest_mono h
    exact ⟨hnearest _ _ (by simp [Binary.compares?, hle]), hnearest _ _ (by simp [Binary.compares?, hle])⟩
  · have hle := Binary64.nearest_mono h
    exact ⟨hnearest _ _ (by simp [Binary.compares?, hle]), hnearest _ _ (by simp [Binary.compares?, hle])⟩

end Integers

def counts (a b : Json.Number) : Json := .object [("telemetry", .object [("a", .number a), ("b", .number b)])]

def count (name : String) : Tree := .path .telemetry [.key name]

/-- The greatest word is compared as the power of two after it, and the word after the least as the least. -/
theorem counts_compared_as_nearest :
    let a : Json.Number := .int 18446744073709551615 (by decide)
    let b : Json.Number := .int (-9223372036854775807) (by decide)
    let scope := counts a b
    (count "a").eval scope = .ok (.number a) ∧ (count "b").eval scope = .ok (.number b) ∧
    nearest 18446744073709551615 = 18446744073709551616 ∧ nearest (-9223372036854775807) = -9223372036854775808 ∧
    Compared scope (count "a") (count "b") (nearest 18446744073709551615) (nearest (-9223372036854775807)) ∧
    (Tree.binary .lt (count "a") (count "b")).eval scope = .ok (.bool false) := by
  intro a b scope
  have ha : (count "a").eval scope = .ok (.number a) := by rfl
  have hb : (count "b").eval scope = .ok (.number b) := by rfl
  obtain ⟨hnearest, -, -, -, -, hgreater⟩ := integers_compared_as_nearest ha hb
  exact ⟨ha, hb, by decide +kernel, by decide +kernel, hnearest, (hgreater (by decide)).2⟩

/-- The first integer that is no float is found equal to the one before it, and not greater. -/
theorem neighbours_not_told_apart :
    let a : Json.Number := .int 9007199254740993 (by decide)
    let b : Json.Number := .int 9007199254740992 (by decide)
    let scope := counts a b
    (count "a").eval scope = .ok (.number a) ∧ (count "b").eval scope = .ok (.number b) ∧
    (Tree.binary .eq (count "a") (count "b")).eval scope = .ok (.bool true) ∧
    (Tree.binary .gt (count "a") (count "b")).eval scope = .ok (.bool false) ∧
    ¬Compared scope (count "a") (count "b") 9007199254740993 9007199254740992 := by
  intro a b scope
  have ha : (count "a").eval scope = .ok (.number a) := by rfl
  have hb : (count "b").eval scope = .ok (.number b) := by rfl
  have hnearest : nearest 9007199254740993 = nearest 9007199254740992 := by decide +kernel
  have hcompared := compared_nearest ha hb
  rw [hnearest] at hcompared
  have hequal := hcompared .eq true (congrArg some (decide_eq_true rfl))
  have hgreater := hcompared .gt false (congrArg some (decide_eq_false (lt_irrefl _)))
  refine ⟨ha, hb, hequal, hgreater, fun h => ?_⟩
  have hexact := h .eq false rfl
  rw [hequal] at hexact
  cases hexact

end RuleFlow.Expression
