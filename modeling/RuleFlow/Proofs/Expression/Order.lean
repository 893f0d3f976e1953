import RuleFlow.Proofs.Expression.Comparison
/-! # The order of values

Two numbers or two texts stand in one of three relations, and the operators of order and those of equality agree on
which, although they find it in different ways.  Other values have no order, so that the operators of order refuse them;
equal or not are any two.  Main statement: `comparison_coherent`. -/
namespace RuleFlow.Expression

/-- How two numbers or two texts are ordered. -/
def order? : Json → Json → Option Ordering
  | .number m, .number n => some (Ord.compare (Binary64.units m.toFloat) (Binary64.units n.toFloat))
  | .string s, .string t => some (Ord.compare s t)
  | _, _ => none

/-- What an operator of comparison says of two values that are ordered in some way. -/
def Binary.finds? (op : Binary) (o : Ordering) : Option Bool :=
  match op with
  | .eq => some o.isEq
  | .ne => some (!o.isEq)
  | .lt => some o.isLT
  | .le => some o.isLE
  | .gt => some o.isGT
  | .ge => some o.isGE
  | _ => none

section LinearOrder

variable {α : Type} [LinearOrder α] (a b : α)

theorem isEq_compare : (Ord.compare a b).isEq = decide (a = b) := by
  rw [Bool.eq_iff_iff, Ordering.isEq_iff_eq_eq, compare_eq_iff_eq, decide_eq_true_iff]

theorem isLT_compare : (Ord.compare a b).isLT = decide (a < b) := by
  rw [Bool.eq_iff_iff, Ordering.isLT_iff_eq_lt, compare_lt_iff_lt, decide_eq_true_iff]

theorem isLE_compare : (Ord.compare a b).isLE = decide (a ≤ b) := by
  rw [Bool.eq_iff_iff, Ordering.isLE_iff_ne_gt, ← ne_eq, compare_le_iff_le, decide_eq_true_iff]

theorem isGT_compare : (Ord.compare a b).isGT = decide (b < a) := by
  rw [Bool.eq_iff_iff, Ordering.isGT_iff_eq_gt, compare_gt_iff_gt, decide_eq_true_iff]

theorem isGE_compare : (Ord.compare a b).isGE = decide (b ≤ a) := by
  rw [Bool.eq_iff_iff, Ordering.isGE_iff_ne_lt, ← ne_eq, compare_ge_iff_ge, decide_eq_true_iff]

end LinearOrder

variable {a b c : Json} {op : Binary} {answer : Bool} {o : Ordering}

theorem Binary.finds?_compare (op : Binary) (m n : Int) : op.finds? (Ord.compare m n) = op.compares? m n := by
  cases op <;> simp only [Binary.finds?, Binary.compares?, isEq_compare, isLT_compare, isLE_compare, isGT_compare,
    isGE_compare, decide_not]

theorem applyBinary_texts {s t : String} (h : op.finds? (Ord.compare s t) = some answer) :
    applyBinary op (.string s) (.string t) = .ok (.bool answer) := by
  have hsame : Json.sameValue (.string s) (.string t) = decide (s = t) := by rw [Json.sameValue, Bool.beq_eq_decide_eq]
  cases op <;> simp only [Binary.finds?, Option.some_inj, reduceCtorEq, isEq_compare, isLT_compare, isLE_compare,
    isGT_compare, isGE_compare] at h <;> subst h
  case eq => rw [applyBinary, hsame]
  case ne => rw [applyBinary, hsame]
  case lt => exact ok_decide Iff.rfl
  case le => exact ok_decide Iff.rfl
  case gt => exact ok_decide Iff.rfl
  case ge => exact ok_decide Iff.rfl

/-- All operators of comparison go by the order of two values, if they have one. -/
theorem applyBinary_of_order? (ho : order? a b = some o) (h : op.finds? o = some answer) :
    applyBinary op a b = .ok (.bool answer) := by
  cases a with
  | number m =>
    cases b with
    | number n =>
      cases ho
      apply applyBinary_numbers
      rw [← Binary.finds?_compare]
      exact h
    | _ => cases ho
  | string s =>
    cases b with
    | string t =>
      cases ho
      exact applyBinary_texts h
    | _ => cases ho
  | _ => cases ho

def Binary.orders : List Binary := [.lt, .le, .gt, .ge]

/-- Values without an order are refused by the operators of order. -/
theorem applyBinary_of_unordered (hnone : order? a b = none) (hop : op ∈ Binary.orders) :
    applyBinary op a b = .error (.typeMismatch
      ("operator " ++ op.name ++ " needs numbers, got " ++ a.typeName ++ " and " ++ b.typeName)) := by
  have hrefused (ofTexts : String → String → Bool) (ofNumbers : Float → Float → Bool) :
      compare op ofTexts ofNumbers a b = .error (.typeMismatch
        ("operator " ++ op.name ++ " needs numbers, got " ++ a.typeName ++ " and " ++ b.typeName)) := by
    cases a with
    | number m =>
      cases b with
      | number n => cases hnone
      | _ => rfl
    | string s =>
      cases b with
      | string t => cases hnone
      | _ => rfl
    | _ => cases b <;> rfl
  simp only [Binary.orders, List.mem_cons, List.not_mem_nil, or_false] at hop
  rcases hop with rfl | rfl | rfl | rfl <;> rw [applyBinary] <;> exact hrefused _ _

theorem order?_swap (a b : Json) : order? b a = (order? a b).map Ordering.swap := by
  cases a with
  | number m =>
    cases b with
    | number n => exact congrArg some Std.OrientedOrd.eq_swap
    | _ => rfl
  | string s =>
    cases b with
    | string t => exact congrArg some Std.OrientedOrd.eq_swap
    | _ => rfl
  | _ => cases b <;> rfl

theorem order?_trans (hab : order? a b = some .lt) (hbc : order? b c = some .lt) : order? a c = some .lt := by
  cases b with
  | number n =>
    cases a with
    | number m =>
      cases c with
      | number k =>
        simp only [order?, Option.some_inj, compare_lt_iff_lt] at hab hbc ⊢
        exact hab.trans hbc
      | _ => cases hbc
    | _ => cases hab
  | string t =>
    cases a with
    | string s =>
      cases c with
      | string u =>
        simp only [order?, Option.some_inj, compare_lt_iff_lt] at hab hbc ⊢
        exact hab.trans hbc
      | _ => cases hbc
    | _ => cases hab
  | _ => cases hbc

/-- Whether an operator is found to hold of the values of two expressions. -/
def Holds (scope : Json) (op : Binary) (l r : Tree) : Prop := (Tree.binary op l r).eval scope = .ok (.bool true)

inductive Comparable : Json → Json → Prop
  | numbers (m n : Json.Number) : Comparable (.number m) (.number n)
  | texts (s t : String) : Comparable (.string s) (.string t)

theorem comparable_iff : Comparable a b ↔ ∃ o, order? a b = some o := by
  constructor
  · intro h
    cases h with
    | numbers m n => exact ⟨_, rfl⟩
    | texts s t => exact ⟨_, rfl⟩
  · intro h
    obtain ⟨o, ho⟩ := h
    cases a with
    | number m =>
      cases b with
      | number n => exact .numbers m n
      | _ => cases ho
    | string s =>
      cases b with
      | string t => exact .texts s t
      | _ => cases ho
    | _ => cases ho

def Binary.comparisons : List Binary := .eq :: .ne :: Binary.orders

theorem Binary.exists_finds? (hop : op ∈ Binary.comparisons) (o : Ordering) : ∃ answer, op.finds? o = some answer := by
  simp only [Binary.comparisons, Binary.orders, List.mem_cons, List.not_mem_nil, or_false] at hop
  rcases hop with rfl | rfl | rfl | rfl | rfl | rfl <;> exact ⟨_, rfl⟩

def Binary.relations : List Binary := [.lt, .eq, .gt]

theorem Binary.mem_comparisons (hop : op ∈ Binary.relations) : op ∈ Binary.comparisons := by
  simp only [Binary.relations, List.mem_cons, List.not_mem_nil, or_false] at hop
  rcases hop with rfl | rfl | rfl <;> simp [Binary.comparisons, Binary.orders]

theorem Binary.existsUnique_relation (o : Ordering) :
    ∃! op, op ∈ Binary.relations ∧ op.finds? o = some true := by
  have hunique {op other : Binary} (hop : op ∈ Binary.relations) (h : op.finds? o = some true)
      (hother : other ∈ Binary.relations) (h' : other.finds? o = some true) : op = other := by
    simp only [Binary.relations, List.mem_cons, List.not_mem_nil, or_false] at hop hother
    rcases hop with rfl | rfl | rfl <;> rcases hother with rfl | rfl | rfl <;> cases o <;>
      simp [Binary.finds?] at h h' ⊢
  have hfound : ∃ op ∈ Binary.relations, op.finds? o = some true := by
    cases o with
    | lt => exact ⟨.lt, by simp [Binary.relations], rfl⟩
    | eq => exact ⟨.eq, by simp [Binary.relations], rfl⟩
    | gt => exact ⟨.gt, by simp [Binary.relations], rfl⟩
  obtain ⟨op, hop, h⟩ := hfound
  exact ⟨op, ⟨hop, h⟩, fun other hother => hunique hother.1 hother.2 hop h⟩

section Values

variable {scope : Json} {l r m : Tree}

theorem eval_binary (hl : l.eval scope = .ok a) (hr : r.eval scope = .ok b) (op : Binary) :
    (Tree.binary op l r).eval scope = applyBinary op a b := by
  rw [Tree.eval, hl, hr]
  rfl

/-- What holds of two expressions is found to hold of their values. -/
theorem Holds.exists_values (h : Holds scope op l r) :
    ∃ a b, l.eval scope = .ok a ∧ r.eval scope = .ok b ∧ applyBinary op a b = .ok (.bool true) := by
  rw [Holds, Tree.eval] at h
  cases hl : l.eval scope with
  | error e =>
    rw [hl] at h
    cases h
  | ok a =>
    cases hr : r.eval scope with
    | error e =>
      rw [hl, hr] at h
      cases h
    | ok b =>
      rw [hl, hr] at h
      exact ⟨a, b, rfl, rfl, h⟩

theorem holds_iff (hl : l.eval scope = .ok a) (hr : r.eval scope = .ok b) (ho : order? a b = some o)
    (h : op.finds? o = some answer) : Holds scope op l r ↔ answer = true := by
  rw [Holds, eval_binary hl hr, applyBinary_of_order? ho h]
  simp

theorem holds_lt_iff (hl : l.eval scope = .ok a) (hr : r.eval scope = .ok b) :
    Holds scope .lt l r ↔ order? a b = some .lt := by
  cases ho : order? a b with
  | none =>
    have hlt : Binary.lt ∈ Binary.orders := by simp [Binary.orders]
    have hrefused := applyBinary_of_unordered ho hlt
    rw [Holds, eval_binary hl hr, hrefused]
    simp
  | some o =>
    rw [holds_iff hl hr ho rfl, Option.some_inj, Ordering.isLT_iff_eq_lt]

theorem Holds.lt_trans (hlr : Holds scope .lt l r) (hrm : Holds scope .lt r m) : Holds scope .lt l m := by
  obtain ⟨a, b, hl, hr, -⟩ := hlr.exists_values
  obtain ⟨b', c, hr', hm, -⟩ := hrm.exists_values
  obtain rfl : b = b' := Except.ok.inj (hr.symm.trans hr')
  rw [holds_lt_iff hl hr] at hlr
  rw [holds_lt_iff hr hm] at hrm
  exact (holds_lt_iff hl hm).2 (order?_trans hlr hrm)

/-- Of two numbers or two texts exactly one is found of less, equal and greater; the other operators of order go by
these, and less is transitive.  Other values are refused by the operators of order.  Equality and inequality never fail
and are never the same. -/
theorem comparison_coherent (hl : l.eval scope = .ok a) (hr : r.eval scope = .ok b) :
    (Comparable a b →
      (∀ op ∈ Binary.comparisons, ∃ answer, (Tree.binary op l r).eval scope = .ok (.bool answer)) ∧
      (∃! op, op ∈ Binary.relations ∧ Holds scope op l r) ∧
      (Holds scope .le l r ↔ Holds scope .lt l r ∨ Holds scope .eq l r) ∧
      (Holds scope .ge l r ↔ Holds scope .gt l r ∨ Holds scope .eq l r) ∧
      (Holds scope .gt l r ↔ Holds scope .lt r l) ∧
      ∀ m, Holds scope .lt l r → Holds scope .lt r m → Holds scope .lt l m) ∧
    (¬Comparable a b → ∀ op ∈ Binary.orders, ∃ details,
      (Tree.binary op l r).eval scope = .error (.typeMismatch details)) ∧
    ∃ same, (Tree.binary .eq l r).eval scope = .ok (.bool same) ∧
      (Tree.binary .ne l r).eval scope = .ok (.bool !same) := by
  refine ⟨fun hcomparable => ?_, fun hother op hop => ?_, Json.sameValue a b, ?_, ?_⟩
  · obtain ⟨o, ho⟩ := comparable_iff.1 hcomparable
    have hanswers (op : Binary) (hop : op ∈ Binary.comparisons) :
        ∃ answer, (Tree.binary op l r).eval scope = .ok (.bool answer) := by
      obtain ⟨answer, h⟩ := Binary.exists_finds? hop o
      exact ⟨answer, (eval_binary hl hr op).trans (applyBinary_of_order? ho h)⟩
    have hswapped : Holds scope .gt l r ↔ Holds scope .lt r l := by
      rw [holds_iff hl hr ho rfl, holds_lt_iff hr hl, order?_swap, ho]
      cases o <;> simp
    refine ⟨hanswers, ?_, ?_, ?_, hswapped, fun m => Holds.lt_trans⟩
    · obtain ⟨op, ⟨hop, hfinds⟩, hunique⟩ := Binary.existsUnique_relation o
      refine ⟨op, ⟨hop, (holds_iff hl hr ho hfinds).2 rfl⟩, fun other hother => ?_⟩
      obtain ⟨hmem, hholds⟩ := hother
      obtain ⟨answer, hanswer⟩ := Binary.exists_finds? (Binary.mem_comparisons hmem) o
      obtain rfl : answer = true := (holds_iff hl hr ho hanswer).1 hholds
      exact hunique other ⟨hmem, hanswer⟩
    · rw [holds_iff hl hr ho rfl, holds_iff hl hr ho rfl, holds_iff hl hr ho rfl]
      cases o <;> simp
    · rw [holds_iff hl hr ho rfl, holds_iff hl hr ho rfl, holds_iff hl hr ho rfl]
      cases o <;> simp
  · have hnone : order? a b = none := by
      rw [Option.eq_none_iff_forall_ne_some]
      exact fun o ho => hother (comparable_iff.2 ⟨o, ho⟩)
    exact ⟨_, (eval_binary hl hr op).trans (applyBinary_of_unordered hnone hop)⟩
  · exact eval_binary hl hr .eq
  · exact eval_binary hl hr .ne

end Values

/-- An integer is found to be less than a float, and so neither equal to it nor greater; a text has no order with it. -/
theorem mixed_counts_coherent :
    let a : Json.Number := .int 2 (by decide)
    let b : Json.Number := .float 2.5 (by decide +kernel)
    let scope : Json := .object [("telemetry", .object [("a", .number a), ("b", .number b), ("c", .string "2")])]
    (count "a").eval scope = .ok (.number a) ∧ (count "b").eval scope = .ok (.number b) ∧
    (count "c").eval scope = .ok (.string "2") ∧
    Holds scope .lt (count "a") (count "b") ∧ ¬Holds scope .eq (count "a") (count "b") ∧
    Holds scope .le (count "a") (count "b") ∧ Holds scope .gt (count "b") (count "a") ∧
    ∃ details, (Tree.binary .lt (count "a") (count "c")).eval scope = .error (.typeMismatch details) := by
  intro a b scope
  have ha : (count "a").eval scope = .ok (.number a) := by rfl
  have hb : (count "b").eval scope = .ok (.number b) := by rfl
  have hc : (count "c").eval scope = .ok (.string "2") := by rfl
  have hlt : Holds scope .lt (count "a") (count "b") := by
    rw [Holds, eval_binary ha hb]
    exact congrArg (fun answer => Except.ok (Json.bool answer)) (decide_eq_true (by decide +kernel))
  obtain ⟨hordered, -, -⟩ := comparison_coherent ha hb
  obtain ⟨-, ⟨found, -, hunique⟩, hle, -, -, -⟩ := hordered (.numbers a b)
  obtain ⟨hswapped, -, -⟩ := comparison_coherent hb ha
  obtain ⟨-, -, -, -, hgt, -⟩ := hswapped (.numbers b a)
  obtain ⟨-, hrefused, -⟩ := comparison_coherent ha hc
  refine ⟨ha, hb, hc, hlt, fun heq => ?_, hle.2 (.inl hlt), hgt.2 hlt, hrefused nofun .lt (by simp [Binary.orders])⟩
  have hsame := (hunique .lt ⟨by simp [Binary.relations], hlt⟩).trans
    (hunique .eq ⟨by simp [Binary.relations], heq⟩).symm
  cases hsame

end RuleFlow.Expression
