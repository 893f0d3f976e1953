import RuleFlow.Expression.Evaluation
import RuleFlow.Proofs.Agreement
import RuleFlow.Proofs.Json.Equality
/-! # Evaluation respects equality

In scopes that are equal by value an expression fails with the same error or has values that are equal by value.  Of a
number nothing but its float is looked at, and of a zero not even the sign: the result of a computation forgets it, and
division by either zero is refused.  Main statement: `eval_respects_sameValue`. -/
namespace RuleFlow.Expression

open Binary64 (Same)
open Json (sameValue)

abbrev SameValue (a b : Json) : Prop := sameValue a b = true

abbrev SamePair (p q : Float × Float) : Prop := Same p.1 q.1 ∧ Same p.2 q.2

variable {a a' b b' scope scope' : Json}

theorem agree_of_eq {x y : Except Error Json} (h : x = y) : Agree SameValue x y :=
  h ▸ Agree.refl Json.sameValue_refl x

theorem readRoot_respects (h : SameValue scope scope') (root : Root) :
    SameValue (readRoot scope root) (readRoot scope' root) := by
  cases scope with
  | object members =>
    obtain ⟨members', rfl, hmembers⟩ := Json.sameValue_object.1 h
    exact Json.sameValue_get? hmembers root.name
  | null => rw [Json.sameValue_null.1 h]; exact Json.sameValue_refl _
  | bool x => rw [Json.sameValue_bool.1 h]; exact Json.sameValue_refl _
  | number m =>
    obtain ⟨n, rfl, -⟩ := Json.sameValue_number.1 h
    exact Json.sameValue_refl _
  | string s => rw [Json.sameValue_string.1 h]; exact Json.sameValue_refl _
  | array items =>
    obtain ⟨items', rfl, -⟩ := Json.sameValue_array.1 h
    exact Json.sameValue_refl _

theorem read_respects (h : SameValue a a') (segment : Segment) :
    Agree SameValue (read a segment) (read a' segment) := by
  cases a with
  | object members =>
    obtain ⟨members', rfl, hmembers⟩ := Json.sameValue_object.1 h
    cases segment with
    | key name => exact .ok (Json.sameValue_get? hmembers name)
    | index n => exact .ok (Json.sameValue_get? hmembers (toString n))
  | array items =>
    obtain ⟨items', rfl, hitems⟩ := Json.sameValue_array.1 h
    cases segment with
    | key name =>
      rw [read, read, Json.length_eq_of_sameItems hitems]
      exact agree_of_eq rfl
    | index n => exact .ok (Json.sameValue_item hitems n)
  | number m =>
    obtain ⟨n, rfl, -⟩ := Json.sameValue_number.1 h
    cases segment <;> exact agree_of_eq rfl
  | null => rw [Json.sameValue_null.1 h]; exact agree_of_eq rfl
  | bool x => rw [Json.sameValue_bool.1 h]; exact agree_of_eq rfl
  | string s => rw [Json.sameValue_string.1 h]; exact agree_of_eq rfl

theorem result_respects {x y : Float} (h : Same x y) : Agree SameValue (result x) (result y) := by
  apply agree_of_eq
  rw [result, result, Json.Number.ofResult?_congr h]

/-- What is done with two texts does not differ between equal values, which are the same texts or no texts. -/
theorem texts_respect (ofTexts : String → String → Except Error Json) {other other' : Except Error Json}
    (h : Agree SameValue other other') :
    SameValue a a' → SameValue b b' → Agree SameValue
      (match a, b with
        | .string s, .string t => ofTexts s t
        | _, _ => other)
      (match a', b' with
        | .string s, .string t => ofTexts s t
        | _, _ => other') := by
  intro ha hb
  split
  · rename_i s t
    rw [Json.sameValue_string.1 ha, Json.sameValue_string.1 hb]
    exact agree_of_eq rfl
  · rename_i hno
    split
    · rename_i s t
      have hs := Json.sameValue_string.1 (Json.sameValue_symm ha)
      have ht := Json.sameValue_string.1 (Json.sameValue_symm hb)
      exact (hno s t hs ht).elim
    · exact h

section Operators

variable (op : Binary) (ha : SameValue a a') (hb : SameValue b b')

include ha hb

theorem numbers_respects : Agree SamePair (numbers op a b) (numbers op a' b') := by
  have hx := Json.same_toFloat? ha
  have hy := Json.same_toFloat? hb
  unfold numbers
  rw [Json.typeName_eq_of_sameValue ha, Json.typeName_eq_of_sameValue hb]
  revert hx hy
  generalize a.toFloat? = x, a'.toFloat? = x', b.toFloat? = y, b'.toFloat? = y'
  intro hx hy
  cases hx with
  | none => exact .error _
  | some hx =>
    cases hy with
    | none => exact .error _
    | some hy => exact .ok ⟨hx, hy⟩

theorem arithmetic_respects {f : Float → Float → Float}
    (hf : ∀ {x x' y y'}, Same x x' → Same y y' → Same (f x y) (f x' y')) :
    Agree SameValue (arithmetic op f a b) (arithmetic op f a' b') :=
  (numbers_respects op ha hb).bind fun _ _ h => result_respects (hf h.1 h.2)

theorem quotient_respects {f : Float → Float → Float}
    (hf : ∀ {x x' y y'}, Same x x' → Same y y' → (y == 0.0) = false → Same (f x y) (f x' y')) :
    Agree SameValue (quotient op f a b) (quotient op f a' b') := by
  apply (numbers_respects op ha hb).bind
  rintro ⟨x, y⟩ ⟨x', y'⟩ ⟨hx, hy⟩
  have hzero : (y == 0.0) = (y' == 0.0) := hy.beq (Same.refl 0.0)
  dsimp only
  cases hy0 : y == 0.0 with
  | true =>
    rw [if_pos rfl, if_pos (hzero ▸ hy0)]
    exact .error _
  | false =>
    rw [if_neg Bool.false_ne_true, if_neg (by rw [← hzero, hy0]; exact Bool.false_ne_true)]
    exact result_respects (hf hx hy hy0)

theorem compare_respects (ofTexts : String → String → Bool) {ofNumbers : Float → Float → Bool}
    (hf : ∀ {x x' y y'}, Same x x' → Same y y' → ofNumbers x y = ofNumbers x' y') :
    Agree SameValue (compare op ofTexts ofNumbers a b) (compare op ofTexts ofNumbers a' b') := by
  refine texts_respect (fun s t => .ok (.bool (ofTexts s t))) ?_ ha hb
  apply (numbers_respects op ha hb).bind
  rintro ⟨x, y⟩ ⟨x', y'⟩ ⟨hx, hy⟩
  apply agree_of_eq
  dsimp only
  rw [hf hx hy]

theorem applyBinary_respects : Agree SameValue (applyBinary op a b) (applyBinary op a' b') := by
  cases op with
  | eq =>
    rw [applyBinary, applyBinary, Json.sameValue_congr ha hb]
    exact agree_of_eq rfl
  | ne =>
    rw [applyBinary, applyBinary, Json.sameValue_congr ha hb]
    exact agree_of_eq rfl
  | lt => exact compare_respects _ ha hb _ fun hx hy => decide_eq_decide.2 (hx.lt hy)
  | le => exact compare_respects _ ha hb _ fun hx hy => decide_eq_decide.2 (hx.le hy)
  | gt => exact compare_respects _ ha hb _ fun hx hy => decide_eq_decide.2 (hy.lt hx)
  | ge => exact compare_respects _ ha hb _ fun hx hy => decide_eq_decide.2 (hy.le hx)
  | add => exact texts_respect (fun s t => .ok (.string (s ++ t))) (arithmetic_respects _ ha hb Same.add) ha hb
  | sub => exact arithmetic_respects _ ha hb Same.sub
  | mul => exact arithmetic_respects _ ha hb Same.mul
  | div => exact quotient_respects _ ha hb Same.div
  | rem => exact quotient_respects _ ha hb Same.remainder

end Operators

theorem applyUnary_respects (op : Unary) (h : SameValue a a') :
    Agree SameValue (applyUnary op a) (applyUnary op a') := by
  cases op with
  | not =>
    rw [applyUnary, applyUnary, Json.truthy_eq_of_sameValue h]
    exact agree_of_eq rfl
  | neg =>
    have hx := Json.same_toFloat? h
    rw [applyUnary, applyUnary, Json.typeName_eq_of_sameValue h]
    revert hx
    generalize a.toFloat? = x, a'.toFloat? = x'
    intro hx
    cases hx with
    | none => exact .error _
    | some hx => exact result_respects hx.neg

/-- Whether expressions carry a relation between values from what they read to what they give. -/
structure Congruent (R : Json → Json → Prop) : Prop where
  refl (a : Json) : R a a
  truthy {a a' : Json} (h : R a a') : a.truthy = a'.truthy
  read {a a' : Json} (h : R a a') (segment : Segment) : Agree R (read a segment) (read a' segment)
  unary (op : Unary) {a a' : Json} (h : R a a') : Agree R (applyUnary op a) (applyUnary op a')
  binary (op : Binary) {a a' b b' : Json} (ha : R a a') (hb : R b b') :
    Agree R (applyBinary op a b) (applyBinary op a' b')

theorem congruent_sameValue : Congruent SameValue where
  refl := Json.sameValue_refl
  truthy := Json.truthy_eq_of_sameValue
  read := read_respects
  unary op _ _ := applyUnary_respects op
  binary op _ _ _ _ := applyBinary_respects op

namespace Congruent

variable {R : Json → Json → Prop}

theorem steps (hR : Congruent R) (h : R a a') (steps : List Segment) :
    Agree R (steps.foldlM Expression.read a) (steps.foldlM Expression.read a') := by
  induction steps generalizing a a' with
  | nil => exact .ok h
  | cons step steps ih =>
    rw [List.foldlM_cons, List.foldlM_cons]
    exact (hR.read h step).bind fun _ _ => ih

theorem bind_truthy (hR : Congruent R) {x y : Except Error Json} (h : Agree R x y)
    (f f' : Bool → Except Error Json) (hf : ∀ t, Agree R (f t) (f' t)) :
    Agree R (x >>= fun v => f v.truthy) (y >>= fun v => f' v.truthy) := by
  apply h.bind
  intro v w hvw
  rw [hR.truthy hvw]
  exact hf _

/-- A tree is evaluated alike in two scopes that are alike at its roots. -/
theorem eval (hR : Congruent R) (e : Tree) (h : ∀ r ∈ e.roots, R (readRoot scope r) (readRoot scope' r)) :
    Agree R (e.eval scope) (e.eval scope') := by
  induction e with
  | literal v => exact .refl hR.refl _
  | path root steps => exact hR.steps (h root List.mem_cons_self) steps
  | unary op e ih => exact (ih h).bind fun _ _ => hR.unary op
  | binary op l r ihl ihr =>
    obtain ⟨hl, hr⟩ := List.forall_mem_append.1 h
    exact (ihl hl).bind fun _ _ ha => (ihr hr).bind fun _ _ hb => hR.binary op ha hb
  | and l r ihl ihr =>
    obtain ⟨hl, hr⟩ := List.forall_mem_append.1 h
    apply hR.bind_truthy (ihl hl) (fun t => if t then _ else _) (fun t => if t then _ else _)
    intro t
    cases t with
    | true => exact hR.bind_truthy (ihr hr) (pure ∘ .bool) (pure ∘ .bool) fun t => .refl hR.refl _
    | false => exact .refl hR.refl _
  | or l r ihl ihr =>
    obtain ⟨hl, hr⟩ := List.forall_mem_append.1 h
    apply hR.bind_truthy (ihl hl) (fun t => if t then _ else _) (fun t => if t then _ else _)
    intro t
    cases t with
    | true => exact .refl hR.refl _
    | false => exact hR.bind_truthy (ihr hr) (pure ∘ .bool) (pure ∘ .bool) fun t => .refl hR.refl _

theorem holds (hR : Congruent R) (e : Tree) (h : ∀ r ∈ e.roots, R (readRoot scope r) (readRoot scope' r)) :
    e.holds scope = e.holds scope' := by
  apply Agree.eq
  exact (hR.eval e h).bind fun v w hvw => .ok (hR.truthy hvw)

end Congruent

theorem Tree.eval_respects (h : SameValue scope scope') (e : Tree) :
    Agree SameValue (e.eval scope) (e.eval scope') :=
  congruent_sameValue.eval e fun r _ => readRoot_respects h r

theorem Tree.holds_eq (h : SameValue scope scope') (e : Tree) : e.holds scope = e.holds scope' :=
  congruent_sameValue.holds e fun r _ => readRoot_respects h r

/-- In equal scopes an expression fails with the same error or has equal values, and it holds in both or in none. -/
theorem eval_respects_sameValue (e : Expression) {scope scope' : Json} (h : Json.sameValue scope scope' = true) :
    ((∃ error, e.eval scope = .error error ∧ e.eval scope' = .error error) ∨
      ∃ v v', e.eval scope = .ok v ∧ e.eval scope' = .ok v' ∧ Json.sameValue v v' = true) ∧
    e.holds scope = e.holds scope' := by
  constructor
  · unfold Expression.eval
    have hagree := e.tree.eval_respects h
    revert hagree
    generalize e.tree.eval scope = x, e.tree.eval scope' = y
    intro hagree
    cases hagree with
    | error error => exact .inl ⟨error, rfl, rfl⟩
    | ok hvw => exact .inr ⟨_, _, rfl, rfl, hvw⟩
  · exact e.tree.holds_eq h

def reading (load offset : Json.Number) : Json :=
  .object [("telemetry", .object [("load", .number load), ("offset", .number offset)])]

/-- The loads 600 and 600.0 with the offsets 0 and -0.0 are told apart neither by a quotient nor by a division by the
offset. -/
theorem eval_reading_floats :
    let integers := reading (.int 600 (by decide)) (.int 0 (by decide))
    let floats := reading (.float 600.0 (by decide +kernel)) (.float (-0.0) (by decide +kernel))
    let e : Expression := ⟨"telemetry.load % 7 >= telemetry.offset && telemetry.load / telemetry.offset > 1",
      .and (.binary .ge (.binary .rem (.path .telemetry [.key "load"]) (.literal (.number (.int 7 (by decide)))))
          (.path .telemetry [.key "offset"]))
        (.binary .gt (.binary .div (.path .telemetry [.key "load"]) (.path .telemetry [.key "offset"]))
          (.literal (.number (.int 1 (by decide)))))⟩
    Json.sameValue integers floats = true ∧
      ((∃ error, e.eval integers = .error error ∧ e.eval floats = .error error) ∨
        ∃ v v', e.eval integers = .ok v ∧ e.eval floats = .ok v' ∧ Json.sameValue v v' = true) ∧
      e.holds integers = e.holds floats := by
  intro integers floats e
  have h : Json.sameValue integers floats = true := by decide +kernel
  exact ⟨h, eval_respects_sameValue e h⟩

end RuleFlow.Expression
