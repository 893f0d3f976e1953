import RuleFlow.Backend.Memory
import RuleFlow.Proofs.Expression.Grammar
import RuleFlow.Proofs.Number.Integrality
import RuleFlow.Proofs.Walk.Visits
/-! # What math nodes compute

The operands of a math node are resolved in their order, and the first that is no number ends it.  Then the numbers are
folded as floats; a zero among the divisors ends it wherever it stands, and else it is the float at the end that has to
be finite.  Operands that are integers of mantissas of 53 bits are computed with exactly, as long as the results on the
way are of safe size.  Main statement: `visitKind_math`. -/
namespace RuleFlow

open Binary64 (Denotes IsShort nearest)

def Operand.given (outputs : Outputs) : Operand → Json
  | .value v => v
  | .output node => (outputs.get? node).getD .null

def Operand.describe (outputs : Outputs) : Operand → String
  | .value v => v.compact
  | .output node => "output of " ++ node ++ " (" ++ ((outputs.get? node).getD .null).compact ++ ")"

def Operand.Gives (outputs : Outputs) (operand : Operand) (n : Json.Number) : Prop :=
  operand.given outputs = .number n

section Operands

variable {outputs : Outputs} {operand : Operand} {operands : List Operand}

theorem Operand.resolve_eq : operand.resolve outputs =
    match (operand.given outputs).toFloat? with
    | some x => .ok x
    | none => .error (.nonNumericOperand (operand.describe outputs)) := by
  cases operand <;> rfl

theorem Operand.Gives.resolve_eq {n : Json.Number} (h : operand.Gives outputs n) :
    operand.resolve outputs = .ok n.toFloat := by
  unfold Operand.Gives at h
  rw [Operand.resolve_eq, h]
  rfl

theorem Operand.resolve_eq_error (h : ∀ n, ¬operand.Gives outputs n) :
    operand.resolve outputs = .error (.nonNumericOperand (operand.describe outputs)) := by
  unfold Operand.Gives at h
  rw [Operand.resolve_eq]
  cases hv : operand.given outputs with
  | number n => exact absurd hv (h n)
  | _ => rfl

theorem resolve_all {ns : List Json.Number} (h : List.Forall₂ (Operand.Gives outputs) operands ns) :
    operands.mapM (Operand.resolve outputs) = .ok (ns.map Json.Number.toFloat) := by
  induction h with
  | nil => rfl
  | cons hx _ ih =>
    rw [List.mapM_cons, hx.resolve_eq, ih]
    rfl

/-- The first operand that is no number ends the resolution, whatever comes after it. -/
theorem resolve_first {ns : List Json.Number} (h : List.Forall₂ (Operand.Gives outputs) operands ns)
    (hx : ∀ n, ¬operand.Gives outputs n) (rest : List Operand) :
    (operands ++ operand :: rest).mapM (Operand.resolve outputs) =
      .error (.nonNumericOperand (operand.describe outputs)) := by
  induction h with
  | nil =>
    rw [List.nil_append, List.mapM_cons, Operand.resolve_eq_error hx]
    rfl
  | cons hy _ ih =>
    rw [List.cons_append, List.mapM_cons, hy.resolve_eq, ih]
    rfl

end Operands

namespace MathOperation

section Folds

variable {α : Type} [Add α] [Sub α] [Mul α] [Div α]

def apply : MathOperation → α → α → α
  | .add => (· + ·)
  | .subtract => (· - ·)
  | .multiply => (· * ·)
  | .divide => (· / ·)

/-- The value at which an operation begins, and the operands that it takes from there. -/
def start? (o : MathOperation) (zero one : α) (xs : List α) : Option (α × List α) :=
  match o, xs with
  | .add, xs => some (zero, xs)
  | .multiply, xs => some (one, xs)
  | .subtract, x :: rest => some (x, rest)
  | .divide, x :: rest => some (x, rest)
  | _, [] => none

def partials (o : MathOperation) (zero one : α) (xs : List α) : List α :=
  match o.start? zero one xs with
  | some (x, rest) => rest.scanl o.apply x
  | none => []

def result? (o : MathOperation) (zero one : α) (xs : List α) : Option α :=
  (o.start? zero one xs).map fun (x, rest) => rest.foldl o.apply x

end Folds

theorem divideBy_eq (node : String) (x : Float) (ys : List Float) : divideBy node x ys =
    if ys.any (· == 0.0) then .error (.divisionByZero node) else .ok (ys.foldl (· / ·) x) := by
  induction ys generalizing x with
  | nil => rfl
  | cons y ys ih =>
    rw [divideBy, ih, List.any_cons, List.foldl_cons]
    cases y == 0.0 <;> rfl

/-- A fold begins if it can, and fails if there is a zero among the divisors. -/
theorem fold_eq (o : MathOperation) (node : String) (xs : List Float) : o.fold node xs =
    match o.start? 0.0 1.0 xs with
    | none => .error (.emptyOperands node o.name)
    | some (x, rest) =>
      if o = .divide ∧ rest.any (· == 0.0) = true then .error (.divisionByZero node)
      else .ok (rest.foldl o.apply x) := by
  cases o with
  | divide =>
    cases xs with
    | nil => rfl
    | cons x rest =>
      rw [show fold .divide node (x :: rest) = divideBy node x rest from rfl, divideBy_eq]
      simp [start?, apply]
  | subtract => cases xs <;> rfl
  | _ => rfl

end MathOperation

namespace Json.Number

def IsInteger : Number → Int → Prop
  | .int m _, k => m = k
  | .float x _, k => Binary64.integer? x = some k

/-- Whether a number is a zero: the integer, or one of the two floats. -/
def IsZero : Number → Prop
  | .int k _ => k = 0
  | .float x _ => x = 0.0 ∨ x = -0.0

theorem isZero_iff {n : Number} : n.IsZero ↔ (n.toFloat == 0.0) = true := by
  cases n with
  | int k hk => exact (Binary64.ofInt_beq_zero (Binary64.natAbs_lt_of_isWord hk)).symm
  | float x hx => exact Binary64.beq_zero_iff.symm

theorem denotes_toFloat {n : Number} {k : Int} (h : n.IsInteger k) :
    Denotes n.toFloat.toModel.unpack (nearest k) := by
  cases n with
  | int m hm =>
    obtain rfl : m = k := h
    exact Binary64.denotes_ofInt (Binary64.natAbs_lt_of_isWord hm)
  | float x hx =>
    have hdenotes := Binary64.denotes_iff.2 ⟨hx, h⟩
    rwa [hdenotes.isShort.nearest_eq]

theorem ofFinite_eq_int {x : Float} {v : Int} (h : Denotes x.toModel.unpack v) (hsafe : |v| ≤ maxSafe)
    (hx : x.isFinite = true) : ofFinite x hx = .int v (isWord_of_safe (abs_le.1 hsafe)) := by
  unfold ofFinite
  rw [(Binary64.denotes_iff.1 h).2]
  exact dif_pos (abs_le.1 hsafe)

end Json.Number

namespace MathOperation

open Json.Number (IsInteger maxSafe denotes_toFloat)

variable {o : MathOperation} {ns : List Json.Number} {ks : List Int}

/-- A step with an integer is exact if its result is of safe size.  A factor that is rounded makes a product that is
not, but for the product zero. -/
theorem denotes_apply {x : Float} {n : Json.Number} {v k : Int} (ho : o ≠ .divide) (hx : Denotes x.toModel.unpack v)
    (hn : n.IsInteger k) (hk : o = .multiply ∨ IsShort k) (hsafe : |o.apply v k| ≤ maxSafe) :
    Denotes (o.apply x n.toFloat).toModel.unpack (o.apply v k) := by
  have hdenotes := denotes_toFloat hn
  have hsmall : |o.apply v k| < 2 ^ 53 := hsafe.trans_lt (by decide)
  cases o with
  | divide => exact absurd rfl ho
  | add =>
    rw [(hk.resolve_left nofun).nearest_eq] at hdenotes
    exact Binary64.denotes_add hx hdenotes hsmall
  | subtract =>
    rw [(hk.resolve_left nofun).nearest_eq] at hdenotes
    exact Binary64.denotes_sub hx hdenotes hsmall
  | multiply =>
    have hproduct : v * nearest k = v * k := by
      rcases eq_or_ne v 0 with rfl | hv
      · rw [Int.zero_mul, Int.zero_mul]
      · have hle : |k| ≤ |v * k| := by
          rw [abs_mul]
          exact le_mul_of_one_le_left (abs_nonneg k) (Int.one_le_abs hv)
        rw [(Binary64.isShort_of_abs_le (hle.trans hsmall.le)).nearest_eq]
    have hproduct' := Binary64.denotes_mul hx hdenotes (by rw [hproduct]; exact hsmall)
    rwa [hproduct] at hproduct'

theorem denotes_foldl (ho : o ≠ .divide) (hns : List.Forall₂ IsInteger ns ks) {x : Float} {v : Int}
    (hx : Denotes x.toModel.unpack v) (hks : o = .multiply ∨ ∀ k ∈ ks, IsShort k)
    (hsafe : ∀ p ∈ ks.scanl o.apply v, |p| ≤ maxSafe) :
    Denotes ((ns.map Json.Number.toFloat).foldl o.apply x).toModel.unpack (ks.foldl o.apply v) ∧
      |ks.foldl o.apply v| ≤ maxSafe := by
  induction hns generalizing x v with
  | nil => exact ⟨hx, hsafe v (by simp)⟩
  | @cons n k ns ks hn _ ih =>
    rw [List.scanl_cons] at hsafe
    have hrest : ∀ p ∈ ks.scanl o.apply (o.apply v k), |p| ≤ maxSafe := fun p hp => hsafe p (List.mem_cons_of_mem _ hp)
    have hnext : |o.apply v k| ≤ maxSafe := hrest _ (by cases ks <;> simp)
    refine ih (denotes_apply ho hx hn (hks.imp_right fun h => h k List.mem_cons_self) hnext) ?_ hrest
    exact hks.imp_right fun h k hk => h k (List.mem_cons_of_mem _ hk)

/-- Where a fold of integers begins, the fold of their floats begins. -/
theorem start_exact (ho : o ≠ .divide) (hns : List.Forall₂ IsInteger ns ks) {v : Int} {rest : List Int}
    (hstart : o.start? 0 1 ks = some (v, rest)) (hks : o = .multiply ∨ ∀ k ∈ ks, IsShort k) :
    ∃ x ms, o.start? 0.0 1.0 (ns.map Json.Number.toFloat) = some (x, ms.map Json.Number.toFloat) ∧
      Denotes x.toModel.unpack v ∧ List.Forall₂ IsInteger ms rest ∧
      (o = .multiply ∨ ∀ k ∈ rest, IsShort k) := by
  cases o with
  | divide => exact absurd rfl ho
  | add =>
    cases hstart
    exact ⟨0.0, ns, rfl, .zero .positive, hns, hks⟩
  | multiply =>
    cases hstart
    exact ⟨1.0, ns, rfl, Binary64.denotes_iff.2 ⟨by decide +kernel, by decide +kernel⟩, hns, hks⟩
  | subtract =>
    cases hns with
    | nil => cases hstart
    | @cons n k ns ks hn hns =>
      cases hstart
      have hshort := hks.resolve_left nofun
      refine ⟨n.toFloat, ns, rfl, ?_, hns, .inr fun k hk => hshort k (List.mem_cons_of_mem _ hk)⟩
      rw [← (hshort v List.mem_cons_self).nearest_eq]
      exact denotes_toFloat hn

theorem result_exact (ho : o ≠ .divide) (hns : List.Forall₂ IsInteger ns ks)
    (hks : o = .multiply ∨ ∀ k ∈ ks, IsShort k) (hsafe : ∀ p ∈ o.partials 0 1 ks, |p| ≤ maxSafe) {t : Int}
    (ht : o.result? 0 1 ks = some t) :
    ∃ x, o.result? 0.0 1.0 (ns.map Json.Number.toFloat) = some x ∧ Denotes x.toModel.unpack t ∧ |t| ≤ maxSafe := by
  unfold result? partials at *
  cases hstart : o.start? 0 1 ks with
  | none => rw [hstart] at ht; cases ht
  | some start =>
    obtain ⟨v, rest⟩ := start
    rw [hstart] at ht hsafe
    cases ht
    obtain ⟨x, ms, hfloat, hx, hms, hrest⟩ := start_exact ho hns hstart hks
    rw [hfloat]
    exact ⟨_, rfl, denotes_foldl ho hms hx hrest hsafe⟩

variable {node : String} {operands : List Operand} {outputs : Outputs}

/-- What is computed from numbers: the fold, if it begins, does not come to a zero divisor and ends finite. -/
theorem evaluate_eq (hns : List.Forall₂ (Operand.Gives outputs) operands ns) : o.evaluate node operands outputs =
    match o.start? 0.0 1.0 (ns.map Json.Number.toFloat) with
    | none => .error (.emptyOperands node o.name)
    | some (x, rest) =>
      if o = .divide ∧ rest.any (· == 0.0) = true then .error (.divisionByZero node)
      else
        match Json.Number.ofResult? (rest.foldl o.apply x) with
        | some n => .ok (.number n)
        | none => .error (.nonNumericOperand (Decimal.messageText (rest.foldl o.apply x))) := by
  unfold evaluate
  rw [resolve_all hns]
  change (o.fold node _ >>= _) = _
  rw [fold_eq]
  rcases o.start? 0.0 1.0 (ns.map Json.Number.toFloat) with - | ⟨x, rest⟩
  · rfl
  · dsimp only
    split
    · rfl
    · rfl

theorem start?_eq_none_iff :
    o.start? 0.0 1.0 (ns.map Json.Number.toFloat) = none ↔ (o = .subtract ∨ o = .divide) ∧ ns = [] := by
  cases o <;> cases ns <;> simp [start?]

theorem any_zero_iff {x : Float} {rest : List Float}
    (h : o.start? 0.0 1.0 (ns.map Json.Number.toFloat) = some (x, rest)) :
    o = .divide ∧ rest.any (· == 0.0) = true ↔ o = .divide ∧ ∃ n ∈ ns.tail, n.IsZero := by
  refine and_congr_right ?_
  rintro rfl
  cases ns with
  | nil => cases h
  | cons n ns =>
    cases h
    simp [Json.Number.isZero_iff]

section Numbers

variable (hns : List.Forall₂ (Operand.Gives outputs) operands ns)
include hns

theorem evaluate_eq_divisionByZero_iff (hsome : ¬((o = .subtract ∨ o = .divide) ∧ ns = [])) :
    o.evaluate node operands outputs = .error (.divisionByZero node) ↔ o = .divide ∧ ∃ n ∈ ns.tail, n.IsZero := by
  obtain ⟨⟨x, rest⟩, hstart⟩ : ∃ start, o.start? 0.0 1.0 (ns.map Json.Number.toFloat) = some start :=
    Option.ne_none_iff_exists'.1 (mt start?_eq_none_iff.1 hsome)
  rw [evaluate_eq hns, hstart, ← any_zero_iff hstart]
  dsimp only
  split
  · next hzero => exact ⟨fun _ => hzero, fun _ => rfl⟩
  · next hzero =>
    refine ⟨fun h => ?_, fun h => absurd h hzero⟩
    split at h <;> cases h

/-- The output is the fold of the floats, which has to be finite. -/
theorem evaluate_eq_ok_iff (hzero : ¬(o = .divide ∧ ∃ n ∈ ns.tail, n.IsZero)) {x : Float}
    (hx : o.result? 0.0 1.0 (ns.map Json.Number.toFloat) = some x) (v : Json) :
    o.evaluate node operands outputs = .ok v ↔ ∃ h : x.isFinite = true, v = .number (.ofFinite x h) := by
  unfold result? at hx
  cases hstart : o.start? 0.0 1.0 (ns.map Json.Number.toFloat) with
  | none => rw [hstart] at hx; cases hx
  | some start =>
    obtain ⟨x, rest⟩ := start
    rw [hstart] at hx
    cases hx
    rw [evaluate_eq hns, hstart]
    dsimp only
    rw [if_neg (mt (any_zero_iff hstart).1 hzero)]
    cases hn : Json.Number.ofResult? (rest.foldl o.apply x) with
    | none =>
      refine ⟨nofun, fun ⟨h, _⟩ => ?_⟩
      rw [Json.Number.ofResult?_eq_some_iff.2 ⟨h, rfl⟩] at hn
      cases hn
    | some n =>
      obtain ⟨h, rfl⟩ := Json.Number.ofResult?_eq_some_iff.1 hn
      exact ⟨fun heq => ⟨h, (Except.ok.inj heq).symm⟩, fun ⟨_, heq⟩ => congrArg Except.ok heq.symm⟩

theorem evaluate_exact (ho : o ≠ .divide) (hks : List.Forall₂ IsInteger ns ks)
    (hshort : o = .multiply ∨ ∀ k ∈ ks, IsShort k) (hsafe : ∀ p ∈ o.partials 0 1 ks, |p| ≤ maxSafe) {t : Int}
    (ht : o.result? 0 1 ks = some t) : ∃ h, o.evaluate node operands outputs = .ok (.number (.int t h)) := by
  obtain ⟨x, hx, hdenotes, hbound⟩ := result_exact ho hks hshort hsafe ht
  have hfinite := Binary64.isFinite_of_denotes hdenotes
  have hoint := Json.Number.ofFinite_eq_int hdenotes hbound hfinite
  exact ⟨_, (evaluate_eq_ok_iff hns (fun h => ho h.1) hx _).2 ⟨hfinite, congrArg Json.number hoint.symm⟩⟩

end Numbers

end MathOperation

namespace Walk

variable {σ : Type}

/-- What a math node does: it leaves the world as it is and gives out what its operands make.  The first operand that is
no number ends it; no operands end a difference or a quotient, and a zero after the first operand ends a quotient; else
it gives out the fold of the floats if that is finite.  Integers are computed with exactly while the results on the way
are of safe size, if they have mantissas of 53 bits or are multiplied. -/
theorem visitKind_math (b : Backend σ) (limit : Limit) (ctx : Context) (id : String) (o : MathOperation)
    (operands : List Operand) (outputs : Outputs) (w : World σ) :
    ∃ result, (visitKind b limit ctx ⟨id, .math o operands⟩ outputs).run w = (result, w) ∧
      (∀ before operand after ns, operands = before ++ operand :: after →
        List.Forall₂ (Operand.Gives outputs) before ns → (∀ n, ¬operand.Gives outputs n) →
        result = .error (.nonNumericOperand (operand.describe outputs))) ∧
      ∀ ns, List.Forall₂ (Operand.Gives outputs) operands ns →
        ((o = .subtract ∨ o = .divide) ∧ ns = [] → result = .error (.emptyOperands id o.name)) ∧
        (¬((o = .subtract ∨ o = .divide) ∧ ns = []) →
          (result = .error (.divisionByZero id) ↔ o = .divide ∧ ∃ n ∈ ns.tail, n.IsZero) ∧
          (¬(o = .divide ∧ ∃ n ∈ ns.tail, n.IsZero) →
            ∃ x, o.result? 0.0 1.0 (ns.map Json.Number.toFloat) = some x ∧
              ∀ v, result = .ok v ↔ ∃ h : x.isFinite = true, v = .number (.ofFinite x h))) ∧
        ∀ ks t, List.Forall₂ Json.Number.IsInteger ns ks → o ≠ .divide →
          (o = .multiply ∨ ∀ k ∈ ks, IsShort k) → (∀ p ∈ o.partials 0 1 ks, |p| ≤ Json.Number.maxSafe) →
          o.result? 0 1 ks = some t → ∃ h, result = .ok (.number (.int t h)) := by
  refine ⟨o.evaluate id operands outputs, rfl, ?_, fun ns hns => ⟨?_, fun hsome => ⟨?_, fun hzero => ?_⟩, ?_⟩⟩
  · rintro before operand after ns rfl hbefore hoperand
    unfold MathOperation.evaluate
    rw [resolve_first hbefore hoperand]
    rfl
  · intro hnone
    rw [MathOperation.evaluate_eq hns, MathOperation.start?_eq_none_iff.2 hnone]
  · exact MathOperation.evaluate_eq_divisionByZero_iff hns hsome
  · obtain ⟨start, hstart⟩ := Option.ne_none_iff_exists'.1 (mt MathOperation.start?_eq_none_iff.1 hsome)
    have hx := congrArg (Option.map fun (x, rest) => rest.foldl o.apply x) hstart
    exact ⟨_, hx, MathOperation.evaluate_eq_ok_iff hns hzero hx⟩
  · intro ks t hks ho hshort hsafe ht
    exact MathOperation.evaluate_exact hns ho hks hshort hsafe ht

def margin : List Operand :=
  [.output "total", .value (.number (.int 9007199254740990 (by decide))), .value (.number (.int (-3) (by decide)))]

/-- The difference is exact, since every result on the way is of safe size. -/
theorem visitKind_margin :
    let total : Json.Number := .int 9007199254740991 (by decide)
    let ctx : Context := .of "r" ⟨"well", "t", "pump", "", "", [], [], []⟩ .null
    let visit := visitKind Memory.backend none ctx ⟨"margin", .math .subtract margin⟩ [("total", .number total)]
    MathOperation.subtract.partials 0 1 [9007199254740991, 9007199254740990, -3] = [9007199254740991, 1, 4] ∧
    ∃ h, (visit.run (.start {})).1 = .ok (.number (.int 4 h)) := by
  intro total ctx visit
  obtain ⟨result, hrun, -, hnumbers⟩ :=
    visitKind_math Memory.backend none ctx "margin" .subtract margin [("total", .number total)] (.start {})
  obtain ⟨-, -, hexact⟩ := hnumbers [total, .int 9007199254740990 (by decide), .int (-3) (by decide)]
    (.cons rfl (.cons rfl (.cons rfl .nil)))
  have hshort : ∀ k ∈ ([9007199254740991, 9007199254740990, -3] : List Int), IsShort k := fun k hk =>
    Binary64.isShort_of_abs_le (by revert k; decide)
  have hresult := hexact [9007199254740991, 9007199254740990, -3] 4 (.cons rfl (.cons rfl (.cons rfl .nil)))
    (by decide) (.inr hshort) (by decide) (by decide)
  refine ⟨by decide, ?_⟩
  rw [hrun]
  exact hresult

/-- An operand that is no float is added as the nearest float, although every exact result on the way is of safe
size. -/
theorem sum_of_rounded_operand :
    let a : Json.Number := .int (-9007199254740991) (by decide)
    let b : Json.Number := .int 9007199254740993 (by decide)
    let operands : List Operand := [.value (.number a), .value (.number b)]
    List.Forall₂ (Operand.Gives []) operands [a, b] ∧
    List.Forall₂ Json.Number.IsInteger [a, b] [-9007199254740991, 9007199254740993] ∧
    (∀ p ∈ MathOperation.add.partials 0 1 [-9007199254740991, 9007199254740993], |p| ≤ Json.Number.maxSafe) ∧
    MathOperation.add.result? 0 1 [-9007199254740991, 9007199254740993] = some (2 : Int) ∧
    (∃ h, MathOperation.add.evaluate "m" operands [] = .ok (.number (.int 1 h))) ∧
    ¬∃ h, MathOperation.add.evaluate "m" operands [] = .ok (.number (.int 2 h)) := by
  intro a b operands
  have hgives : List.Forall₂ (Operand.Gives []) operands [a, b] := .cons rfl (.cons rfl .nil)
  have hresult : Json.Number.ofResult? (0.0 + a.toFloat + b.toFloat) = some (.int 1 (by decide)) := by decide +kernel
  obtain ⟨hfinite, hone⟩ := Json.Number.ofResult?_eq_some_iff.1 hresult
  have hevaluate : MathOperation.add.evaluate "m" operands [] = .ok (.number (.int 1 (by decide))) :=
    (MathOperation.evaluate_eq_ok_iff (o := .add) hgives (fun h => nomatch h.1) rfl _).2 ⟨hfinite, congrArg _ hone⟩
  refine ⟨hgives, .cons rfl (.cons rfl .nil), by decide, by decide, ⟨_, hevaluate⟩, fun ⟨_, htwo⟩ => ?_⟩
  rw [hevaluate] at htwo
  cases htwo

end Walk

end RuleFlow
