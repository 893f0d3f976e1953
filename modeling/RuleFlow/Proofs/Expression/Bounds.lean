import RuleFlow.Expression.Evaluation
import RuleFlow.Proofs.Expression.Parsing
import RuleFlow.Proofs.Expression.Spelling
/-! # Bounds of parsed trees

The levels and the operators that parsing grants bound the tree that it makes: the operators in all, the unary ones on
each way to a leaf, and so the height, and with that the calls that evaluation has open at a time.  Main statements:
`Derives.exists_unaryDepth_le`, `evalWithin_of_height_le` and `ofSource_bounded`. -/
namespace RuleFlow.Expression

/-- Evaluation with a bound on the calls that are open at a time.  There is no result if one more is needed. -/
def Tree.evalWithin (scope : Json) : Nat → Tree → ExceptT Error Option Json
  | 0, _ => none
  | _ + 1, .literal v => return v
  | _ + 1, .path root steps => liftM (steps.foldlM read (readRoot scope root))
  | calls + 1, .unary op e => do applyUnary op (← e.evalWithin scope calls)
  | calls + 1, .binary op l r => do
    let a ← l.evalWithin scope calls
    let b ← r.evalWithin scope calls
    applyBinary op a b
  | calls + 1, .and l r => do
    if (← l.evalWithin scope calls).truthy then return .bool (← r.evalWithin scope calls).truthy
    else return .bool false
  | calls + 1, .or l r => do
    if (← l.evalWithin scope calls).truthy then return .bool true
    else return .bool (← r.evalWithin scope calls).truthy

theorem unaryDepth_build {row : Row} (h : row ∈ rows) {o : Operator} {build : Tree → Tree → Tree}
    (ho : (o, build) ∈ row) (a b : Tree) : (build a b).unaryDepth = max a.unaryDepth b.unaryDepth := by
  rcases build_cases h ho with rfl | rfl | ⟨op, rfl⟩ <;> rfl

/-- Some token is nested as deep as the unary operators of the tree are. -/
theorem Derives.exists_unaryDepth_le {rs : List Row} {ts : List Token} {ns : List Nat} {e : Tree}
    (h : Derives rs ts ns e) (hrs : rs <:+ rows) : ∃ n ∈ ns, e.unaryDepth ≤ n := by
  induction h with
  | operand _ ih => exact ih ((List.suffix_cons _ _).trans hrs)
  | @binary row tighter o build l r nl nr a b _ ho _ ihl ihr =>
    rw [unaryDepth_build (row_mem_of_suffix hrs) ho]
    obtain ⟨n, hn, hle⟩ := ihl hrs
    obtain ⟨n', hn', hle'⟩ := ihr ((List.suffix_cons _ _).trans hrs)
    rcases Nat.le_total a.unaryDepth b.unaryDepth with hab | hab
    · refine ⟨n', ?_, (Nat.max_eq_right hab).trans_le hle'⟩
      exact List.mem_append_right nl (List.mem_cons_of_mem 0 hn')
    · exact ⟨n, List.mem_append_left _ hn, (Nat.max_eq_left hab).trans_le hle⟩
  | unary _ _ ih =>
    obtain ⟨n, hn, hle⟩ := ih hrs
    exact ⟨n + 1, List.mem_cons_of_mem 0 (List.mem_map_of_mem hn), Nat.succ_le_succ hle⟩
  | parens _ ih =>
    obtain ⟨n, hn, hle⟩ := ih List.suffix_rfl
    refine ⟨n + 1, List.mem_cons_of_mem 0 (List.mem_map_of_mem (List.mem_append_left [0] hn)), ?_⟩
    exact Nat.le_succ_of_le hle
  | number _ | string _ | constant _ | path _ _ => exact ⟨0, List.mem_cons_self, Nat.le_refl 0⟩

/-- Each node on a way to a leaf is the leaf, one of the operators or one of the unary operators on the way. -/
theorem height_le (e : Tree) : e.height ≤ e.operators + e.unaryDepth + 1 := by
  induction e with
  | literal _ | path _ _ => exact Nat.le_refl 1
  | unary _ e ih =>
    rw [Tree.height, Tree.operators, Tree.unaryDepth]
    omega
  | binary _ l r ihl ihr | and l r ihl ihr | or l r ihl ihr =>
    rw [Tree.height, Tree.operators, Tree.unaryDepth]
    omega

theorem height_pos (e : Tree) : 0 < e.height := by
  cases e <;> exact Nat.succ_pos _

/-- As many calls as the tree is high are enough. -/
theorem evalWithin_of_height_le (scope : Json) {e : Tree} {calls : Nat} (h : e.height ≤ calls) :
    e.evalWithin scope calls = liftM (e.eval scope) := by
  induction calls generalizing e with
  | zero => exact absurd ((height_pos e).trans_le h) (Nat.lt_irrefl 0)
  | succ calls ih =>
    -- Operands are less high, so that the calls left are enough for each of them.
    cases e with
    | literal _ | path _ _ => rfl
    | unary op e =>
      rw [Tree.evalWithin, Tree.eval, ih (Nat.le_of_succ_le_succ h), liftM_bind]
    | binary op l r =>
      obtain ⟨hl, hr⟩ := max_le_iff.1 (Nat.le_of_succ_le_succ h)
      rw [Tree.evalWithin, Tree.eval, ih hl, ih hr]
      simp only [liftM_bind]
    | and l r | or l r =>
      obtain ⟨hl, hr⟩ := max_le_iff.1 (Nat.le_of_succ_le_succ h)
      rw [Tree.evalWithin, Tree.eval, ih hl, ih hr]
      simp only [liftM_bind, liftM_pure, apply_ite liftM]

def alternativesText : Nat → List Char
  | 0 => []
  | m + 1 => "||".toList ++ ' ' :: ("true".toList ++ ' ' :: alternativesText m)

def steepText : Nat → Nat → List Char
  | 0, m => "true".toList ++ ' ' :: alternativesText m
  | k + 1, m => "!".toList ++ ' ' :: steepText k m

def steepTokens (k m : Nat) : List Token :=
  List.replicate k (.op .not) ++ .ident "true" :: (List.replicate m [.op .or, .ident "true"]).flatten

def steepTree : Nat → Nat → Tree
  | k, 0 => Nat.repeat (.unary .not) k (.literal (.bool true))
  | k, m + 1 => .or (steepTree k m) (.literal (.bool true))

section Steep

variable (k m : Nat)

theorem written_steep : Written (steepTokens k m) (steepText k m) := by
  have hspace : Text.isBlank ' ' = true := by decide
  have hname : ∀ d ∈ "rue".toList, isIdentPart d = true := List.all_eq_true.1 (by decide +kernel)
  have htrue : Spells (.ident "true") "true".toList := .ident (by decide +kernel) hname
  have halternatives : Written (List.replicate m [.op .or, .ident "true"]).flatten (alternativesText m) := by
    induction m with
    | zero => exact .nil
    | succ m ih => exact .spaced hspace (.mark rfl) (.spaced hspace htrue ih)
  induction k with
  | zero => exact .spaced hspace htrue halternatives
  | succ k ih => exact .spaced hspace (.mark rfl) ih

theorem derives_steep :
    Derives rows (steepTokens k m) (List.range (k + 1) ++ List.replicate (2 * m) 0) (steepTree k m) := by
  induction m with
  | zero =>
    rw [List.replicate_zero, List.append_nil]
    exact derives_negations k
  | succ m ih =>
    have htrue : Derives rows.tail [.ident "true"] [0] (.literal (.bool true)) :=
      .operand (.operand (.operand (.operand (.operand (.constant List.mem_cons_self)))))
    have htokens : steepTokens k m ++ [.op .or, .ident "true"] = steepTokens k (m + 1) := by
      simp [steepTokens, List.replicate_succ']
    have hnesting : List.range (k + 1) ++ List.replicate (2 * m) 0 ++ [0, 0] =
        List.range (k + 1) ++ List.replicate (2 * (m + 1)) 0 := by
      simp [Nat.mul_succ, List.replicate_add]
    rw [← htokens, ← hnesting]
    exact .binary ih (List.mem_singleton.2 rfl) htrue

theorem measures_steep :
    (steepTree k m).operators = m ∧ (steepTree k m).unaryDepth = k ∧ (steepTree k m).height = k + m + 1 := by
  induction m with
  | zero =>
    induction k with
    | zero => exact ⟨rfl, rfl, rfl⟩
    | succ k ih =>
      obtain ⟨hoperators, hunary, hheight⟩ := ih
      exact ⟨hoperators, congrArg (· + 1) hunary, congrArg (· + 1) hheight⟩
  | succ m ih =>
    obtain ⟨hoperators, hunary, hheight⟩ := ih
    simp [steepTree, Tree.operators, Tree.unaryDepth, Tree.height, hoperators, hunary, hheight]
    omega

/-- One call less than the tree is high is not enough. -/
theorem evalWithin_steep (scope : Json) : (steepTree k m).evalWithin scope (k + m) = none := by
  induction m with
  | zero =>
    induction k with
    | zero => rfl
    | succ k ih =>
      change ((steepTree k 0).evalWithin scope (k + 0) >>= _) = none
      rw [ih]
      rfl
  | succ m ih =>
    rw [← Nat.add_assoc, steepTree, Tree.evalWithin, ih]
    rfl

end Steep

theorem bounds_of_parseTokens {ts : List Token} {e : Tree} (h : parseTokens ts = .ok e) :
    e.operators ≤ maxOperators ∧ e.unaryDepth < maxDepth := by
  obtain ⟨ns, hts, hbounded⟩ := exists_derives_of_parseTokens h
  obtain ⟨n, hn, hle⟩ := hts.exists_unaryDepth_le List.suffix_rfl
  have hnesting : 1 + n ≤ maxDepth := hbounded.nesting n hn
  exact ⟨hbounded.operators, by omega⟩

/-- However long its source is, an expression has at most 256 operators of the binary levels, at most 63 unary ones on
a way to a leaf and at most 320 nodes on it, and its evaluation never has more than 320 calls open. -/
theorem ofSource_bounded {source : String} {e : Expression} (h : ofSource source = .ok e) :
    e.tree.operators ≤ 256 ∧ e.tree.unaryDepth ≤ 63 ∧ e.tree.height ≤ 320 ∧
      ∀ scope, (e.tree.evalWithin scope 320).run = some (e.eval scope) := by
  obtain ⟨tree, hparse, hexpression⟩ := bind_eq_ok_iff.1 h
  obtain ⟨ts, -, htree⟩ := bind_eq_ok_iff.1 hparse
  cases hexpression
  obtain ⟨hoperators, hunary⟩ : tree.operators ≤ 256 ∧ tree.unaryDepth < 64 := bounds_of_parseTokens htree
  have hheight : tree.height ≤ 320 := (height_le tree).trans (by omega)
  refine ⟨hoperators, Nat.le_of_lt_succ hunary, hheight, fun scope => ?_⟩
  rw [evalWithin_of_height_le scope hheight]
  rfl

/-- All bounds are met at once, and the last call is needed. -/
theorem ofSource_bounded_steep :
    ofSource (String.ofList (steepText 63 256)) = .ok ⟨String.ofList (steepText 63 256), steepTree 63 256⟩ ∧
      (steepTree 63 256).operators = 256 ∧ (steepTree 63 256).unaryDepth = 63 ∧ (steepTree 63 256).height = 320 ∧
      ∀ scope, (steepTree 63 256).evalWithin scope 319 = none ∧
        ((steepTree 63 256).evalWithin scope 320).run = some ((steepTree 63 256).eval scope) := by
  have htokens : tokenize (String.ofList (steepText 63 256)) = .ok (steepTokens 63 256) := by
    rw [tokenize, String.toList_ofList]
    exact tokensFrom_written (written_steep 63 256)
  obtain ⟨hoperators, hunary, hheight⟩ := measures_steep 63 256
  have hfits : Fits (maxDepth - 1) maxOperators (List.range (63 + 1) ++ List.replicate (2 * 256) 0)
      (steepTree 63 256) := ⟨by decide +kernel, hoperators.le⟩
  have hparse : parseTokens (steepTokens 63 256) = .ok (steepTree 63 256) := by
    rw [parseTokens_of_derives (derives_steep 63 256), if_pos hfits]
  have hsource : ofSource (String.ofList (steepText 63 256)) =
      .ok ⟨String.ofList (steepText 63 256), steepTree 63 256⟩ :=
    bind_eq_ok_iff.2 ⟨_, bind_eq_ok_iff.2 ⟨_, htokens, hparse⟩, rfl⟩
  obtain ⟨-, -, -, heval⟩ := ofSource_bounded hsource
  exact ⟨hsource, hoperators, hunary, hheight, fun scope => ⟨evalWithin_steep 63 256 scope, heval scope⟩⟩

end RuleFlow.Expression
