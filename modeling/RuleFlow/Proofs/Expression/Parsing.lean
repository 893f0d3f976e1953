import Mathlib.Algebra.Order.BigOperators.Group.List
import Mathlib.Algebra.Order.Group.Nat
import RuleFlow.Proofs.Expression.Completeness
/-! # Parsing is deriving

An expression has the tree that the grammar derives from its tokens within the bounds.  Main statement:
`parseTokens_iff_derives`. -/
namespace RuleFlow.Expression

theorem parseTokens_eq (ts : List Token) : parseTokens ts = (do
    let (e, s) ← rowsParser (maxDepth - 1) rows ⟨ts, maxOperators⟩
    match s.tokens with
    | [] => return e
    | rest => .error (unexpected rest (describeNext []))) := by
  rw [← binaryLevels_operand]
  rfl

theorem exists_derives_of_parseTokens {ts : List Token} {e : Tree} (h : parseTokens ts = .ok e) :
    ∃ ns, Derives rows ts ns e ∧ Bounded ns e := by
  rw [parseTokens_eq] at h
  obtain ⟨⟨e', s⟩, hrun, hend⟩ := bind_eq_ok_iff.1 h
  obtain ⟨us, ns, hus⟩ := exists_consumes_rows exists_consumes_operand List.suffix_rfl hrun
  cases hs : s.tokens with
  | cons t rest => simp [hs] at hend
  | nil =>
    simp only [hs] at hend
    cases hend
    have hts : ts = us := by simpa [hs] using hus.tokens
    have hbudget : maxOperators = e.operators + s.budget := hus.budget
    subst hts
    exact ⟨ns, hus.derives, bounded_iff_fits.2 ⟨hus.nesting, by omega⟩⟩

theorem parseTokens_of_derives {ts : List Token} {ns : List Nat} {e : Tree} (h : Derives rows ts ns e) :
    parseTokens ts = if Fits (maxDepth - 1) maxOperators ns e then .ok e else .error .tooDeep := by
  have hend : Follows rows [] := trivial
  have hrun := rowsParser_of_derives h List.suffix_rfl (maxDepth - 1) [] trivial maxOperators
  rw [List.append_nil, continueAt_of_follows List.suffix_rfl hend] at hrun
  rw [parseTokens_eq, hrun]
  split <;> rfl

/-- Tokens have one tree at most: with enough levels and operators the parser makes each of their trees. -/
theorem Derives.tree_eq {ts : List Token} {ns ns' : List Nat} {e e' : Tree} (h : Derives rows ts ns e)
    (h' : Derives rows ts ns' e') : e = e' := by
  have hend : Follows rows [] := trivial
  have hrun {ns : List Nat} {e : Tree} (h : Derives rows ts ns e) {depth b : Nat} (hfits : Fits depth b ns e) :
      rowsParser depth rows ⟨ts, b⟩ = .ok (e, ⟨[], b - e.operators⟩) := by
    have hts := rowsParser_of_derives h List.suffix_rfl depth [] trivial b
    rwa [List.append_nil, if_pos hfits, continueAt_of_follows List.suffix_rfl hend] at hts
  have hle {n : Nat} {ns : List Nat} (hn : n ∈ ns) : n ≤ ns.sum := List.le_sum_of_mem hn
  have hfits : Fits (ns.sum + ns'.sum) (e.operators + e'.operators) ns e :=
    ⟨fun n hn => Nat.le_add_right_of_le (hle hn), by omega⟩
  have hfits' : Fits (ns.sum + ns'.sum) (e.operators + e'.operators) ns' e' :=
    ⟨fun n hn => Nat.le_add_left_of_le (hle hn), by omega⟩
  have heq := (hrun h hfits).symm.trans (hrun h' hfits')
  cases heq
  rfl

/-- An expression is parsed into a tree if and only if the grammar derives the tree from its tokens within the bounds.
If a bound is broken, that is the error; and there is one tree at most. -/
theorem parseTokens_iff_derives (ts : List Token) :
    (∀ e, parseTokens ts = .ok e ↔ ∃ ns, Derives rows ts ns e ∧ Bounded ns e) ∧
    (∀ ns e, Derives rows ts ns e → ¬ Bounded ns e → parseTokens ts = .error .tooDeep) ∧
    (∀ ns ns' e e', Derives rows ts ns e → Derives rows ts ns' e' → e = e') := by
  refine ⟨fun e => ⟨exists_derives_of_parseTokens, ?_⟩, ?_, fun _ _ _ _ => Derives.tree_eq⟩
  · rintro ⟨ns, hts, hbounded⟩
    rw [parseTokens_of_derives hts, if_pos (bounded_iff_fits.1 hbounded)]
  · intro ns e hts hbroken
    rw [parseTokens_of_derives hts, if_neg fun hfits => hbroken (bounded_iff_fits.2 hfits)]

theorem derives_negations (k : Nat) : Derives rows (List.replicate k (.op .not) ++ [.ident "true"]) (List.range (k + 1))
    (Nat.repeat (.unary .not) k (.literal (.bool true))) := by
  have hunary : Derives [] (List.replicate k (.op .not) ++ [.ident "true"]) (List.range (k + 1))
      (Nat.repeat (.unary .not) k (.literal (.bool true))) := by
    induction k with
    | zero => exact .constant List.mem_cons_self
    | succ k ih =>
      rw [List.range_succ_eq_map, List.replicate_succ]
      exact .unary List.mem_cons_self ih
  exact .operand (.operand (.operand (.operand (.operand (.operand hunary)))))

/-- One level is the expression's own, so 63 negations are the most. -/
theorem parseTokens_negations :
    parseTokens (List.replicate 63 (.op .not) ++ [.ident "true"]) =
      .ok (Nat.repeat (.unary .not) 63 (.literal (.bool true))) ∧
    parseTokens (List.replicate 64 (.op .not) ++ [.ident "true"]) = .error .tooDeep := by
  constructor
  · exact ((parseTokens_iff_derives _).1 _).2 ⟨_, derives_negations 63, by decide, by decide⟩
  · exact (parseTokens_iff_derives _).2.1 _ _ (derives_negations 64) fun h => absurd h.nesting (by decide)

end RuleFlow.Expression
