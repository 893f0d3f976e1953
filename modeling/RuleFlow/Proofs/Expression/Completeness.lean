import Mathlib.Logic.Basic
import RuleFlow.Proofs.Expression.Soundness
/-! # What is derived is parsed

The parser makes of derived tokens the tree that is derived, if the derivation fits the levels of nesting and the
budget, and reports that a bound is broken if it does not: `rowsParser_of_derives`, by induction on the derivation.
What follows the tokens is arbitrary as long as it cannot belong to the expression. -/
namespace RuleFlow.Expression

/-- Whether tokens may stand after an expression of some rows without belonging to it. -/
def Follows (rs : List Row) : List Token → Prop
  | .op o :: _ => ∀ row ∈ rs, ∀ build, (o, build) ∉ row
  | .dot :: _ => False
  | .lbracket :: _ => False
  | _ => True

theorem Follows.mono {rs rs' : List Row} {rest : List Token} (h : Follows rs rest) (hsub : rs' ⊆ rs) :
    Follows rs' rest := by
  unfold Follows at h ⊢
  split at h
  · exact fun row hrow => h row (hsub hrow)
  all_goals simp_all

theorem segments_of_follows {rest : List Token} (h : Follows [] rest) : segments rest = .ok ([], rest) := by
  cases rest with
  | nil => rfl
  | cons t ts => cases t <;> first | rfl | cases h

theorem segments_of_isPath {us rest : List Token} {path : List Segment} (h : IsPath us path)
    (hrest : Follows [] rest) : segments (us ++ rest) = .ok (path, rest) := by
  induction h with
  | nil => exact segments_of_follows hrest
  | dot name _ ih => simp only [List.cons_append, segments, ih]; rfl
  | key name _ ih => simp only [List.cons_append, segments, ih]; rfl
  | index hx _ ih =>
    have hindex := index?_eq_some_iff.2 ⟨_, hx, rfl⟩
    unfold segments
    simp only [List.cons_append, hindex, ih]
    rfl

theorem named_root (root : Root) {us rest : List Token} {path : List Segment} (h : IsPath us path)
    (hrest : Follows [] rest) : named root.name (us ++ rest) = .ok (.path root path, rest) := by
  have hroot : Root.ofName? root.name = some root := by cases root <;> rfl
  obtain ⟨htrue, hfalse, hnull⟩ : root.name ≠ "true" ∧ root.name ≠ "false" ∧ root.name ≠ "null" := by
    cases root <;> decide
  rw [named, if_neg htrue, if_neg hfalse, if_neg hnull, hroot]
  simp only [segments_of_isPath h hrest]
  rfl

theorem chain_stop {level : Level} {P : Parser} {lhs : Tree} {s : Rest}
    (h : ∀ o rest, s.tokens = .op o :: rest → level o = none) (fuel : Nat) :
    chain level P fuel lhs s = .ok (lhs, s) := by
  unfold chain
  split
  · rename_i o rest htokens
    rw [h o rest htokens]
  · rfl

theorem chain_zero {level : Level} {P : Parser} {lhs : Tree} {o : Operator} {build : Tree → Tree → Tree}
    (ho : level o = some build) (fuel : Nat) (rest : List Token) :
    chain level P fuel lhs ⟨.op o :: rest, 0⟩ = .error .tooDeep := by
  unfold chain
  cases fuel <;> simp only [ho]

theorem chain_succ {level : Level} {P : Parser} {lhs : Tree} {o : Operator} {build : Tree → Tree → Tree}
    (ho : level o = some build) (fuel : Nat) (rest : List Token) (budget : Nat) :
    chain level P (fuel + 1) lhs ⟨.op o :: rest, budget + 1⟩ = (do
      let (rhs, s) ← P ⟨rest, budget⟩
      chain level P fuel (build lhs rhs) s) := by
  rw [chain]
  simp only [ho]

theorem chain_of_follows {row : Row} {tighter : List Row} (hrow : row ∈ rows) {P : Parser} {lhs : Tree}
    {rest : List Token} (h : Follows (row :: tighter) rest) (b fuel : Nat) :
    chain row.level P fuel lhs ⟨rest, b⟩ = .ok (lhs, ⟨rest, b⟩) := by
  refine chain_stop (fun o rest' htokens => ?_) fuel
  subst htokens
  cases ho : row.level o with
  | none => rfl
  | some build => exact absurd ((Row.level_eq_some_iff hrow).1 ho) (h row List.mem_cons_self build)

/-- A chain is not longer than the budget: more fuel makes no difference. -/
theorem chain_fuel {level : Level} {P : Parser} (hP : ∀ {s e s'}, P s = .ok (e, s') → s'.budget ≤ s.budget)
    {fuel fuel' : Nat} {lhs : Tree} {s : Rest} (h : s.budget ≤ fuel) (h' : s.budget ≤ fuel') :
    chain level P fuel lhs s = chain level P fuel' lhs s := by
  induction fuel using Nat.strongRecOn generalizing fuel' lhs s with
  | ind fuel ih =>
    obtain ⟨tokens, b⟩ := s
    by_cases hop : ∃ o rest build, tokens = .op o :: rest ∧ level o = some build
    · obtain ⟨o, rest, build, rfl, ho⟩ := hop
      cases b with
      | zero => rw [chain_zero ho, chain_zero ho]
      | succ budget =>
        obtain ⟨k, rfl⟩ := Nat.exists_eq_add_of_le' (Nat.one_le_of_lt h)
        obtain ⟨k', rfl⟩ := Nat.exists_eq_add_of_le' (Nat.one_le_of_lt h')
        rw [chain_succ ho, chain_succ ho]
        cases hrhs : P ⟨rest, budget⟩ with
        | error err => rfl
        | ok result =>
          obtain ⟨rhs, s₁⟩ := result
          have hle : s₁.budget ≤ budget := hP hrhs
          have hk : budget + 1 ≤ k + 1 := h
          have hk' : budget + 1 ≤ k' + 1 := h'
          exact ih k (Nat.lt_succ_self k) (by omega) (by omega)
    · have hstop (o : Operator) (rest : List Token) (htokens : tokens = .op o :: rest) : level o = none := by
        cases ho : level o with
        | none => rfl
        | some build => exact absurd ⟨o, rest, build, htokens, ho⟩ hop
      rw [chain_stop hstop, chain_stop hstop]

/-- What the parser of some rows does after a tree of theirs: it goes on with the chain of the loosest row. -/
def continueAt (depth : Nat) : List Row → Tree → Parser
  | [], e, s => .ok (e, s)
  | row :: tighter, e, s => chain row.level (rowsParser depth tighter) s.budget e s

theorem continueAt_of_follows {depth : Nat} {rs : List Row} (hrs : rs <:+ rows) {e : Tree} {rest : List Token}
    (h : Follows rs rest) (b : Nat) : continueAt depth rs e ⟨rest, b⟩ = .ok (e, ⟨rest, b⟩) := by
  cases rs with
  | nil => rfl
  | cons row tighter => exact chain_of_follows (row_mem_of_suffix hrs) h b b

/-- Whether a derived tree keeps to some levels of nesting and some operators. -/
def Fits (depth budget : Nat) (ns : List Nat) (e : Tree) : Prop := (∀ n ∈ ns, n ≤ depth) ∧ e.operators ≤ budget

instance (depth budget : Nat) (ns : List Nat) (e : Tree) : Decidable (Fits depth budget ns e) :=
  inferInstanceAs (Decidable (_ ∧ _))

theorem bounded_iff_fits {ns : List Nat} {e : Tree} : Bounded ns e ↔ Fits (maxDepth - 1) maxOperators ns e := by
  have hle (n : Nat) : 1 + n ≤ maxDepth ↔ n ≤ maxDepth - 1 := by unfold maxDepth; omega
  exact ⟨fun h => ⟨fun n hn => (hle n).1 (h.nesting n hn), h.operators⟩,
    fun h => ⟨fun n hn => (hle n).2 (h.1 n hn), h.2⟩⟩

theorem fits_nested {depth budget : Nat} {ns : List Nat} {e : Tree} :
    Fits (depth + 1) budget (0 :: ns.map (· + 1)) e ↔ Fits depth budget ns e := by
  simp [Fits]

theorem fits_append_zero {depth budget : Nat} {ns : List Nat} {e : Tree} :
    Fits depth budget (ns ++ [0]) e ↔ Fits depth budget ns e := by
  simp [Fits, or_imp, forall_and]

/-- No level is left for what is in parentheses or after a unary operator. -/
theorem not_fits_nested {budget : Nat} {ns : List Nat} {e : Tree} (h : 0 < ns.length) :
    ¬ Fits 0 budget (0 :: ns.map (· + 1)) e := by
  intro hfits
  obtain ⟨n, hn⟩ := List.exists_mem_of_length_pos h
  exact absurd (hfits.1 (n + 1) (List.mem_cons_of_mem _ (List.mem_map_of_mem hn))) (by omega)

theorem fits_binary {depth budget : Nat} {nl nr : List Nat} {a b e : Tree}
    (he : e.operators = a.operators + b.operators + 1) :
    Fits depth budget (nl ++ 0 :: nr) e ↔
      Fits depth budget nl a ∧ 0 < budget - a.operators ∧ Fits depth (budget - a.operators - 1) nr b := by
  unfold Fits
  simp only [List.forall_mem_append, List.forall_mem_cons, Nat.zero_le, true_and, he]
  constructor
  · rintro ⟨⟨hl, hr⟩, hb⟩
    exact ⟨⟨hl, by omega⟩, by omega, hr, by omega⟩
  · rintro ⟨⟨hl, -⟩, ha, hr, hb⟩
    exact ⟨⟨hl, hr⟩, by omega⟩

theorem operand_zero_prefix {o : Operator} {u : Unary} (ho : (o, u) ∈ prefixes) (rest : List Token) (b : Nat) :
    operand 0 ⟨.op o :: rest, b⟩ = .error .tooDeep := by
  simp only [prefixes, List.mem_cons, Prod.mk.injEq, List.not_mem_nil, or_false] at ho
  rcases ho with ⟨rfl, rfl⟩ | ⟨rfl, rfl⟩ <;> rfl

theorem operand_succ_prefix {o : Operator} {u : Unary} (ho : (o, u) ∈ prefixes) (depth : Nat) (rest : List Token)
    (b : Nat) : operand (depth + 1) ⟨.op o :: rest, b⟩ = (do
      let (e, s) ← operand depth ⟨rest, b⟩
      return (.unary u e, s)) := by
  simp only [prefixes, List.mem_cons, Prod.mk.injEq, List.not_mem_nil, or_false] at ho
  rcases ho with ⟨rfl, rfl⟩ | ⟨rfl, rfl⟩ <;> rfl

theorem operand_ident {name : String} {rest rest' : List Token} {e : Tree} (h : named name rest = .ok (e, rest'))
    (depth b : Nat) : operand depth ⟨.ident name :: rest, b⟩ = .ok (e, ⟨rest', b⟩) := by
  unfold operand
  simp only [h]
  rfl

theorem named_constant {name : String} {v : Json} (h : (name, v) ∈ constants) (rest : List Token) :
    named name rest = .ok (.literal v, rest) := by
  simp only [constants, List.mem_cons, Prod.mk.injEq, List.not_mem_nil, or_false] at h
  rcases h with ⟨rfl, rfl⟩ | ⟨rfl, rfl⟩ | ⟨rfl, rfl⟩ <;> rfl

/-- An operator of a row and its right operand after a tree of the row. -/
theorem continueAt_binary {depth : Nat} {row : Row} {tighter : List Row} (hrs : row :: tighter <:+ rows) {o : Operator}
    {build : Tree → Tree → Tree} (ho : (o, build) ∈ row) {r rest : List Token} (hfollows : Follows tighter rest)
    {nr : List Nat} {y : Tree} (hright : ∀ b, rowsParser depth tighter ⟨r ++ rest, b⟩ =
      if Fits depth b nr y then continueAt depth tighter y ⟨rest, b - y.operators⟩ else .error .tooDeep)
    (x : Tree) (b : Nat) : continueAt depth (row :: tighter) x ⟨.op o :: (r ++ rest), b⟩ =
      if 0 < b ∧ Fits depth (b - 1) nr y then
        continueAt depth (row :: tighter) (build x y) ⟨rest, b - 1 - y.operators⟩
      else .error .tooDeep := by
  have htighter : tighter <:+ rows := (List.suffix_cons row tighter).trans hrs
  have hlevel := (Row.level_eq_some_iff (row_mem_of_suffix hrs)).2 ho
  rw [continueAt]
  cases b with
  | zero => rw [chain_zero hlevel, if_neg (by omega)]
  | succ k =>
    rw [chain_succ hlevel, hright k, Nat.add_sub_cancel]
    by_cases hy : Fits depth k nr y
    · rw [if_pos hy, if_pos ⟨Nat.succ_pos k, hy⟩, continueAt_of_follows htighter hfollows]
      -- the fuel is what the budget was before the right operand
      exact chain_fuel (rowsParser_budget_le htighter) (Nat.sub_le _ _) (Nat.le_refl _)
    · rw [if_neg hy, if_neg fun h => hy h.2]
      rfl

theorem operand_parens {depth b : Nat} {ts rest : List Token} {ns : List Nat} {e : Tree}
    (h : rowsParser depth rows ⟨ts ++ .rparen :: rest, b⟩ =
      if Fits depth b ns e then .ok (e, ⟨.rparen :: rest, b - e.operators⟩) else .error .tooDeep) :
    operand (depth + 1) ⟨.lparen :: (ts ++ [.rparen]) ++ rest, b⟩ =
      if Fits depth b ns e then .ok (e, ⟨rest, b - e.operators⟩) else .error .tooDeep := by
  have htokens : .lparen :: (ts ++ [.rparen]) ++ rest = .lparen :: (ts ++ .rparen :: rest) := by simp
  rw [← binaryLevels_operand] at h
  rw [operand, htokens]
  simp only [h]
  split <;> rfl

theorem rowsParser_of_derives {rs : List Row} {ts : List Token} {ns : List Nat} {e : Tree} (h : Derives rs ts ns e)
    (hrs : rs <:+ rows) (depth : Nat) (rest : List Token) (hrest : Follows rs.tail rest) (b : Nat) :
    rowsParser depth rs ⟨ts ++ rest, b⟩ =
      if Fits depth b ns e then continueAt depth rs e ⟨rest, b - e.operators⟩ else .error .tooDeep := by
  induction h generalizing depth rest b with
  | @operand row tighter ts ns e h ih =>
    have htighter : tighter <:+ rows := (List.suffix_cons row tighter).trans hrs
    have hfollows : Follows tighter rest := hrest
    have hrun := ih htighter depth rest (hfollows.mono (List.tail_suffix tighter).subset) b
    rw [continueAt_of_follows htighter hfollows] at hrun
    simp only [rowsParser, leftAssociative, hrun]
    split <;> rfl
  | @binary row tighter o build l r nl nr x y hl ho hr ihl ihr =>
    have htighter : tighter <:+ rows := (List.suffix_cons row tighter).trans hrs
    have hfollows : Follows tighter rest := hrest
    have hoperators := operators_build (row_mem_of_suffix hrs) ho x y
    have hleft := ihl hrs depth (.op o :: (r ++ rest)) (not_mem_tighter hrs ho) b
    have hright := ihr htighter depth rest (hfollows.mono (List.tail_suffix tighter).subset)
    have hbudget : b - x.operators - 1 - y.operators = b - (build x y).operators := by omega
    rw [List.append_assoc, List.cons_append, hleft, continueAt_binary hrs ho hfollows hright, hbudget]
    simp only [fits_binary hoperators, ite_and]
  | @unary o u ts ns x ho h ih =>
    cases depth with
    | zero =>
      rw [if_neg (not_fits_nested h.length_pos)]
      exact operand_zero_prefix ho _ b
    | succ depth =>
      have hrun : operand depth _ = _ := ih List.nil_suffix depth rest hrest b
      have hnested : Fits (depth + 1) b (0 :: ns.map (· + 1)) (.unary u x) ↔ Fits depth b ns x := fits_nested
      rw [rowsParser, List.cons_append, operand_succ_prefix ho, hrun]
      simp only [hnested]
      split <;> rfl
  | @parens ts ns e h ih =>
    cases depth with
    | zero =>
      rw [if_neg (not_fits_nested (by simp))]
      rfl
    | succ depth =>
      have hclose : Follows rows (.rparen :: rest) := trivial
      have hrun := ih List.suffix_rfl depth (.rparen :: rest) trivial b
      rw [continueAt_of_follows List.suffix_rfl hclose] at hrun
      simp only [rowsParser, operand_parens hrun, fits_nested, fits_append_zero, continueAt]
  | @number x hx =>
    have hn := Json.Number.ofResult?_eq_some_iff.2 ⟨hx, rfl⟩
    have hfits : Fits depth b [0] (.literal (.number (.ofFinite x hx))) := by simp [Fits, Tree.operators]
    rw [if_pos hfits, rowsParser, operand]
    simp only [List.cons_append, List.nil_append, hn]
    rfl
  | string s =>
    rw [if_pos (by simp [Fits, Tree.operators]), rowsParser, operand]
    rfl
  | constant hc =>
    rw [if_pos (by simp [Fits, Tree.operators])]
    exact operand_ident (named_constant hc rest) depth b
  | path root hp =>
    rw [if_pos (by simp [Fits, Tree.operators])]
    exact operand_ident (named_root root hp hrest) depth b

end RuleFlow.Expression
