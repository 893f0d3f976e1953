import RuleFlow.Proofs.Expression.Grammar
/-! # What is parsed is derived

The parser of the binary levels of some rows, over operands with some levels of nesting left, makes a tree of tokens
from which the rows derive it.  The nesting numbers of the derivation are within the levels, and its operators have
been taken from the budget: `exists_consumes_operand` and `exists_consumes_rows`. -/
namespace RuleFlow.Expression

def Row.level (row : Row) : Level := fun o => row.lookup o

/-- The parser of the given binary levels, over operands with the given levels of nesting left. -/
def rowsParser (depth : Nat) : List Row → Parser
  | [] => operand depth
  | row :: tighter => leftAssociative row.level (rowsParser depth tighter)

theorem binaryLevels_operand (depth : Nat) : binaryLevels (operand depth) = rowsParser depth rows := by
  have hlevels : rows.map Row.level =
      [.or, .and, .equality, .comparison, .additive, .multiplicative] := by
    simp only [rows, List.map_cons, List.map_nil, List.cons.injEq, and_true]
    refine ⟨?_, ?_, ?_, ?_, ?_, ?_⟩ <;> funext o <;> cases o <;> rfl
  have hfold (rs : List Row) :
      rowsParser depth rs = (rs.map Row.level).foldr leftAssociative (operand depth) := by
    induction rs with
    | nil => rfl
    | cons row tighter ih => simp only [rowsParser, ih, List.map_cons, List.foldr_cons]
  rw [hfold, hlevels]
  rfl

theorem Row.level_eq_some_iff {row : Row} (h : row ∈ rows) {o : Operator} {build : Tree → Tree → Tree} :
    row.level o = some build ↔ (o, build) ∈ row := by
  have hnodup : (row.map (·.1)).Nodup :=
    nodup_operators.sublist ((List.sublist_flatten_of_mem h).map _)
  rw [Row.level, List.lookup_eq_some_iff]
  constructor
  · rintro ⟨before, after, rfl, -⟩
    simp
  · intro ho
    obtain ⟨before, after, rfl⟩ := List.append_of_mem ho
    rw [List.map_append, List.nodup_append] at hnodup
    refine ⟨before, after, rfl, fun p hp => bne_iff_ne.2 (Ne.symm ?_)⟩
    exact hnodup.2.2 p.1 (List.mem_map_of_mem hp) o (by simp)

theorem not_mem_tighter {row : Row} {tighter : List Row} (h : row :: tighter <:+ rows) {o : Operator}
    {build : Tree → Tree → Tree} (ho : (o, build) ∈ row) :
    ∀ row' ∈ tighter, ∀ build', (o, build') ∉ row' := by
  have hnodup : ((row :: tighter).flatten.map (·.1)).Nodup := by
    obtain ⟨looser, hrows⟩ := h
    have hall := nodup_operators
    rw [← hrows, List.flatten_append, List.map_append] at hall
    exact (List.nodup_append.1 hall).2.1
  intro row' hrow' build' ho'
  rw [List.flatten_cons, List.map_append, List.nodup_append] at hnodup
  exact hnodup.2.2 o (List.mem_map_of_mem ho) o (List.mem_map_of_mem (List.mem_flatten_of_mem hrow' ho')) rfl

theorem index?_eq_some_iff {x : Float} {k : Nat} :
    index? x = some k ↔ ∃ n : Nat, Binary64.integer? x = some (n : Int) ∧ k = min n (UInt64.size - 1) := by
  unfold index?
  cases hx : Binary64.integer? x with
  | none => simp
  | some n =>
    by_cases hn : 0 ≤ n
    · obtain ⟨m, rfl⟩ := Int.eq_ofNat_of_zero_le hn
      simp only [hn, if_true, Option.some.injEq, Int.toNat_natCast, Int.natCast_inj]
      exact ⟨fun hk => ⟨m, rfl, hk.symm⟩, fun ⟨n, hmn, hk⟩ => hmn ▸ hk.symm⟩
    · have hneg (m : Nat) : n ≠ m := by omega
      simp [hn, hneg]

/-- The end of a computation in which more is done with a result. -/
theorem bind_eq_ok_iff {ε α β : Type} {x : Except ε α} {f : α → Except ε β} {b : β} :
    (x >>= f) = .ok b ↔ ∃ a, x = .ok a ∧ f a = .ok b := by
  cases x <;> simp [bind, Except.bind]

theorem isPath_of_segments {ts rest : List Token} {path : List Segment} (h : segments ts = .ok (path, rest)) :
    ∃ us, ts = us ++ rest ∧ IsPath us path := by
  fun_induction segments ts generalizing path rest with
  | case1 name ts ih =>
    obtain ⟨⟨path', rest'⟩, hrun, hend⟩ := bind_eq_ok_iff.1 h
    cases hend
    obtain ⟨us, rfl, hus⟩ := ih hrun
    exact ⟨_, rfl, hus.dot name⟩
  | case3 name ts ih =>
    obtain ⟨⟨path', rest'⟩, hrun, hend⟩ := bind_eq_ok_iff.1 h
    cases hend
    obtain ⟨us, rfl, hus⟩ := ih hrun
    exact ⟨_, rfl, hus.key name⟩
  | case5 x k ts hx ih =>
    obtain ⟨⟨path', rest'⟩, hrun, hend⟩ := bind_eq_ok_iff.1 h
    cases hend
    obtain ⟨us, rfl, hus⟩ := ih hrun
    obtain ⟨n, hn, rfl⟩ := index?_eq_some_iff.1 hx
    exact ⟨_, rfl, hus.index hn⟩
  | case9 ts =>
    cases h
    exact ⟨[], rfl, .nil⟩
  | _ => cases h

/-- What a parser of some rows takes from the tokens and from the budget when it makes a tree. -/
structure Consumes (depth : Nat) (rs : List Row) (s : Rest) (e : Tree) (s' : Rest) (ts : List Token) (ns : List Nat) :
    Prop where
  tokens : s.tokens = ts ++ s'.tokens
  derives : Derives rs ts ns e
  nesting : ∀ n ∈ ns, n ≤ depth
  budget : s.budget = e.operators + s'.budget

theorem exists_consumes_named {depth : Nat} {s : Rest} {name : String} {rest rest' : List Token} {e : Tree}
    (hs : s.tokens = .ident name :: rest) (h : named name rest = .ok (e, rest')) :
    ∃ ts ns, Consumes depth [] s e { s with tokens := rest' } ts ns := by
  have hconstant {v : Json} (hv : (name, v) ∈ constants) (hend : (Tree.literal v, rest) = (e, rest')) :
      ∃ ts ns, Consumes depth [] s e { s with tokens := rest' } ts ns := by
    cases hend
    exact ⟨_, _, hs, .constant hv, by simp, (Nat.zero_add _).symm⟩
  unfold named at h
  split at h
  · exact hconstant (by simp [constants, *]) (Except.ok.inj h)
  split at h
  · exact hconstant (by simp [constants, *]) (Except.ok.inj h)
  split at h
  · exact hconstant (by simp [constants, *]) (Except.ok.inj h)
  split at h
  · rename_i root hroot
    obtain ⟨⟨path, rest''⟩, hpath, hend⟩ := bind_eq_ok_iff.1 h
    cases hend
    obtain ⟨us, rfl, hus⟩ := isPath_of_segments hpath
    have hname : root.name = name := by simpa using List.find?_some hroot
    refine ⟨_, _, ?_, .path root hus, by simp, (Nat.zero_add _).symm⟩
    rw [hs, hname, List.cons_append]
  · cases h

theorem Consumes.operand {depth : Nat} {row : Row} {tighter : List Row} {s s' : Rest} {e : Tree} {ts : List Token}
    {ns : List Nat} (h : Consumes depth tighter s e s' ts ns) : Consumes depth (row :: tighter) s e s' ts ns :=
  ⟨h.tokens, .operand h.derives, h.nesting, h.budget⟩

/-- An operator and its right operand after a chain of their row. -/
theorem Consumes.binary {depth budget : Nat} {row : Row} {tighter : List Row} {s s₁ s₂ : Rest} {a b : Tree}
    {l r rest : List Token} {nl nr : List Nat} {o : Operator} {build : Tree → Tree → Tree} (hrow : row ∈ rows)
    (hl : Consumes depth (row :: tighter) s a s₁ l nl) (ho : (o, build) ∈ row) (htokens : s₁.tokens = .op o :: rest)
    (hbudget : s₁.budget = budget + 1) (hr : Consumes depth tighter ⟨rest, budget⟩ b s₂ r nr) :
    Consumes depth (row :: tighter) s (build a b) s₂ (l ++ .op o :: r) (nl ++ 0 :: nr) where
  tokens := by
    have hrest : rest = r ++ s₂.tokens := hr.tokens
    rw [hl.tokens, htokens, hrest, List.append_assoc, List.cons_append]
  derives := .binary hl.derives ho hr.derives
  nesting := by
    intro n hn
    rcases List.mem_append.1 hn with hn | hn
    · exact hl.nesting n hn
    rcases List.mem_cons.1 hn with rfl | hn
    · exact Nat.zero_le _
    · exact hr.nesting n hn
  budget := by
    have hleft := hl.budget
    have hright : budget = b.operators + s₂.budget := hr.budget
    rw [operators_build hrow ho]
    omega

theorem exists_consumes_chain {depth : Nat} {row : Row} {tighter : List Row} (hrow : row ∈ rows) {P : Parser}
    (hP : ∀ {s e s'}, P s = .ok (e, s') → ∃ ts ns, Consumes depth tighter s e s' ts ns) {s₀ : Rest} (fuel : Nat)
    {lhs e : Tree} {s s' : Rest} {ts : List Token} {ns : List Nat}
    (hlhs : Consumes depth (row :: tighter) s₀ lhs s ts ns) (h : chain row.level P fuel lhs s = .ok (e, s')) :
    ∃ ts ns, Consumes depth (row :: tighter) s₀ e s' ts ns := by
  fun_induction chain row.level P fuel lhs s generalizing ts ns with
  | case1 => cases h; exact ⟨ts, ns, hlhs⟩
  | case2 lhs s o rest htokens build ho fuel budget hbudget ih =>
    obtain ⟨⟨rhs, s₂⟩, hrhs, hrest⟩ := bind_eq_ok_iff.1 h
    obtain ⟨r, nr, hr⟩ := hP hrhs
    exact ih rhs s₂ (hlhs.binary hrow ((Row.level_eq_some_iff hrow).1 ho) htokens hbudget hr) hrest
  | case3 => cases h
  | case4 => cases h; exact ⟨ts, ns, hlhs⟩

/-- The levels of some rows, if the operands are as they should be. -/
theorem exists_consumes_rows {depth : Nat} (hoperand : ∀ {s e s'}, operand depth s = .ok (e, s') →
    ∃ ts ns, Consumes depth [] s e s' ts ns) {rs : List Row} (hrs : rs <:+ rows) {s s' : Rest} {e : Tree}
    (h : rowsParser depth rs s = .ok (e, s')) : ∃ ts ns, Consumes depth rs s e s' ts ns := by
  induction rs generalizing s e s' with
  | nil => exact hoperand h
  | cons row tighter ih =>
    have htighter : tighter <:+ rows := (List.suffix_cons row tighter).trans hrs
    obtain ⟨⟨lhs, s₁⟩, hlhs, hchain⟩ := bind_eq_ok_iff.1 h
    obtain ⟨ts, ns, hts⟩ := ih htighter hlhs
    exact exists_consumes_chain (row_mem_of_suffix hrs) (ih htighter) _ hts.operand hchain

theorem Consumes.unary {depth : Nat} {s s' : Rest} {o : Operator} {u : Unary} {e : Tree} {rest ts : List Token}
    {ns : List Nat} (ho : (o, u) ∈ prefixes) (htokens : s.tokens = .op o :: rest)
    (h : Consumes depth [] { s with tokens := rest } e s' ts ns) :
    Consumes (depth + 1) [] s (.unary u e) s' (.op o :: ts) (0 :: ns.map (· + 1)) where
  tokens := by rw [htokens, List.cons_append, ← h.tokens]
  derives := .unary ho h.derives
  nesting := by simpa using h.nesting
  budget := h.budget

theorem Consumes.parens {depth : Nat} {s s' : Rest} {e : Tree} {rest rest' ts : List Token} {ns : List Nat}
    (hopen : s.tokens = .lparen :: rest) (h : Consumes depth rows { s with tokens := rest } e s' ts ns)
    (hclose : s'.tokens = .rparen :: rest') :
    Consumes (depth + 1) [] s e { s' with tokens := rest' } (.lparen :: (ts ++ [.rparen]))
      (0 :: (ns ++ [0]).map (· + 1)) where
  tokens := by
    have hrest : rest = ts ++ s'.tokens := h.tokens
    rw [hopen, hrest, hclose, List.cons_append, List.append_assoc]
    rfl
  derives := .parens h.derives
  nesting := by
    have hns := h.nesting
    intro n hn
    simp only [List.mem_cons, List.mem_map, List.mem_append, List.not_mem_nil, or_false] at hn
    rcases hn with rfl | ⟨n, hn | rfl, rfl⟩
    · exact Nat.zero_le _
    · exact Nat.succ_le_succ (hns n hn)
    · exact Nat.succ_le_succ (Nat.zero_le _)
  budget := h.budget

theorem exists_consumes_operand {depth : Nat} {s s' : Rest} {e : Tree} (h : operand depth s = .ok (e, s')) :
    ∃ ts ns, Consumes depth [] s e s' ts ns := by
  induction depth using Nat.strongRecOn generalizing s e s' with
  | ind depth ih =>
    have hunary {o : Operator} {u : Unary} {rest : List Token} {d : Nat} {e₁ : Tree} (ho : (o, u) ∈ prefixes)
        (htokens : s.tokens = .op o :: rest) (hd : d < depth)
        (hrun : operand d { s with tokens := rest } = .ok (e₁, s')) :
        ∃ ts ns, Consumes (d + 1) [] s (.unary u e₁) s' ts ns := by
      obtain ⟨ts, ns, hts⟩ := ih d hd hrun
      exact ⟨_, _, hts.unary ho htokens⟩
    unfold operand at h
    split at h
    · split at h
      · cases h
      · obtain ⟨⟨e₁, s₁⟩, hrun, hend⟩ := bind_eq_ok_iff.1 h
        cases hend
        exact hunary List.mem_cons_self ‹_› (Nat.lt_succ_self _) hrun
    · split at h
      · cases h
      · obtain ⟨⟨e₁, s₁⟩, hrun, hend⟩ := bind_eq_ok_iff.1 h
        cases hend
        exact hunary (List.mem_cons_of_mem _ List.mem_cons_self) ‹_› (Nat.lt_succ_self _) hrun
    · split at h
      · cases h
      · rename_i rest hopen _ d
        obtain ⟨⟨e₁, s₁⟩, hinner, hend⟩ := bind_eq_ok_iff.1 h
        rw [binaryLevels_operand] at hinner
        obtain ⟨ts, ns, hts⟩ := exists_consumes_rows (ih d (Nat.lt_succ_self d)) List.suffix_rfl hinner
        cases hclose : s₁.tokens with
        | nil => simp [hclose] at hend
        | cons t rest' =>
          simp only [hclose] at hend
          split at hend
          · rename_i heq
            cases heq
            cases hend
            exact ⟨_, _, hts.parens hopen hclose⟩
          · cases hend
    · split at h
      · rename_i htokens _ n hn
        cases h
        obtain ⟨hfinite, rfl⟩ := Json.Number.ofResult?_eq_some_iff.1 hn
        exact ⟨_, _, htokens, .number hfinite, by simp, (Nat.zero_add _).symm⟩
      · cases h
    · cases h
      exact ⟨_, _, ‹_›, .string _, by simp, (Nat.zero_add _).symm⟩
    · obtain ⟨⟨e₁, rest'⟩, hnamed, hend⟩ := bind_eq_ok_iff.1 h
      cases hend
      exact exists_consumes_named ‹_› hnamed
    · cases h

theorem rowsParser_budget_le {depth : Nat} {rs : List Row} (hrs : rs <:+ rows) {s s' : Rest} {e : Tree}
    (h : rowsParser depth rs s = .ok (e, s')) : s'.budget ≤ s.budget := by
  obtain ⟨ts, ns, hts⟩ := exists_consumes_rows exists_consumes_operand hrs h
  have hbudget := hts.budget
  omega

end RuleFlow.Expression
