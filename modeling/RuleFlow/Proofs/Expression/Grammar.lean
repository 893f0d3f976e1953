import RuleFlow.Expression.Parser
/-! # The grammar of expressions

Which tokens make which tree, with nothing said of how they are parsed.  There are six binary levels, each grouped to
the left; below them stand the unary operators, and below these literals, paths and expressions in parentheses.  A
derivation numbers its tokens: each has the number of parentheses that are open at it and of unary operators whose
operand it belongs to. -/
namespace RuleFlow

theorem Json.Number.isWord_of_safe {n : Int} (h : -maxSafe ≤ n ∧ n ≤ maxSafe) : IsWord n := by
  unfold maxSafe at h
  constructor <;> omega

/-- The JSON number that a finite float is written as: an integer if it is one of safe size. -/
def Json.Number.ofFinite (x : Float) (h : x.isFinite = true) : Json.Number :=
  match Binary64.integer? x with
  | some n =>
    if hn : -maxSafe ≤ n ∧ n ≤ maxSafe then .int n (isWord_of_safe hn) else .float x h
  | none => .float x h

theorem Json.Number.ofResult?_eq_some_iff {x : Float} {n : Json.Number} :
    ofResult? x = some n ↔ ∃ h : x.isFinite = true, n = ofFinite x h := by
  unfold ofResult? ofFinite
  by_cases hx : x.isFinite = true
  · cases hi : Binary64.integer? x with
    | none => simp [hx, ofFloat?, eq_comm]
    | some k =>
      by_cases hk : -maxSafe ≤ k ∧ k ≤ maxSafe
      · have hint : ofInt? k = some (.int k (isWord_of_safe hk)) := dif_pos (isWord_of_safe hk)
        simpa [hx, hk, hint] using eq_comm
      · simp [hx, hk, ofFloat?, eq_comm]
  · simp [hx]

namespace Expression

abbrev Row := List (Operator × (Tree → Tree → Tree))

def rows : List Row :=
  [[(.or, .or)],
    [(.and, .and)],
    [(.strictEq, .binary .eq), (.strictNe, .binary .ne), (.eq, .binary .eq), (.ne, .binary .ne)],
    [(.le, .binary .le), (.ge, .binary .ge), (.lt, .binary .lt), (.gt, .binary .gt)],
    [(.add, .binary .add), (.sub, .binary .sub)],
    [(.mul, .binary .mul), (.div, .binary .div), (.rem, .binary .rem)]]

def prefixes : List (Operator × Unary) := [(.not, .not), (.sub, .neg)]

def constants : List (String × Json) := [("true", .bool true), ("false", .bool false), ("null", .null)]

/-- Tokens that make the segments of a path.  An index is a number that is integral and not negative; one that does
not fit a word is the largest word. -/
inductive IsPath : List Token → List Segment → Prop
  | nil : IsPath [] []
  | dot {ts : List Token} {path : List Segment} (name : String) (h : IsPath ts path) :
    IsPath (.dot :: .ident name :: ts) (.key name :: path)
  | key {ts : List Token} {path : List Segment} (name : String) (h : IsPath ts path) :
    IsPath (.lbracket :: .string name :: .rbracket :: ts) (.key name :: path)
  | index {ts : List Token} {path : List Segment} {x : Float} {n : Nat} (hx : Binary64.integer? x = some (n : Int))
    (h : IsPath ts path) :
    IsPath (.lbracket :: .number x :: .rbracket :: ts) (.index (min n (UInt64.size - 1)) :: path)

/-- Tokens that make a tree, with their numbers, where the operators of the given binary levels may stand outside of
parentheses. -/
inductive Derives : List Row → List Token → List Nat → Tree → Prop
  | operand {row : Row} {tighter : List Row} {ts : List Token} {ns : List Nat} {e : Tree}
    (h : Derives tighter ts ns e) : Derives (row :: tighter) ts ns e
  | binary {row : Row} {tighter : List Row} {o : Operator} {build : Tree → Tree → Tree} {l r : List Token}
    {nl nr : List Nat} {a b : Tree} (hl : Derives (row :: tighter) l nl a) (ho : (o, build) ∈ row)
    (hr : Derives tighter r nr b) : Derives (row :: tighter) (l ++ .op o :: r) (nl ++ 0 :: nr) (build a b)
  | unary {o : Operator} {u : Unary} {ts : List Token} {ns : List Nat} {e : Tree} (ho : (o, u) ∈ prefixes)
    (h : Derives [] ts ns e) : Derives [] (.op o :: ts) (0 :: ns.map (· + 1)) (.unary u e)
  | parens {ts : List Token} {ns : List Nat} {e : Tree} (h : Derives rows ts ns e) :
    Derives [] (.lparen :: (ts ++ [.rparen])) (0 :: (ns ++ [0]).map (· + 1)) e
  | number {x : Float} (hx : x.isFinite = true) : Derives [] [.number x] [0] (.literal (.number (.ofFinite x hx)))
  | string (s : String) : Derives [] [.string s] [0] (.literal (.string s))
  | constant {name : String} {v : Json} (h : (name, v) ∈ constants) : Derives [] [.ident name] [0] (.literal v)
  | path {ts : List Token} {path : List Segment} (root : Root) (h : IsPath ts path) :
    Derives [] (.ident root.name :: ts) (0 :: ts.map fun _ => 0) (.path root path)

/-- Whether a derived tree keeps the bounds: at every token one level for the expression and one for each parenthesis
and unary operator around it, and the operators of the binary levels in all. -/
structure Bounded (ns : List Nat) (e : Tree) : Prop where
  nesting : ∀ n ∈ ns, 1 + n ≤ maxDepth
  operators : e.operators ≤ maxOperators

theorem Derives.length_eq {rs : List Row} {ts : List Token} {ns : List Nat} {e : Tree} (h : Derives rs ts ns e) :
    ns.length = ts.length := by
  induction h with
  | operand _ ih => exact ih
  | binary _ _ _ ihl ihr => simp [ihl, ihr]
  | unary _ _ ih => simp [ih]
  | parens _ ih => simp [ih]
  | number _ => rfl
  | string _ => rfl
  | constant _ => rfl
  | path _ _ => simp

theorem Derives.length_pos {rs : List Row} {ts : List Token} {ns : List Nat} {e : Tree} (h : Derives rs ts ns e) :
    0 < ns.length := by
  induction h with
  | operand _ ih => exact ih
  | binary _ _ _ _ _ =>
    rw [List.length_append, List.length_cons]
    omega
  | _ => simp

theorem row_mem_of_suffix {row : Row} {tighter : List Row} (h : row :: tighter <:+ rows) : row ∈ rows :=
  h.subset List.mem_cons_self

theorem nodup_operators : (rows.flatten.map (·.1)).Nodup := by decide

/-- A binary level makes a logical tree or one with an operator that needs both values. -/
theorem build_cases {row : Row} (h : row ∈ rows) {o : Operator} {build : Tree → Tree → Tree} (ho : (o, build) ∈ row) :
    build = .or ∨ build = .and ∨ ∃ op, build = .binary op := by
  have hmem : (o, build) ∈ rows.flatten := List.mem_flatten_of_mem h ho
  simp only [rows, List.flatten_cons, List.flatten_nil, List.cons_append, List.nil_append, List.mem_cons,
    Prod.mk.injEq, List.not_mem_nil, or_false] at hmem
  rcases hmem with ⟨-, rfl⟩ | ⟨-, rfl⟩ | hbinary
  · exact .inl rfl
  · exact .inr (.inl rfl)
  · refine .inr (.inr ?_)
    rcases hbinary with ⟨-, rfl⟩ | ⟨-, rfl⟩ | ⟨-, rfl⟩ | ⟨-, rfl⟩ | ⟨-, rfl⟩ | ⟨-, rfl⟩ | ⟨-, rfl⟩ | ⟨-, rfl⟩ |
      ⟨-, rfl⟩ | ⟨-, rfl⟩ | ⟨-, rfl⟩ | ⟨-, rfl⟩ | ⟨-, rfl⟩ <;> exact ⟨_, rfl⟩

theorem operators_build {row : Row} (h : row ∈ rows) {o : Operator} {build : Tree → Tree → Tree}
    (ho : (o, build) ∈ row) (a b : Tree) : (build a b).operators = a.operators + b.operators + 1 := by
  rcases build_cases h ho with rfl | rfl | ⟨op, rfl⟩ <;> rfl

theorem roots_build {row : Row} (h : row ∈ rows) {o : Operator} {build : Tree → Tree → Tree} (ho : (o, build) ∈ row)
    (a b : Tree) : (build a b).roots = a.roots ++ b.roots := by
  rcases build_cases h ho with rfl | rfl | ⟨op, rfl⟩ <;> rfl

end Expression

end RuleFlow
