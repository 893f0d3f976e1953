import RuleFlow.Proofs.Expression.Congruence
import RuleFlow.Proofs.Expression.Parsing
import RuleFlow.Proofs.Json.Objects
/-! # What the value of an expression depends on

An expression looks at the scope only at the roots of its tree.  These are the roots that its text names where it does
not name the key of a member, and all other names there are constants.  Main statement: `eval_depends_on_roots`. -/
namespace RuleFlow.Expression

/-- The names among some tokens that are not keys of members; `afterDot` tells whether a dot stands before them. -/
def freeNamesFrom (afterDot : Bool) : List Token → List String
  | .dot :: ts => freeNamesFrom true ts
  | .ident name :: ts => if afterDot then freeNamesFrom false ts else name :: freeNamesFrom false ts
  | _ :: ts => freeNamesFrom false ts
  | [] => []

def freeNames (ts : List Token) : List String := freeNamesFrom false ts

/-- A token that is no name takes what stands before it apart from what follows it. -/
theorem freeNamesFrom_append (afterDot : Bool) (ts us : List Token) {t : Token} (ht : ∀ name, t ≠ .ident name) :
    freeNamesFrom afterDot (ts ++ t :: us) = freeNamesFrom afterDot ts ++ freeNames (t :: us) := by
  induction ts generalizing afterDot with
  | nil =>
    cases t with
    | ident name => exact absurd rfl (ht name)
    | _ => rfl
  | cons u ts ih =>
    cases u with
    | ident name =>
      cases afterDot with
      | true => exact ih false
      | false => exact congrArg (name :: ·) (ih false)
    | dot => exact ih true
    | _ => exact ih false

theorem freeNames_append (ts us : List Token) {t : Token} (ht : ∀ name, t ≠ .ident name) :
    freeNames (ts ++ t :: us) = freeNames ts ++ freeNames (t :: us) :=
  freeNamesFrom_append false ts us ht

/-- The names in a path are keys. -/
theorem IsPath.freeNames_eq {ts : List Token} {path : List Segment} (h : IsPath ts path) : freeNames ts = [] := by
  induction h with
  | nil => rfl
  | dot name h ih => exact ih
  | key name h ih => exact ih
  | index hx h ih => exact ih

theorem Root.ofName?_name (r : Root) : Root.ofName? r.name = some r := by
  cases r <;> decide

theorem Root.name_of_ofName? {name : String} {r : Root} (h : Root.ofName? name = some r) : r.name = name := by
  simpa using List.find?_some h

/-- Whether the names in some tokens are those of a tree: its roots, in their order, and constants. -/
structure Names (ts : List Token) (e : Tree) : Prop where
  roots : (freeNames ts).filterMap Root.ofName? = e.roots
  known : ∀ name ∈ freeNames ts, Root.ofName? name ≠ none ∨ ∃ v, (name, v) ∈ constants

theorem Derives.names {rs : List Row} {ts : List Token} {ns : List Nat} {e : Tree} (h : Derives rs ts ns e)
    (hrs : rs <:+ rows) : Names ts e := by
  induction h with
  | @operand row tighter ts ns e h ih => exact ih ((List.suffix_cons row tighter).trans hrs)
  | @binary row tighter o build l r nl nr a b hl ho hr ihl ihr =>
    have hleft := ihl hrs
    have hright := ihr ((List.suffix_cons row tighter).trans hrs)
    have hsplit : freeNames (l ++ .op o :: r) = freeNames l ++ freeNames r := freeNames_append l r (by simp)
    constructor
    · rw [hsplit, List.filterMap_append, hleft.roots, hright.roots, roots_build (row_mem_of_suffix hrs) ho]
    · rw [hsplit]
      exact List.forall_mem_append.2 ⟨hleft.known, hright.known⟩
  | unary ho h ih =>
    have hoperand := ih List.nil_suffix
    exact ⟨hoperand.roots, hoperand.known⟩
  | @parens ts ns e h ih =>
    have hinner := ih List.suffix_rfl
    have hsplit : freeNames (.lparen :: (ts ++ [.rparen])) = freeNames ts := by
      have hclose := freeNames_append ts [] (t := .rparen) (by simp)
      exact hclose.trans (List.append_nil _)
    exact ⟨hsplit ▸ hinner.roots, hsplit ▸ hinner.known⟩
  | number hx => exact ⟨rfl, List.forall_mem_nil _⟩
  | string s => exact ⟨rfl, List.forall_mem_nil _⟩
  | @constant name v hv =>
    have hnone : Root.ofName? name = none := by
      simp only [constants, List.mem_cons, Prod.mk.injEq, List.not_mem_nil, or_false] at hv
      rcases hv with ⟨rfl, -⟩ | ⟨rfl, -⟩ | ⟨rfl, -⟩ <;> decide
    refine ⟨?_, fun n hn => ?_⟩
    · exact List.filterMap_cons_none hnone
    · obtain rfl : n = name := List.mem_singleton.1 hn
      exact .inr ⟨v, hv⟩
  | @path ts path root hpath =>
    have hnames : freeNames (.ident root.name :: ts) = [root.name] := congrArg (root.name :: ·) hpath.freeNames_eq
    refine ⟨?_, ?_⟩
    · rw [hnames, List.filterMap_cons_some (Root.ofName?_name root)]
      rfl
    · intro n hn
      rw [hnames, List.mem_singleton] at hn
      rw [hn, Root.ofName?_name]
      exact .inl (Option.some_ne_none root)

theorem Names.mem_roots {ts : List Token} {e : Tree} (h : Names ts e) {name : String} (hname : name ∈ freeNames ts) :
    (∃ r ∈ e.roots, r.name = name) ∨ ∃ v, (name, v) ∈ constants := by
  refine (h.known name hname).imp_left fun hroot => ?_
  obtain ⟨r, hr⟩ := Option.ne_none_iff_exists'.1 hroot
  exact ⟨r, h.roots ▸ List.mem_filterMap.2 ⟨name, hname, hr⟩, Root.name_of_ofName? hr⟩

theorem exists_names_of_ofSource {source : String} {e : Expression} (h : ofSource source = .ok e) :
    ∃ ts, tokenize source = .ok ts ∧ Names ts e.tree := by
  obtain ⟨tree, hparse, hend⟩ := bind_eq_ok_iff.1 h
  obtain ⟨ts, htokens, htree⟩ := bind_eq_ok_iff.1 hparse
  obtain ⟨ns, hderives, -⟩ := exists_derives_of_parseTokens htree
  cases hend
  exact ⟨ts, htokens, hderives.names List.suffix_rfl⟩

theorem congruent_eq : Congruent Eq where
  refl _ := rfl
  truthy h := h ▸ rfl
  read h _ := h ▸ .refl (fun _ => rfl) _
  unary _ _ _ h := h ▸ .refl (fun _ => rfl) _
  binary _ _ _ _ _ ha hb := ha ▸ hb ▸ .refl (fun _ => rfl) _

theorem readRoot_insert {root : Root} {key : String} (h : root.name ≠ key) (v : Json) (members : Json.Object) :
    readRoot (.object (members.insert key v)) root = readRoot (.object members) root := by
  unfold readRoot
  dsimp only
  rw [Json.Object.get?_insert, if_neg (Ne.symm h)]

/-- The value of an expression depends on nothing but the values at the roots of its tree, an absent one being `null`:
in scopes that have the same values there it has the same value or the same error, and in scopes that have equal values
there it has equal values.  The roots are those that its text names, in their order; what else is named there, other
than the keys of members, are constants.  No other member of the scope makes a difference. -/
theorem eval_depends_on_roots {source : String} {e : Expression} (h : ofSource source = .ok e) :
    (∀ scope scope' : Json, (∀ r ∈ e.tree.roots, readRoot scope r = readRoot scope' r) →
      e.eval scope = e.eval scope' ∧ e.holds scope = e.holds scope') ∧
    (∀ scope scope' : Json, (∀ r ∈ e.tree.roots, Json.sameValue (readRoot scope r) (readRoot scope' r) = true) →
      Agree SameValue (e.eval scope) (e.eval scope') ∧ e.holds scope = e.holds scope') ∧
    (∃ ts, tokenize source = .ok ts ∧ (freeNames ts).filterMap Root.ofName? = e.tree.roots ∧
      ∀ name ∈ freeNames ts, (∃ r ∈ e.tree.roots, r.name = name) ∨ ∃ v, (name, v) ∈ constants) ∧
    ∀ (members : Json.Object) (key : String) (v : Json), (∀ r ∈ e.tree.roots, r.name ≠ key) →
      e.eval (.object (members.insert key v)) = e.eval (.object members) ∧
        e.holds (.object (members.insert key v)) = e.holds (.object members) := by
  obtain ⟨ts, htokens, hnames⟩ := exists_names_of_ofSource h
  have hsame (scope scope' : Json) (hroots : ∀ r ∈ e.tree.roots, readRoot scope r = readRoot scope' r) :
      e.eval scope = e.eval scope' ∧ e.holds scope = e.holds scope' :=
    ⟨(congruent_eq.eval e.tree hroots).eq, congruent_eq.holds e.tree hroots⟩
  refine ⟨hsame, ?_, ⟨ts, htokens, hnames.roots, fun _ => hnames.mem_roots⟩, ?_⟩
  · intro scope scope' hroots
    exact ⟨congruent_sameValue.eval e.tree hroots, congruent_sameValue.holds e.tree hroots⟩
  · intro members key v hkey
    exact hsame _ _ fun r hr => readRoot_insert (hkey r hr) v members

/-- A load that is compared with an attribute is looked at in the telemetry and in the attributes only: the status of
the asset and a member that is no root make no difference. -/
theorem eval_limit_exceeded :
    ∃ e, ofSource "telemetry.load > attributes['asset limit'] || false" = .ok e ∧
      e.tree.roots = [.telemetry, .attributes] ∧
      ∀ telemetry attributes asset other : Json,
        e.eval (.object [("asset", asset), ("attributes", attributes), ("other", other), ("telemetry", telemetry)]) =
          e.eval (.object [("attributes", attributes), ("telemetry", telemetry)]) := by
  have hroots : (ofSource "telemetry.load > attributes['asset limit'] || false").toOption.map (·.tree.roots) =
      some [.telemetry, .attributes] := by decide +kernel
  cases he : ofSource "telemetry.load > attributes['asset limit'] || false" with
  | error cause => simp [he, Except.toOption] at hroots
  | ok e =>
    have htree : e.tree.roots = [.telemetry, .attributes] := by simpa [he, Except.toOption] using hroots
    refine ⟨e, rfl, htree, fun telemetry attributes asset other => ?_⟩
    apply ((eval_depends_on_roots he).1 _ _ _).1
    rw [htree]
    intro r hr
    simp only [List.mem_cons, List.not_mem_nil, or_false] at hr
    rcases hr with rfl | rfl <;> rfl

end RuleFlow.Expression
