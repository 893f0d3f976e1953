import RuleFlow.Expression.Evaluation
import RuleFlow.Proofs.Expression.Parsing
/-! # Keys as literals

A text is written between two marks with a backslash before each backslash and each such mark in it, and is read back
as it was.  So every key can be written into a path.  Main statements: `quoted_spell`, and `ofSource_member`, by which
a member of a root has an expression whatever its key. -/
namespace RuleFlow.Expression

inductive Quote | single | double
  deriving DecidableEq, Repr

namespace Quote

def char : Quote → Char
  | .single => '\''
  | .double => '"'

def escape (q : Quote) (c : Char) : List Char := if c = '\\' ∨ c = q.char then ['\\', c] else [c]

def spell (q : Quote) (s : String) : List Char := q.char :: (s.toList.flatMap q.escape ++ [q.char])

end Quote

/-- A mark and a backslash stand for themselves after a backslash. -/
theorem unescape_of_escaped {q : Quote} {c : Char} (h : c = '\\' ∨ c = q.char) : unescape c = c := by
  rcases h with rfl | rfl
  · rfl
  · cases q <;> rfl

/-- What is escaped is read back, up to the mark that ends it. -/
theorem quoted_spell (q : Quote) (cs rest : List Char) :
    quoted q.char (cs.flatMap q.escape ++ q.char :: rest) = some (cs, rest) := by
  induction cs with
  | nil =>
    rw [List.flatMap_nil, List.nil_append, quoted.eq_def]
    exact if_pos rfl
  | cons c cs ih =>
    rw [List.flatMap_cons, List.append_assoc, Quote.escape]
    split
    · rename_i hc
      have hmark : '\\' ≠ q.char := by cases q <;> decide
      rw [List.cons_append, List.cons_append, List.nil_append, quoted, if_neg hmark, if_pos rfl, ih,
        unescape_of_escaped hc]
      rfl
    · rename_i hc
      obtain ⟨hbackslash, hmark⟩ := not_or.1 hc
      rw [List.cons_append, List.nil_append, quoted.eq_def]
      dsimp only
      rw [if_neg hmark, if_neg hbackslash, ih]
      rfl

/-- Whether a text is at its end or goes on with a character that is not of a class. -/
def Stops (p : Char → Bool) (rest : List Char) : Prop := ∀ d ∈ rest.head?, p d = false

theorem takeWhile_of_stops {p : Char → Bool} {cs rest : List Char} (hcs : ∀ c ∈ cs, p c = true) (h : Stops p rest) :
    (cs ++ rest).takeWhile p = cs ∧ (cs ++ rest).dropWhile p = rest := by
  rw [List.takeWhile_append_of_pos hcs, List.dropWhile_append_of_pos hcs]
  cases rest with
  | nil => simp
  | cons d rest =>
    have hd : p d = false := h d rfl
    simp [hd]

section Scanning

variable {total : Nat} {c : Char} {rest : List Char} {ts : List Token}

theorem tokensFrom_of_scan {t : Token} {rest' : List Char} (hblank : Text.isBlank c = false)
    (hscan : ∀ position, ∃ h, scan position c rest = .ok (t, ⟨rest', h⟩)) (hrest : tokensFrom total rest' = .ok ts) :
    tokensFrom total (c :: rest) = .ok (t :: ts) := by
  obtain ⟨h, hscan⟩ := hscan (total - (rest.length + 1))
  rw [tokensFrom, hblank, hscan]
  simp only [hrest]
  rfl

theorem tokensFrom_spell (q : Quote) (s : String) (hrest : tokensFrom total rest = .ok ts) :
    tokensFrom total (q.spell s ++ rest) = .ok (.string s :: ts) := by
  have hblank : Text.isBlank q.char = false := by cases q <;> decide
  have hdigit : Text.isDigit q.char = false := by cases q <;> decide
  have hmark : q.char = '"' ∨ q.char = '\'' := by cases q <;> decide
  have hquoted := quoted_spell q s.toList rest
  rw [Quote.spell, List.cons_append, List.append_assoc, List.singleton_append]
  refine tokensFrom_of_scan hblank (fun position => ⟨by simp; omega, ?_⟩) hrest
  unfold scan
  rw [hdigit, if_neg Bool.false_ne_true, if_pos hmark]
  split
  · rename_i h
    rw [hquoted] at h
    cases h
    simp
  · rename_i h
    rw [hquoted] at h
    cases h

theorem tokensFrom_ident {name : List Char}
    (hc : Text.isBlank c = false ∧ Text.isDigit c = false ∧ isIdentStart c = true ∧ c ≠ '"' ∧ c ≠ '\'')
    (hname : ∀ d ∈ name, isIdentPart d = true) (hstop : Stops isIdentPart rest)
    (hrest : tokensFrom total rest = .ok ts) :
    tokensFrom total (c :: (name ++ rest)) = .ok (.ident (String.ofList (c :: name)) :: ts) := by
  obtain ⟨hblank, hdigit, hstart, hmark⟩ := hc
  obtain ⟨htake, hdrop⟩ := takeWhile_of_stops hname hstop
  refine tokensFrom_of_scan hblank (fun position => ⟨by simp, ?_⟩) hrest
  unfold scan
  rw [hdigit, if_neg Bool.false_ne_true, if_neg (not_or.2 hmark), if_pos hstart]
  simp only [htake, hdrop]

theorem tokensFrom_symbol {t : Token} {length : Nat}
    (hc : Text.isBlank c = false ∧ Text.isDigit c = false ∧ isIdentStart c = false ∧ c ≠ '"' ∧ c ≠ '\'')
    (ht : symbol? (c :: rest) = some (t, length)) (hrest : tokensFrom total (rest.drop (length - 1)) = .ok ts) :
    tokensFrom total (c :: rest) = .ok (t :: ts) := by
  obtain ⟨hblank, hdigit, hstart, hmark⟩ := hc
  refine tokensFrom_of_scan hblank (fun position => ⟨by simp, ?_⟩) hrest
  unfold scan
  rw [hdigit, if_neg Bool.false_ne_true, if_neg (not_or.2 hmark), hstart, if_neg Bool.false_ne_true]
  simp only [ht]

end Scanning

/-- The text of a path from a root to one of its members. -/
def memberSource (root : Root) (q : Quote) (key : String) : String :=
  root.name ++ "[" ++ String.ofList (q.spell key) ++ "]"

example : memberSource .telemetry .double "flow \"in\"" = "telemetry[\"flow \\\"in\\\"\"]" := by decide

theorem tokenize_member (root : Root) (q : Quote) (key : String) :
    tokenize (memberSource root q key) = .ok [.ident root.name, .lbracket, .string key, .rbracket] := by
  obtain ⟨c, name, hname, hc, hpart⟩ : ∃ c name, root.name.toList = c :: name ∧
      (Text.isBlank c = false ∧ Text.isDigit c = false ∧ isIdentStart c = true ∧ c ≠ '"' ∧ c ≠ '\'') ∧
        name.all isIdentPart = true := by
    cases root <;> exact ⟨_, _, rfl, by decide +kernel, by decide +kernel⟩
  have htext : (memberSource root q key).toList = c :: (name ++ '[' :: (q.spell key ++ [']'])) := by
    simp [memberSource, hname]
  have hroot : String.ofList (c :: name) = root.name := by rw [← hname, String.ofList_toList]
  rw [tokenize, htext, ← hroot]
  have hstop : Stops isIdentPart ('[' :: (q.spell key ++ [']'])) := by
    rintro d ⟨⟩
    decide +kernel
  refine tokensFrom_ident hc (List.all_eq_true.1 hpart) hstop ?_
  refine tokensFrom_symbol (by decide +kernel) rfl (tokensFrom_spell q key ?_)
  exact tokensFrom_symbol (by decide +kernel) rfl (by rw [List.drop_nil, tokensFrom])

/-- Every member of a root can be read by an expression, whatever characters its key has. -/
theorem ofSource_member (root : Root) (q : Quote) (key : String) :
    ofSource (memberSource root q key) = .ok ⟨memberSource root q key, .path root [.key key]⟩ := by
  have hpath : Derives [] [.ident root.name, .lbracket, .string key, .rbracket] [0, 0, 0, 0] (.path root [.key key]) :=
    .path root (.key key .nil)
  have htokens : Derives rows [.ident root.name, .lbracket, .string key, .rbracket] [0, 0, 0, 0]
      (.path root [.key key]) := .operand (.operand (.operand (.operand (.operand (.operand hpath)))))
  have hfits : Fits (maxDepth - 1) maxOperators [0, 0, 0, 0] (.path root [.key key]) := by
    constructor
    · decide
    · exact Nat.zero_le _
  have hparse : parse (memberSource root q key) = .ok (.path root [.key key]) := by
    unfold parse
    rw [tokenize_member]
    change parseTokens _ = _
    rw [parseTokens_of_derives htokens, if_pos hfits]
  unfold ofSource
  rw [hparse]
  rfl

theorem eval_member {scope : Json} {root : Root} {members : Json.Object}
    (h : readRoot scope root = .object members) (key : String) :
    (Tree.path root [.key key]).eval scope = .ok ((Json.Object.get? members key).getD .null) := by
  rw [Tree.eval, h]
  rfl

end RuleFlow.Expression
