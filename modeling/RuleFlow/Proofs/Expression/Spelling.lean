import RuleFlow.Proofs.Expression.Numeral
/-! # Tokens as they are written

A token is written as a number, as a text between marks, as a name, or as an operator or a punctuation mark.  Between
tokens stand blanks.  What is written so is cut into the tokens again.  Main statements: `tokensFrom_spelled`, by which
a token is read up to the blank that follows it, and `tokenize_written`. -/
namespace RuleFlow.Expression

def Token.mark? : Token → Option String
  | .op o => some o.text
  | .lparen => some "("
  | .rparen => some ")"
  | .lbracket => some "["
  | .rbracket => some "]"
  | .dot => some "."
  | _ => none

inductive Spells : Token → List Char → Prop
  | number (n : Numeral) (hn : n.value.isFinite = true) : Spells (.number n.value) n.text
  | string (q : Quote) (s : String) : Spells (.string s) (q.spell s)
  | ident {c : Char} {name : List Char} (hc : isIdentStart c = true) (hname : ∀ d ∈ name, isIdentPart d = true) :
    Spells (.ident (String.ofList (c :: name))) (c :: name)
  | mark {t : Token} {text : String} (h : t.mark? = some text) : Spells t text.toList

/-- Texts that are made of tokens and blanks.  A token is followed by a blank or by the end of the text. -/
inductive Written : List Token → List Char → Prop
  | nil : Written [] []
  | blank {c : Char} {ts : List Token} {rest : List Char} (hc : Text.isBlank c = true) (h : Written ts rest) :
    Written ts (c :: rest)
  | token {t : Token} {text : List Char} {ts : List Token} {rest : List Char} (ht : Spells t text)
    (hrest : ∀ d ∈ rest.head?, Text.isBlank d = true) (h : Written ts rest) : Written (t :: ts) (text ++ rest)

/-- A token with a blank after it. -/
theorem Written.spaced {c : Char} {t : Token} {text rest : List Char} {ts : List Token} (hc : Text.isBlank c = true)
    (ht : Spells t text) (h : Written ts rest) : Written (t :: ts) (text ++ c :: rest) := by
  have hrest : ∀ d ∈ (c :: rest).head?, Text.isBlank d = true := by
    rintro d ⟨⟩
    exact hc
  exact .token ht hrest (.blank hc h)

section

variable {c : Char}

theorem isIdentPart_of_isBlank (h : Text.isBlank c = true) : isIdentPart c = false := by
  have hunderscore : c ≠ '_' := by rintro rfl; exact absurd h (by decide)
  have hdollar : c ≠ '$' := by rintro rfl; exact absurd h (by decide)
  simp [isIdentPart, Text.isLetterOrNumeral_of_isBlank h, hunderscore, hdollar]

theorem isNumberPart_of_isBlank (h : Text.isBlank c = true) : isNumberPart c = false := by
  have hpoint : c ≠ '.' := by rintro rfl; exact absurd h (by decide)
  simp [isNumberPart, Text.isDigit_of_isBlank h, hpoint]

theorem isIdentPart_of_isIdentStart (h : isIdentStart c = true) : isIdentPart c = true := by
  simp only [isIdentStart, isIdentPart, Text.isLetterOrNumeral, Bool.or_eq_true] at h ⊢
  tauto

/-- The scanner comes to the names after blanks, digits and the marks of texts. -/
theorem scanned_of_isIdentStart (h : isIdentStart c = true) :
    Text.isBlank c = false ∧ Text.isDigit c = false ∧ isIdentStart c = true ∧ c ≠ '"' ∧ c ≠ '\'' := by
  refine ⟨?_, ?_, h, ?_, ?_⟩
  · cases hc : Text.isBlank c with
    | false => rfl
    | true => exact absurd (isIdentPart_of_isIdentStart h) (by simp [isIdentPart_of_isBlank hc])
  · simp only [isIdentStart, Bool.or_eq_true, decide_eq_true_iff] at h
    rcases h with (hletter | rfl) | rfl
    · exact Text.isDigit_of_isLetter hletter
    · rfl
    · rfl
  · rintro rfl
    exact absurd h (by decide +kernel)
  · rintro rfl
    exact absurd h (by decide +kernel)

end

section

variable {total : Nat} {rest : List Char} {ts : List Token}

theorem tokensFrom_blank {c : Char} (hc : Text.isBlank c = true) :
    tokensFrom total (c :: rest) = tokensFrom total rest := by
  rw [tokensFrom, if_pos hc]

theorem tokensFrom_number (n : Numeral) (hn : n.value.isFinite = true)
    (hend : ∀ d ∈ rest.head?, Text.isBlank d = true) (hrest : tokensFrom total rest = .ok ts) :
    tokensFrom total (n.text ++ rest) = .ok (.number n.value :: ts) := by
  have hstops : Stops isNumberPart rest := fun d hd => isNumberPart_of_isBlank (hend d hd)
  have hexponent : ∀ d ∈ rest.head?, d ≠ 'e' ∧ d ≠ 'E' := by
    intro d hd
    have hblank := hend d hd
    constructor <;> rintro rfl <;> exact absurd hblank (by decide)
  have hlength := n.numberLength_text hstops hexponent
  have hvalue := n.numberValue?_text
  obtain ⟨c, cs, htext, hdigit⟩ := n.exists_cons_text
  rw [if_pos hn, htext] at hvalue
  rw [htext, List.cons_append] at hlength ⊢
  refine tokensFrom_of_scan (Text.isBlank_of_isDigit hdigit) (fun position => ⟨by simp, ?_⟩) hrest
  simp [scan, hdigit, hlength, hvalue]

theorem symbol?_op (o : Operator) (hend : ∀ d ∈ rest.head?, Text.isBlank d = true) :
    symbol? (o.text.toList ++ rest) = some (.op o, o.text.length) := by
  cases rest with
  | nil => cases o <;> rfl
  | cons d rest =>
    have hblank : Text.isBlank d = true := hend d rfl
    have hd : d ≠ '=' := by rintro rfl; exact absurd hblank (by decide)
    cases o with
    | eq | ne | lt | gt | not =>
      simp [Operator.text, symbol?, hd]
      rfl
    | _ => rfl

theorem symbol?_mark {t : Token} {text : String} (h : t.mark? = some text)
    (hend : ∀ d ∈ rest.head?, Text.isBlank d = true) : symbol? (text.toList ++ rest) = some (t, text.length) := by
  cases t with
  | op o =>
    obtain rfl : o.text = text := by simpa [Token.mark?] using h
    exact symbol?_op o hend
  | number | string | ident => cases h
  | lparen | rparen | lbracket | rbracket | dot =>
    cases h
    rfl

/-- The scanner comes to operators and punctuation marks after all that begins with a character of a class. -/
theorem scanned_of_mark? {t : Token} {text : String} (h : t.mark? = some text) :
    ∃ c cs, text.toList = c :: cs ∧
      (Text.isBlank c = false ∧ Text.isDigit c = false ∧ isIdentStart c = false ∧ c ≠ '"' ∧ c ≠ '\'') := by
  cases t with
  | op o =>
    obtain rfl : o.text = text := by simpa [Token.mark?] using h
    cases o <;> exact ⟨_, _, rfl, by decide +kernel⟩
  | number | string | ident => cases h
  | lparen | rparen | lbracket | rbracket | dot =>
    cases h
    exact ⟨_, _, rfl, by decide +kernel⟩

theorem tokensFrom_mark {t : Token} {text : String} (h : t.mark? = some text)
    (hend : ∀ d ∈ rest.head?, Text.isBlank d = true) (hrest : tokensFrom total rest = .ok ts) :
    tokensFrom total (text.toList ++ rest) = .ok (t :: ts) := by
  have hsymbol := symbol?_mark h hend
  obtain ⟨c, cs, hchars, hc⟩ := scanned_of_mark? h
  have hlength : text.length - 1 = cs.length := by
    rw [← String.length_toList, hchars]
    rfl
  rw [hchars, List.cons_append] at hsymbol ⊢
  refine tokensFrom_symbol hc hsymbol ?_
  rwa [hlength, List.drop_left]

/-- A token is read up to the blank or the end that follows it. -/
theorem tokensFrom_spelled {t : Token} {text : List Char} (ht : Spells t text)
    (hend : ∀ d ∈ rest.head?, Text.isBlank d = true) (hrest : tokensFrom total rest = .ok ts) :
    tokensFrom total (text ++ rest) = .ok (t :: ts) := by
  cases ht with
  | number n hn => exact tokensFrom_number n hn hend hrest
  | string q s => exact tokensFrom_spell q s hrest
  | ident hc hname =>
    have hstops : Stops isIdentPart rest := fun d hd => isIdentPart_of_isBlank (hend d hd)
    exact tokensFrom_ident (scanned_of_isIdentStart hc) hname hstops hrest
  | mark h => exact tokensFrom_mark h hend hrest

theorem tokensFrom_written {text : List Char} (h : Written ts text) : tokensFrom total text = .ok ts := by
  induction h with
  | nil => rw [tokensFrom]
  | blank hc _ ih => rw [tokensFrom_blank hc, ih]
  | token ht hrest _ ih => exact tokensFrom_spelled ht hrest ih

end

/-- Tokens that are written with blanks between them are read as they were. -/
theorem tokenize_written {ts : List Token} {text : List Char} (h : Written ts text) :
    tokenize (String.ofList text) = .ok ts := by
  rw [tokenize, String.toList_ofList]
  exact tokensFrom_written h

def Numeral.threshold : Numeral where
  whole := ⟨['1'], List.cons_ne_nil _ _, List.all_eq_true.1 rfl⟩
  fraction := some ⟨['5'], List.cons_ne_nil _ _, List.all_eq_true.1 rfl⟩
  exponent := some ⟨false, some .plus, ⟨['2'], List.cons_ne_nil _ _, List.all_eq_true.1 rfl⟩⟩

theorem tokenize_written_threshold :
    tokenize "  _p1 <= 1.5e+2\t! rx [ 'it\\'s \\\\' ] . \"it's\" " =
      .ok [.ident "_p1", .op .le, .number 150, .op .not, .ident "rx", .lbracket, .string "it's \\",
        .rbracket, .dot, .string "it's"] := by
  have hvalue : Numeral.threshold.value = 150 := by decide +kernel
  have hfinite : Numeral.threshold.value.isFinite = true := by decide +kernel
  have hname : Spells (.ident "_p1") "_p1".toList := .ident (by decide +kernel) (List.all_eq_true.1 (by decide +kernel))
  have hnumber : Spells (.number 150) "1.5e+2".toList := hvalue ▸ .number .threshold hfinite
  have hroot : Spells (.ident "rx") "rx".toList := .ident (by decide +kernel) (List.all_eq_true.1 (by decide +kernel))
  have hindex : Spells (.string "it's \\") "'it\\'s \\\\'".toList := .string .single "it's \\"
  have hkey : Spells (.string "it's") "\"it's\"".toList := .string .double "it's"
  have hspace : Text.isBlank ' ' = true := by decide
  have htab : Text.isBlank '\t' = true := by decide
  have hwritten :=
    Written.blank hspace <| .blank hspace <| .spaced hspace hname <| .spaced hspace (.mark (t := .op .le) rfl) <|
    .spaced htab hnumber <| .spaced hspace (.mark (t := .op .not) rfl) <| .spaced hspace hroot <|
    .spaced hspace (.mark (t := .lbracket) rfl) <| .spaced hspace hindex <|
    .spaced hspace (.mark (t := .rbracket) rfl) <| .spaced hspace (.mark (t := .dot) rfl) <|
    .spaced hspace hkey .nil
  exact tokenize_written hwritten

end RuleFlow.Expression
