import RuleFlow.Proofs.Expression.Quoted
import RuleFlow.Proofs.Text.CharClass
/-! # Numbers as they are written

Digits, a point with digits if there is a fraction, and an exponent if there is one.  Such a text is read up to its end,
and as the float that is nearest to the decimal which it spells.  Main statements: `numberLength_text` and
`numberValue?_text`. -/
namespace RuleFlow.Expression

structure Digits where
  text : List Char
  text_ne_nil : text ≠ []
  isDigit_of_mem : ∀ c ∈ text, Text.isDigit c = true

inductive Sign | plus | minus
  deriving DecidableEq, Repr

def Sign.char : Sign → Char
  | .plus => '+'
  | .minus => '-'

/-- The power of ten of a number; its letter may be a capital. -/
structure Exponent where
  capital : Bool
  sign : Option Sign
  digits : Digits

namespace Exponent

def letter (x : Exponent) : Char := if x.capital then 'E' else 'e'

def signText (x : Exponent) : List Char := (x.sign.map Sign.char).toList

def text (x : Exponent) : List Char := x.letter :: (x.signText ++ x.digits.text)

def value (x : Exponent) : Int :=
  match x.sign with
  | some .minus => -(Text.natOfDigits x.digits.text : Int)
  | _ => Text.natOfDigits x.digits.text

end Exponent

structure Numeral where
  whole : Digits
  fraction : Option Digits
  exponent : Option Exponent

namespace Numeral

def fractionDigits (n : Numeral) : List Char :=
  match n.fraction with
  | some digits => digits.text
  | none => []

def mantissa (n : Numeral) : List Char :=
  match n.fraction with
  | some digits => n.whole.text ++ '.' :: digits.text
  | none => n.whole.text

def exponentText (n : Numeral) : List Char :=
  match n.exponent with
  | some x => x.text
  | none => []

def text (n : Numeral) : List Char := n.mantissa ++ n.exponentText

def exponentValue (n : Numeral) : Int :=
  match n.exponent with
  | some x => x.value
  | none => 0

def decimal (n : Numeral) : Decimal.Scaled :=
  ⟨Text.natOfDigits (n.whole.text ++ n.fractionDigits), n.exponentValue - n.fractionDigits.length⟩

def value (n : Numeral) : Float := Decimal.toFloat n.decimal

end Numeral

section

variable {rest : List Char}

theorem isNumberPart_of_isDigit {c : Char} (h : Text.isDigit c = true) : isNumberPart c = true := by
  rw [isNumberPart, h]
  rfl

theorem stops_isDigit (h : Stops isNumberPart rest) : Stops Text.isDigit rest := by
  intro d hd
  cases hdigit : Text.isDigit d with
  | false => rfl
  | true => exact absurd (isNumberPart_of_isDigit hdigit) (by simp [h d hd])

theorem sign_ne_of_isDigit {d : Char} (h : Text.isDigit d = true) : d ≠ '+' ∧ d ≠ '-' := by
  constructor <;> rintro rfl <;> exact absurd h (by decide)

namespace Exponent

variable (x : Exponent)

theorem isExponent_letter : x.letter = 'e' ∨ x.letter = 'E' := by
  unfold letter
  cases x.capital
  · exact .inl rfl
  · exact .inr rfl

theorem isNumberPart_letter : isNumberPart x.letter = false := by
  rcases x.isExponent_letter with h | h <;> rw [h] <;> rfl

theorem exponentLength_text (h : Stops Text.isDigit rest) : exponentLength (x.text ++ rest) = x.text.length := by
  obtain ⟨hdigits, -⟩ := takeWhile_of_stops x.digits.isDigit_of_mem h
  have hlength : x.digits.text.length ≠ 0 := mt List.length_eq_zero_iff.1 x.digits.text_ne_nil
  rw [text, List.cons_append, List.append_assoc]
  simp only [exponentLength, if_pos x.isExponent_letter]
  cases hsign : x.sign with
  | some sign =>
    have hs : sign.char = '+' ∨ sign.char = '-' := by cases sign <;> decide
    simp only [signText, hsign, Option.map_some, Option.toList_some, List.cons_append, List.nil_append, if_pos hs,
      List.drop_succ_cons, List.drop_zero, hdigits, if_neg hlength, List.length_cons]
    omega
  | none =>
    obtain ⟨d, ds, hd⟩ := List.exists_cons_of_ne_nil x.digits.text_ne_nil
    have hs : ¬ (d = '+' ∨ d = '-') := by
      obtain ⟨hplus, hminus⟩ := sign_ne_of_isDigit (x.digits.isDigit_of_mem d (hd ▸ List.mem_cons_self))
      exact not_or.2 ⟨hplus, hminus⟩
    rw [hd] at hdigits hlength
    simp only [signText, hsign, hd, Option.map_none, Option.toList_none, List.nil_append, List.cons_append, if_neg hs,
      List.drop_zero] at hdigits ⊢
    rw [hdigits, if_neg hlength]
    simp only [List.length_cons]
    omega

end Exponent

theorem exponentLength_of_stops (h : ∀ d ∈ rest.head?, d ≠ 'e' ∧ d ≠ 'E') : exponentLength rest = 0 := by
  cases rest with
  | nil => rfl
  | cons d rest =>
    simp only [exponentLength, if_neg (not_or.2 (h d rfl))]

namespace Numeral

variable (n : Numeral)

theorem isNumberPart_mantissa : ∀ c ∈ n.mantissa, isNumberPart c = true := by
  intro c hc
  have hwhole (h : c ∈ n.whole.text) : isNumberPart c = true := isNumberPart_of_isDigit (n.whole.isDigit_of_mem c h)
  unfold mantissa at hc
  split at hc
  · rename_i digits _
    rcases List.mem_append.1 hc with h | h
    · exact hwhole h
    rcases List.mem_cons.1 h with rfl | h
    · rfl
    · exact isNumberPart_of_isDigit (digits.isDigit_of_mem c h)
  · exact hwhole hc

theorem stops_exponentText (h : Stops isNumberPart rest) : Stops isNumberPart (n.exponentText ++ rest) := by
  unfold exponentText
  split
  · rename_i x _
    rintro d ⟨⟩
    exact x.isNumberPart_letter
  · exact h

theorem exists_cons_text : ∃ c cs, n.text = c :: cs ∧ Text.isDigit c = true := by
  obtain ⟨c, cs, hwhole⟩ := List.exists_cons_of_ne_nil n.whole.text_ne_nil
  have hdigit : Text.isDigit c = true := n.whole.isDigit_of_mem c (hwhole ▸ List.mem_cons_self)
  unfold text mantissa
  rw [hwhole]
  cases n.fraction with
  | none => exact ⟨c, _, rfl, hdigit⟩
  | some digits => exact ⟨c, _, rfl, hdigit⟩

/-- A number ends where its text does, if what follows can neither go on with it nor begin an exponent. -/
theorem numberLength_text (h : Stops isNumberPart rest) (hexponent : ∀ d ∈ rest.head?, d ≠ 'e' ∧ d ≠ 'E') :
    numberLength (n.text ++ rest) = n.text.length := by
  obtain ⟨hmantissa, -⟩ := takeWhile_of_stops n.isNumberPart_mantissa (n.stops_exponentText h)
  rw [numberLength, text, List.append_assoc, hmantissa, List.drop_left, List.length_append]
  congr 1
  unfold exponentText
  split
  · rename_i x _
    exact x.exponentLength_text (stops_isDigit h)
  · exact exponentLength_of_stops hexponent

theorem takeWhile_mantissa : n.mantissa.takeWhile Text.isDigit = n.whole.text ∧
    (n.mantissa.dropWhile Text.isDigit).drop 1 = n.fractionDigits := by
  unfold mantissa fractionDigits
  split
  · rename_i digits _
    have hpoint : Stops Text.isDigit ('.' :: digits.text) := by
      rintro d ⟨⟩
      rfl
    obtain ⟨htake, hdrop⟩ := takeWhile_of_stops n.whole.isDigit_of_mem hpoint
    exact ⟨htake, by rw [hdrop]; rfl⟩
  · have hend : Stops Text.isDigit [] := by simp [Stops]
    obtain ⟨htake, hdrop⟩ := takeWhile_of_stops n.whole.isDigit_of_mem hend
    rw [List.append_nil] at htake hdrop
    exact ⟨htake, by rw [hdrop]; rfl⟩

theorem isDigit_fractionDigits : n.fractionDigits.all Text.isDigit = true := by
  unfold fractionDigits
  split
  · exact List.all_eq_true.2 (Digits.isDigit_of_mem _)
  · rfl

theorem exponentValue_eq : (match n.exponentText.drop 1 with
    | '-' :: digits => -(Text.natOfDigits digits : Int)
    | '+' :: digits => Text.natOfDigits digits
    | digits => Text.natOfDigits digits) = n.exponentValue := by
  unfold exponentText exponentValue
  cases n.exponent with
  | none => rfl
  | some x =>
    simp only [Exponent.text, Exponent.signText, Exponent.value, List.drop_succ_cons, List.drop_zero]
    cases x.sign with
    | some sign => cases sign <;> rfl
    | none =>
      simp only [Option.map_none, Option.toList_none, List.nil_append]
      split
      · rename_i hminus
        exact absurd rfl (sign_ne_of_isDigit (x.digits.isDigit_of_mem '-' (hminus ▸ List.mem_cons_self))).2
      · rename_i hplus
        exact absurd rfl (sign_ne_of_isDigit (x.digits.isDigit_of_mem '+' (hplus ▸ List.mem_cons_self))).1
      · rfl

/-- The text of a number has the value of the decimal that it spells, if that is finite. -/
theorem numberValue?_text : numberValue? n.text = if n.value.isFinite then some n.value else none := by
  have hmantissa : n.text.takeWhile isNumberPart = n.mantissa := by
    have hend : Stops isNumberPart [] := by simp [Stops]
    have hstops := n.stops_exponentText hend
    rw [List.append_nil] at hstops
    exact (takeWhile_of_stops n.isNumberPart_mantissa hstops).1
  have hdrop : n.text.drop (n.mantissa.length + 1) = n.exponentText.drop 1 := by
    rw [text, ← List.drop_drop, List.drop_left]
  obtain ⟨hwhole, hfraction⟩ := n.takeWhile_mantissa
  simp only [numberValue?, hmantissa, hwhole, hfraction, hdrop]
  rewrite [if_pos n.isDigit_fractionDigits, value, decimal, ← n.exponentValue_eq]
  rfl

end Numeral
end
end RuleFlow.Expression
