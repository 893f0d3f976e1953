import RuleFlow.Text.CharClass
/-! # Character classes that do not meet

Blanks are neither letters nor numerals, and letters are no digits: no range of the one table meets a range of the
other.  Main statements: `isLetterOrNumeral_of_isBlank`, `isDigit_of_isBlank` and `isDigit_of_isLetter`. -/
namespace RuleFlow

namespace Text

variable {c : Char}

def apart (rs rs' : List (Nat × Nat)) : Bool := rs.all fun r => rs'.all fun r' => r.2 < r'.1 || r'.2 < r.1

theorem inRanges_of_apart {rs rs' : List (Nat × Nat)} (h : apart rs rs' = true) (hc : inRanges rs c = true) :
    inRanges rs' c = false := by
  rw [inRanges, List.any_eq_true] at hc
  obtain ⟨r, hr, hin⟩ := hc
  rw [inRanges, List.any_eq_false]
  intro r' hr' hin'
  have happart := List.all_eq_true.1 (List.all_eq_true.1 h r hr) r' hr'
  simp only [Bool.and_eq_true, Bool.or_eq_true, decide_eq_true_iff] at hin hin' happart
  omega

def digitRanges : List (Nat × Nat) := [(0x30, 0x39)]

theorem isDigit_eq (c : Char) : isDigit c = inRanges digitRanges c := by
  simp [isDigit, inRanges, digitRanges, Char.le_def, UInt32.le_iff_toNat_le]

theorem isDigit_of_isBlank (h : isBlank c = true) : isDigit c = false :=
  (isDigit_eq c).trans (inRanges_of_apart (by decide) h)

theorem isBlank_of_isDigit (h : isDigit c = true) : isBlank c = false := by
  cases hc : isBlank c with
  | false => rfl
  | true => rw [isDigit_of_isBlank hc] at h; cases h

theorem isLetterOrNumeral_of_isBlank (h : isBlank c = true) : isLetterOrNumeral c = false := by
  have hletter : inRanges alphabeticRanges c = false := inRanges_of_apart (by decide +kernel) h
  have hnumeral : inRanges numericRanges c = false := inRanges_of_apart (by decide +kernel) h
  rw [isLetterOrNumeral, isLetter, hletter, hnumeral]
  rfl

theorem isDigit_of_isLetter (h : isLetter c = true) : isDigit c = false :=
  (isDigit_eq c).trans (inRanges_of_apart (by decide +kernel) h)

end Text

end RuleFlow
