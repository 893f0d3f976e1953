import RuleFlow.Text.Alphabetic
import RuleFlow.Text.Numeric
/-! # Character classes

Letters, numerals and blanks by their Unicode properties.  The tables are sorted lists of inclusive ranges. -/
namespace RuleFlow.Text

def inRanges (ranges : List (Nat × Nat)) (c : Char) : Bool :=
  ranges.any fun r => r.1 ≤ c.toNat && c.toNat ≤ r.2

def blankRanges : List (Nat × Nat) :=
  [(0x9, 0xD), (0x20, 0x20), (0x85, 0x85), (0xA0, 0xA0), (0x1680, 0x1680), (0x2000, 0x200A), (0x2028, 0x2029),
   (0x202F, 0x202F), (0x205F, 0x205F), (0x3000, 0x3000)]

/-- A character with the property `White_Space`. -/
def isBlank (c : Char) : Bool := inRanges blankRanges c

/-- A character with the property `Alphabetic`. -/
def isLetter (c : Char) : Bool := inRanges alphabeticRanges c

/-- A letter or a character of a number category. -/
def isLetterOrNumeral (c : Char) : Bool := isLetter c || inRanges numericRanges c

def isDigit (c : Char) : Bool := '0' ≤ c && c ≤ '9'

def digitValue (c : Char) : Nat := c.toNat - '0'.toNat

def isBlankText (s : String) : Bool := s.toList.all isBlank

def natOfDigits (cs : List Char) : Nat := cs.foldl (fun n c => 10 * n + digitValue c) 0

end RuleFlow.Text
