import RuleFlow.Json.Document
import RuleFlow.Text.CharClass
/-! # Reading JSON texts

A text is cut into tokens, and the tokens are put together on a stack of open arrays and objects.  Numbers are read
with a significand of at most one word: further digits only count as places, and the scaling by a power of ten
rounds once more. -/
namespace RuleFlow.Document

inductive Token
  | open (isObject : Bool)
  | close (isObject : Bool)
  | comma
  | colon
  | leaf (d : Document)

def isSpace (c : Char) : Bool := c = ' ' || c = '\n' || c = '\t' || c = '\r'

def isWordChar (c : Char) : Bool := c.isAlphanum || c = '+' || c = '-' || c = '.'

def hexValue? (c : Char) : Option Nat :=
  if '0' ≤ c ∧ c ≤ '9' then some (c.toNat - 48)
  else if 'a' ≤ c ∧ c ≤ 'f' then some (c.toNat - 87)
  else if 'A' ≤ c ∧ c ≤ 'F' then some (c.toNat - 55)
  else none

def hexUnit? (a b c d : Char) : Option Nat := do
  return (((← hexValue? a) * 16 + (← hexValue? b)) * 16 + (← hexValue? c)) * 16 + (← hexValue? d)

/-- What an escape after a backslash stands for, apart from `u`. -/
def simpleEscape? : Char → Option Char
  | '"' => some '"'
  | '\\' => some '\\'
  | '/' => some '/'
  | 'b' => some '\x08'
  | 'f' => some '\x0c'
  | 'n' => some '\n'
  | 'r' => some '\r'
  | 't' => some '\t'
  | _ => none

/-- The pieces of a text: characters and the units of sixteen bits that escapes spell. -/
inductive Piece
  | char (c : Char)
  | unit (n : Nat)

/-- Puts pieces together; a high and a low surrogate in a row give one character, and half a pair none. -/
def assemble : List Piece → Option (List Char)
  | [] => some []
  | .char c :: rest => (assemble rest).map (c :: ·)
  | .unit h :: .unit l :: rest =>
    if 0xD800 ≤ h ∧ h < 0xDC00 then
      if 0xDC00 ≤ l ∧ l < 0xE000 then
        (assemble rest).map (Char.ofNat (0x10000 + (h - 0xD800) * 0x400 + (l - 0xDC00)) :: ·)
      else none
    else if 0xDC00 ≤ h ∧ h < 0xE000 then none
    else (assemble (.unit l :: rest)).map (Char.ofNat h :: ·)
  | .unit h :: rest =>
    if 0xD800 ≤ h ∧ h < 0xE000 then none else (assemble rest).map (Char.ofNat h :: ·)

/-- The pieces of a text after its opening quote, and what follows the closing one. -/
def quoted (pieces : List Piece) : List Char → Option (List Piece × List Char)
  | '"' :: rest => some (pieces.reverse, rest)
  | '\\' :: 'u' :: a :: b :: c :: d :: rest =>
    match hexUnit? a b c d with
    | some n => quoted (.unit n :: pieces) rest
    | none => none
  | '\\' :: c :: rest =>
    match simpleEscape? c with
    | some c => quoted (.char c :: pieces) rest
    | none => none
  | c :: rest => if c.toNat < 0x20 then none else quoted (.char c :: pieces) rest
  | [] => none

theorem length_quoted {pieces out : List Piece} {cs rest : List Char} (h : quoted pieces cs = some (out, rest)) :
    rest.length < cs.length := by
  fun_induction quoted pieces cs <;> simp_all <;> omega

/-- A number as it is written: the digits, taken into one word as long as they fit it, and the power of ten. -/
structure Written where
  negative : Bool
  significand : Nat
  exponent : Int

/-- Takes digits before the point while the significand fits a word; each further digit is one place. -/
def takeWhole (significand : Nat) : List Char → Nat × Int
  | [] => (significand, 0)
  | c :: rest =>
    let next := 10 * significand + Text.digitValue c
    if next < UInt64.size then takeWhole next rest else (significand, (rest.length + 1 : Nat))

/-- Takes digits after the point while the significand fits a word, and drops the others. -/
def takeFraction (significand : Nat) (exponent : Int) : List Char → Nat × Int
  | [] => (significand, exponent)
  | c :: rest =>
    let next := 10 * significand + Text.digitValue c
    if next < UInt64.size then takeFraction next (exponent - 1) rest else (significand, exponent)

/-- The float of a written number, or none if it is beyond every float.  The significand is rounded to a float and
then scaled by powers of ten that are floats themselves. -/
def Written.toFloat? (w : Written) : Option Float :=
  let x := Float.ofNat w.significand
  let size := w.exponent.natAbs
  let power (n : Nat) : Float := Float.ofScientific 1 false n
  let scaled : Option Float :=
    if 0 ≤ w.exponent then
      if size ≤ 308 then
        let y := x * power size
        if y.isInf then none else some y
      else if x == 0.0 then some x else none
    else if size ≤ 308 then some (x / power size)
    else
      let small := x / power 308
      if size ≤ 616 then some (small / power (size - 308))
      else some 0.0
  scaled.map fun y => if w.negative then -y else y

/-- Splits an exponent part: its sign and its digits, of which there must be one. -/
def exponentPart? (cs : List Char) : Option Int :=
  let (negative, digits) := match cs with
    | '-' :: rest => (true, rest)
    | '+' :: rest => (false, rest)
    | _ => (false, cs)
  if digits ≠ [] ∧ digits.all Text.isDigit then
    let n : Int := Text.natOfDigits digits
    some (if negative then -n else n)
  else none

/-- Reads a bare word as a number.  The outer option tells whether it is one, the inner whether it has a value. -/
def number? (word : List Char) : Option (Option Json.Number) :=
  let (negative, cs) := match word with
    | '-' :: rest => (true, rest)
    | _ => (false, word)
  let whole := cs.takeWhile Text.isDigit
  let rest := cs.dropWhile Text.isDigit
  let leadingZero := whole.head? = some '0' ∧ whole.length ≠ 1
  if whole = [] ∨ leadingZero then none
  else
    let (significand, places) := takeWhole 0 whole
    let read (significand : Nat) (exponent : Int) : Option Json.Number :=
      (Written.toFloat? ⟨negative, significand, exponent⟩).bind Json.Number.ofFloat?
    let finish (significand : Nat) (exponent : Int) (rest : List Char) : Option (Option Json.Number) :=
      match rest with
      | [] => some (read significand exponent)
      | c :: more =>
        if c = 'e' ∨ c = 'E' then (exponentPart? more).map fun e => read significand (exponent + e) else none
    match rest with
    | '.' :: more =>
      let fraction := more.takeWhile Text.isDigit
      if fraction = [] then none
      else
        let (significand, exponent) := takeFraction significand places fraction
        finish significand exponent (more.dropWhile Text.isDigit)
    | [] =>
      let n : Int := if negative then -(significand : Int) else significand
      if places = 0 ∧ ¬(negative ∧ significand = 0) then
        match Json.Number.ofInt? n with
        | some n => some (some n)
        | none => some (read significand 0)
      else some (read significand places)
    | _ => finish significand places rest

def word? (word : List Char) : Option Document :=
  if word = ['n', 'u', 'l', 'l'] then some .null
  else if word = ['t', 'r', 'u', 'e'] then some (.bool true)
  else if word = ['f', 'a', 'l', 's', 'e'] then some (.bool false)
  else (number? word).map .number

def tokens (cs : List Char) : Option (List Token) :=
  match cs with
  | [] => some []
  | '\x7b' :: rest => (tokens rest).map (.open true :: ·)
  | '\x7d' :: rest => (tokens rest).map (.close true :: ·)
  | '[' :: rest => (tokens rest).map (.open false :: ·)
  | ']' :: rest => (tokens rest).map (.close false :: ·)
  | ',' :: rest => (tokens rest).map (.comma :: ·)
  | ':' :: rest => (tokens rest).map (.colon :: ·)
  | '"' :: rest =>
    match h : quoted [] rest with
    | some (pieces, rest') =>
      have := length_quoted h
      (tokens rest').map (.leaf (.string ((assemble pieces).map String.ofList)) :: ·)
    | none => none
  | c :: rest =>
    if isSpace c then tokens rest
    else if isWordChar c then
      match word? (c :: rest.takeWhile isWordChar) with
      | some d =>
        have : (rest.dropWhile isWordChar).length ≤ rest.length := (List.dropWhile_sublist _).length_le
        (tokens (rest.dropWhile isWordChar)).map (.leaf d :: ·)
      | none => none
    else none
  termination_by cs.length

/-- An array or object that is still open: what it holds so far, last first, and for an object the key that
waits for its value. -/
inductive Frame
  | array (items : List Document)
  | object (members : List (Option String × Document)) (key : Option (Option String))

/-- What may come next: a value, a value or the end of an empty array, a key or the end of an empty object, a key,
the colon after a key, or the comma or end after a value. -/
inductive Expect
  | value
  | firstItem
  | firstKey
  | key
  | colon
  | next
  deriving DecidableEq

/-- The state of the assembly of tokens.  The document is complete once there is a result. -/
structure Assembly where
  frames : List Frame
  expect : Expect
  result : Option Document

namespace Assembly

def start : Assembly := ⟨[], .value, none⟩

def put (a : Assembly) (d : Document) : Option Assembly :=
  match a.frames with
  | [] => if a.result.isNone then some { a with result := some d, expect := .next } else none
  | .array items :: frames => some { a with frames := .array (d :: items) :: frames, expect := .next }
  | .object members (some key) :: frames =>
    some { a with frames := .object ((key, d) :: members) none :: frames, expect := .next }
  | .object _ none :: _ => none

def acceptsValue (a : Assembly) : Bool := a.result.isNone && (a.expect = .value || a.expect = .firstItem)

def step (a : Assembly) (t : Token) : Option Assembly :=
  match t with
  | .open isObject =>
    if a.acceptsValue then
      some (if isObject then { a with frames := .object [] none :: a.frames, expect := .firstKey }
        else { a with frames := .array [] :: a.frames, expect := .firstItem })
    else none
  | .leaf d =>
    if a.acceptsValue then a.put d
    else match a.expect, a.frames, d with
      | .firstKey, .object members none :: frames, .string k =>
        some { a with frames := .object members (some k) :: frames, expect := .colon }
      | .key, .object members none :: frames, .string k =>
        some { a with frames := .object members (some k) :: frames, expect := .colon }
      | _, _, _ => none
  | .colon => if a.expect = .colon then some { a with expect := .value } else none
  | .comma =>
    match a.expect, a.frames with
    | .next, .array _ :: _ => some { a with expect := .value }
    | .next, .object _ none :: _ => some { a with expect := .key }
    | _, _ => none
  | .close isObject =>
    match a.frames with
    | .array items :: frames =>
      if !isObject && (a.expect = .next || a.expect = .firstItem) then
        { a with frames := frames }.put (.array items.reverse)
      else none
    | .object members none :: frames =>
      if isObject && (a.expect = .next || a.expect = .firstKey) then
        { a with frames := frames }.put (.object members.reverse)
      else none
    | _ => none

end Assembly

def ofTokens? (ts : List Token) : Option Document := do
  let a ← ts.foldlM Assembly.step Assembly.start
  a.result

def parse (text : String) : Option Document := (tokens text.toList).bind ofTokens?

end RuleFlow.Document
