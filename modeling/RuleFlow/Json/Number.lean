import RuleFlow.Number.Decimal
/-! # JSON numbers

A number keeps the kind it was written in: an integer of 64 bits or a finite float.  Arithmetic goes through floats;
its integral results of moderate size come back as integers. -/
namespace RuleFlow.Json

/-- The integers that fit a signed or an unsigned word of 64 bits. -/
abbrev IsWord (n : Int) : Prop := -9223372036854775808 ≤ n ∧ n < 18446744073709551616

inductive Number
  | int (value : Int) (isWord : IsWord value)
  | float (value : Float) (isFinite : value.isFinite = true)
  deriving DecidableEq

namespace Number

/-- The nearest float, by which numbers are compared and computed with. -/
def toFloat : Number → Float
  | .int n _ => Float.ofInt n
  | .float x _ => x

/-- An integer of the input, which is a float if it does not fit a word. -/
def ofInt? (n : Int) : Option Number :=
  if h : IsWord n then some (.int n h) else none

def ofFloat? (x : Float) : Option Number :=
  if h : x.isFinite = true then some (.float x h) else none

def ofUInt64 (n : UInt64) : Number :=
  .int n.toNat (by have h := n.toNat_lt; constructor <;> omega)

/-- The largest magnitude up to which every integer is a float. -/
def maxSafe : Int := 9007199254740991

/-- The result of a computation: an integer if it is integral and of safe size, else a float; infinities and NaN
are no JSON numbers. -/
def ofResult? (x : Float) : Option Number :=
  if x.isFinite then
    match Binary64.integer? x with
    | some n => if -maxSafe ≤ n ∧ n ≤ maxSafe then ofInt? n else ofFloat? x
    | none => ofFloat? x
  else none

def text : Number → String
  | .int n _ => toString n
  | .float x _ => Decimal.jsonText x

end RuleFlow.Json.Number
