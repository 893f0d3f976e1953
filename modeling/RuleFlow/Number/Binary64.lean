/-! # Exact decoding of binary64 numbers

A finite `Float` is `± mantissa · 2 ^ exponent`.  The decoding is the only way the library looks inside a
float: the integer test, the exact remainder and the decimal digits all work on the natural numbers it gives. -/
namespace RuleFlow.Binary64

/-- A finite binary64 number as `± mantissa · 2 ^ exponent`, with `mantissa < 2 ^ 53` and `-1074 ≤ exponent`. -/
structure Parts where
  negative : Bool
  mantissa : Nat
  exponent : Int
  deriving DecidableEq, Repr

/-- Splits the bits of a finite float; a subnormal number has no hidden leading bit. -/
def parts (x : Float) : Parts :=
  let bits : Nat := x.toBits.toNat
  let fraction : Nat := bits % Nat.pow 2 52
  let biased : Nat := bits / Nat.pow 2 52 % Nat.pow 2 11
  let negative := bits / Nat.pow 2 63 == 1
  if biased = 0 then ⟨negative, fraction, -1074⟩
  else ⟨negative, fraction + Nat.pow 2 52, biased - 1075⟩

/-- The float `± mantissa · 2 ^ exponent`, for a mantissa below `2 ^ 53` and a value in the finite range.  The
mantissa is shifted up until it has its leading bit or the exponent is the least one. -/
def ofParts (p : Parts) : Float :=
  let sign := if p.negative then Nat.pow 2 63 else 0
  if p.mantissa = 0 then Float.ofBits (UInt64.ofNat sign)
  else
    let shift := min (52 - p.mantissa.log2) (p.exponent + 1074).toNat
    let mantissa := p.mantissa * Nat.pow 2 shift
    let exponent := p.exponent - shift
    if mantissa < Nat.pow 2 52 then Float.ofBits (UInt64.ofNat (sign + mantissa))
    else Float.ofBits (UInt64.ofNat (sign + (exponent + 1075).toNat * Nat.pow 2 52 + (mantissa - Nat.pow 2 52)))

/-- The sign bit, which also tells the two zeros apart. -/
def isNegative (x : Float) : Bool := (parts x).negative

def integer? (x : Float) : Option Int :=
  let p := parts x
  let signed (n : Nat) : Int := if p.negative then -(n : Int) else n
  if 0 ≤ p.exponent then some (signed (p.mantissa * Nat.pow 2 p.exponent.toNat))
  else
    let unit : Nat := Nat.pow 2 (-p.exponent).toNat
    if p.mantissa % unit = 0 then some (signed (p.mantissa / unit)) else none

/-- The remainder of the division of two finite numbers whose quotient is cut towards zero.  It is exact: both
numbers are multiples of one power of two, and the remainder of the multiples fits a mantissa.  Its sign is
that of the dividend. -/
def remainder (x y : Float) : Float :=
  let a := parts x
  let b := parts y
  let exponent := min a.exponent b.exponent
  let multiple (p : Parts) : Nat := p.mantissa * Nat.pow 2 (p.exponent - exponent).toNat
  ofParts ⟨a.negative, multiple a % multiple b, exponent⟩

end RuleFlow.Binary64
