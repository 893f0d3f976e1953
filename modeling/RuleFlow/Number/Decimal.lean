import RuleFlow.Number.Binary64
/-! # Decimal texts of binary64 numbers

Writing takes the fewest digits that read back to the number, and of those the nearest to it.  Reading gives the
nearest float.  Two notations share the digits: a plain one and one that changes to an exponent for very large and
very small numbers. -/
namespace RuleFlow.Decimal

structure Scaled where
  digits : Nat
  exponent : Int
  deriving DecidableEq, Repr

/-- The larger or the even of two decimals that are equally near. -/
inductive Tie | up | toEven
  deriving DecidableEq

/-- The numbers between two neighbouring floats that round to `mantissa · 2 ^ exponent`, as a fraction
`value / unit` with the half-gaps `below / unit` and `above / unit`.  The gap below a power of two is half as wide.
The ends belong to the interval if the mantissa is even. -/
structure Interval where
  value : Nat
  below : Nat
  above : Nat
  unit : Nat
  closed : Bool

def Interval.of (p : Binary64.Parts) : Interval :=
  let narrow := p.mantissa = Nat.pow 2 52 ∧ -1074 < p.exponent
  let scale := Nat.pow 2 p.exponent.toNat
  { value := 4 * p.mantissa * scale
    below := if narrow then scale else 2 * scale
    above := 2 * scale
    unit := 4 * Nat.pow 2 (-p.exponent).toNat
    closed := p.mantissa % 2 = 0 }

def Interval.contains (i : Interval) (d : Scaled) : Bool :=
  let point := d.digits * Nat.pow 10 d.exponent.toNat * i.unit
  let grain := Nat.pow 10 (-d.exponent).toNat
  if i.closed then (i.value - i.below) * grain ≤ point ∧ point ≤ (i.value + i.above) * grain
  else (i.value - i.below) * grain < point ∧ point < (i.value + i.above) * grain

/-- The point of the grid `10 ^ exponent` that is in the interval and nearest to the value.  Only the two
neighbours of the value have to be looked at: if the interval holds a point of the grid, it holds one of them. -/
def Interval.nearest? (i : Interval) (tie : Tie) (exponent : Int) : Option Scaled :=
  let grid := i.unit * Nat.pow 10 exponent.toNat
  let scaled := i.value * Nat.pow 10 (-exponent).toNat
  let low : Scaled := ⟨scaled / grid, exponent⟩
  let high : Scaled := ⟨scaled / grid + 1, exponent⟩
  match i.contains low, i.contains high with
  | false, false => none
  | true, false => some low
  | false, true => some high
  | true, true =>
    let rest := 2 * (scaled % grid)
    if rest < grid then some low
    else if grid < rest then some high
    else match tie with
      | .up => some high
      | .toEven => if low.digits % 2 = 0 then some low else some high

/-- The first hit on grids that get finer by a factor of ten. -/
def Interval.search (i : Interval) (tie : Tie) : Nat → Int → Option Scaled
  | 0, _ => none
  | steps + 1, exponent =>
    match i.nearest? tie exponent with
    | some d => some d
    | none => i.search tie steps (exponent - 1)

/-- Removes trailing zeros of the digits, at most `fuel` of them. -/
def Scaled.trim : Nat → Scaled → Scaled
  | 0, d => d
  | fuel + 1, d => if d.digits ≠ 0 ∧ d.digits % 10 = 0 then Scaled.trim fuel ⟨d.digits / 10, d.exponent + 1⟩ else d

def width (n : Nat) : Nat := (Nat.toDigits 10 n).length

/-- The exponent of the leading digit of a positive float, or one more. -/
def leadingExponent (p : Binary64.Parts) : Int :=
  if 0 ≤ p.exponent then width (p.mantissa * Nat.pow 2 p.exponent.toNat)
  else width (p.mantissa * Nat.pow 10 (-p.exponent).toNat / Nat.pow 2 (-p.exponent).toNat) + p.exponent

/-- The fewest digits that read back to a positive float.  Seventeen digits always do. -/
def shortest (tie : Tie) (x : Float) : Scaled :=
  let p := Binary64.parts x
  let found := (Interval.of p).search tie 20 (leadingExponent p)
  Scaled.trim 20 (found.getD ⟨0, 0⟩)

def digits (n : Nat) : List Char := Nat.toDigits 10 n

/-- Plain notation of `digits · 10 ^ exponent`: zeros fill the places up to the decimal point; `whole` is written
after a number without fraction. -/
def plain (whole : String) (d : Scaled) : String :=
  let cs := digits d.digits
  if 0 ≤ d.exponent then String.ofList (cs ++ List.replicate d.exponent.toNat '0') ++ whole
  else
    let places := (-d.exponent).toNat
    let padded := List.replicate (places + 1 - cs.length) '0' ++ cs
    let point := padded.length - places
    String.ofList (padded.take point ++ '.' :: padded.drop point)

def scientific (d : Scaled) : String :=
  let cs := digits d.digits
  let exponent : Int := d.exponent + (cs.length - 1 : Nat)
  let mantissa := match cs with
    | c :: rest@(_ :: _) => c :: '.' :: rest
    | _ => cs
  let sign := if exponent < 0 then "e-" else "e+"
  String.ofList mantissa ++ sign ++ toString exponent.natAbs

def signed (x : Float) (text : Float → String) : String :=
  if Binary64.isNegative x then "-" ++ text x else text x

/-- The text of a number inside a JSON text: at least one digit after the point, plain from `1e-5` up to
`1e16` and with an exponent outside that range. -/
def jsonText (x : Float) : String :=
  signed x fun x =>
    if x == 0.0 then "0.0"
    else
      let d := shortest .toEven x
      let leading := d.exponent + (width d.digits : Nat) - 1
      if -5 ≤ leading ∧ leading < 16 then plain ".0" d else scientific d

/-- The text of a number inside a message: never an exponent, and no fraction for an integer. -/
def messageText (x : Float) : String :=
  if x.isNaN then "NaN"
  else signed x fun x =>
    if x.isInf then "inf"
    else if x == 0.0 then "0"
    else plain "" (shortest .up x)

/-- The float nearest to `digits · 10 ^ exponent`.  A number whose leading digit lies far outside the range is
decided by that digit alone, so that no huge power is ever computed. -/
def toFloat (d : Scaled) : Float :=
  if d.digits = 0 then 0.0
  else
    let leading := d.exponent + (width d.digits : Nat)
    if 310 < leading then 1.0 / 0.0
    else if leading < -330 then 0.0
    else if 0 ≤ d.exponent then Float.ofScientific d.digits false d.exponent.toNat
    else Float.ofScientific d.digits true (-d.exponent).toNat

end RuleFlow.Decimal
