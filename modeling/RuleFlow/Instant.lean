import RuleFlow.Text.CharClass
/-! # Instants

Points in time with nanoseconds, counted from the beginning of 1970 in UTC, their reading from a date with an offset
and their printing.  Days are counted in the proleptic Gregorian calendar.  A leap second is the second after
second 59 and is kept as such: its fraction is one second or more. -/
namespace RuleFlow

structure Instant where
  seconds : Int
  nanos : Nat
  deriving DecidableEq, Repr, Inhabited

namespace Instant

/-- The order in time; a leap second comes after the second before it. -/
def le (a b : Instant) : Bool := a.seconds < b.seconds || (a.seconds == b.seconds && a.nanos ≤ b.nanos)

def max (a b : Instant) : Instant := if a.le b then b else a

def millisecondsUntil (a b : Instant) : Nat :=
  (((b.seconds - a.seconds) * 1000000000 + (b.nanos : Int) - (a.nanos : Int)) / 1000000).toNat

def milliseconds (t : Instant) : Nat := (⟨0, 0⟩ : Instant).millisecondsUntil t

/-- The number of days from 1970-01-01 to a date of the Gregorian calendar.  Years are counted from March, so that
the leap day is the last day of a year; 400 years have 146097 days. -/
def daysFromDate (year : Int) (month day : Nat) : Int :=
  let y := if month ≤ 2 then year - 1 else year
  let era := y.fdiv 400
  let yearOfEra := y - era * 400
  let monthFromMarch : Int := ((month + 9) % 12 : Nat)
  let dayOfYear := (153 * monthFromMarch + 2) / 5 + (day : Int) - 1
  let dayOfEra := yearOfEra * 365 + yearOfEra / 4 - yearOfEra / 100 + dayOfYear
  era * 146097 + dayOfEra - 719468

def dateFromDays (days : Int) : Int × Nat × Nat :=
  let z := days + 719468
  let era := z.fdiv 146097
  let dayOfEra := z - era * 146097
  let yearOfEra := (dayOfEra - dayOfEra / 1460 + dayOfEra / 36524 - dayOfEra / 146096) / 365
  let dayOfYear := dayOfEra - (365 * yearOfEra + yearOfEra / 4 - yearOfEra / 100)
  let monthFromMarch := (5 * dayOfYear + 2) / 153
  let day := dayOfYear - (153 * monthFromMarch + 2) / 5 + 1
  let month := if monthFromMarch < 10 then monthFromMarch + 3 else monthFromMarch - 9
  let year := yearOfEra + era * 400
  (if month ≤ 2 then year + 1 else year, month.toNat, day.toNat)

def isLeapYear (year : Int) : Bool := year % 4 == 0 && (year % 100 != 0 || year % 400 == 0)

def daysInMonth (year : Int) (month : Nat) : Nat :=
  if month = 2 then (if isLeapYear year then 29 else 28)
  else if month = 4 ∨ month = 6 ∨ month = 9 ∨ month = 11 then 30
  else 31

/-- The first and the last year that have instants. -/
def yearRange : Int × Int := (-262143, 262142)

def isYear (year : Int) : Bool := yearRange.1 ≤ year && year ≤ yearRange.2

def skipBlanks (cs : List Char) : List Char := cs.dropWhile Text.isBlank

/-- Reads a number of one digit up to `width` digits after optional blanks. -/
def number? (width : Nat) (cs : List Char) : Option (Nat × List Char) :=
  let cs := skipBlanks cs
  let digits := (cs.takeWhile Text.isDigit).take width
  if digits = [] then none else some (Text.natOfDigits digits, cs.drop digits.length)

def separator? (c : Char) (cs : List Char) : Option (List Char) :=
  match skipBlanks cs with
  | d :: rest => if d = c then some rest else none
  | [] => none

/-- Reads a year: with a sign it may have any number of digits, without one at most four. -/
def year? (cs : List Char) : Option (Int × List Char) :=
  let signed (sign : Int) (rest : List Char) : Option (Int × List Char) :=
    let digits := rest.takeWhile Text.isDigit
    if digits = [] then none else some (sign * Text.natOfDigits digits, rest.drop digits.length)
  match skipBlanks cs with
  | '-' :: rest => signed (-1) rest
  | '+' :: rest => signed 1 rest
  | rest => (number? 4 rest).map fun (n, r) => ((n : Int), r)

/-- Reads a fraction of a second as nanoseconds; further digits are dropped. -/
def fraction? (cs : List Char) : Option (Nat × List Char) :=
  match cs with
  | '.' :: rest =>
    let digits := rest.takeWhile Text.isDigit
    if digits = [] then none
    else
      let kept := digits.take 9
      some (Text.natOfDigits kept * Nat.pow 10 (9 - kept.length), rest.drop digits.length)
  | _ => some (0, cs)

def dateEnd? : List Char → Option (List Char)
  | c :: rest => if c = 'T' ∨ c = 't' ∨ Text.isBlank c then some rest else none
  | [] => none

def twoDigits? : List Char → Option (Nat × List Char)
  | a :: b :: rest => if Text.isDigit a && Text.isDigit b then some (Text.natOfDigits [a, b], rest) else none
  | _ => none

/-- Reads the offset from UTC in seconds: `Z`, `UTC`, or a sign, hours and minutes. -/
def offset? (cs : List Char) : Option (Int × List Char) :=
  let signed (sign : Int) (rest : List Char) : Option (Int × List Char) := do
    let (hours, rest) ← twoDigits? rest
    let (minutes, rest) ← twoDigits? (rest.dropWhile fun c => c = ':' || Text.isBlank c)
    if hours < 24 ∧ minutes < 60 then return (sign * ((hours * 60 + minutes) * 60 : Nat), rest) else none
  match skipBlanks cs with
  | 'Z' :: rest => some (0, rest)
  | 'z' :: rest => some (0, rest)
  | '+' :: rest => signed 1 rest
  | '-' :: rest => signed (-1) rest
  | '\u2212' :: rest => signed (-1) rest
  | u :: t :: c :: rest =>
    if u.toUpper = 'U' ∧ t.toUpper = 'T' ∧ c.toUpper = 'C' then some (0, rest) else none
  | _ => none

def ofDateTime? (year : Int) (month day hour minute second nanos : Nat) (offset : Int) : Option Instant :=
  if isYear year ∧ 1 ≤ month ∧ month ≤ 12 ∧ 1 ≤ day ∧ day ≤ daysInMonth year month ∧
      hour < 24 ∧ minute < 60 ∧ second ≤ 60 then
    let leap := second = 60
    let dayTime : Nat := (hour * 60 + minute) * 60 + (if leap then 59 else second)
    let seconds := daysFromDate year month day * 86400 + dayTime - offset
    if isYear (dateFromDays (seconds.fdiv 86400)).1 then
      some ⟨seconds, if leap then nanos + 1000000000 else nanos⟩
    else none
  else none

/-- Reads an instant: a date, a time of day with seconds, and an offset from UTC. -/
def parse (text : String) : Option Instant := do
  let (year, cs) ← year? text.toList
  let (month, cs) ← number? 2 (← separator? '-' cs)
  let (day, cs) ← number? 2 (← separator? '-' cs)
  let (hour, cs) ← number? 2 (← dateEnd? cs)
  let (minute, cs) ← number? 2 (← separator? ':' cs)
  let (second, cs) ← number? 2 (← separator? ':' cs)
  let (nanos, cs) ← fraction? cs
  let (offset, cs) ← offset? cs
  if skipBlanks cs = [] then ofDateTime? year month day hour minute second nanos offset else none

def padded (width n : Nat) : String :=
  let cs := Nat.toDigits 10 n
  String.ofList (List.replicate (width - cs.length) '0' ++ cs)

def yearText (year : Int) : String :=
  if 0 ≤ year ∧ year ≤ 9999 then padded 4 year.toNat
  else (if year < 0 then "-" else "+") ++ padded 4 year.natAbs

/-- A fraction has as many groups of three digits as it needs. -/
def fractionText (nanos : Nat) : String :=
  if nanos = 0 then ""
  else if nanos % 1000000 = 0 then "." ++ padded 3 (nanos / 1000000)
  else if nanos % 1000 = 0 then "." ++ padded 6 (nanos / 1000)
  else "." ++ padded 9 nanos

def text (t : Instant) : String :=
  let days := t.seconds.fdiv 86400
  let dayTime := (t.seconds - days * 86400).toNat
  let (year, month, day) := dateFromDays days
  let leap := 1000000000 ≤ t.nanos
  let second := dayTime % 60 + (if leap then 1 else 0)
  let nanos := if leap then t.nanos - 1000000000 else t.nanos
  yearText year ++ "-" ++ padded 2 month ++ "-" ++ padded 2 day ++ "T" ++ padded 2 (dayTime / 3600) ++ ":" ++
    padded 2 (dayTime / 60 % 60) ++ ":" ++ padded 2 second ++ fractionText nanos ++ "Z"

end RuleFlow.Instant
