import RuleFlow.Metric
import RuleFlow.Text.CharClass
/-! # Metrics as datagrams

A metric is a line of text that is sent to a numbered channel of a host.  The sender is bound to the wildcard address of
version 6; a datagram from there to an address of version 4 is not delivered. -/
namespace RuleFlow.Statsd

/-- What stands before the key: the name of the program without dots at its end, and one dot. -/
def lead (name : String) : String :=
  if name = "" then "" else String.ofList (name.toList.reverse.dropWhile (· = '.')).reverse ++ "."

def kindText : Metric.Kind → String
  | .counter => "c"
  | .gauge => "g"
  | .timing => "ms"

def tagText (tags : List (String × String)) : String :=
  if tags = [] then "" else "|#" ++ ",".intercalate (tags.map fun (k, v) => k ++ ":" ++ v)

def line (name : String) (m : Metric) : String :=
  lead name ++ m.key ++ ":" ++ toString m.value ++ "|" ++ kindText m.kind ++ tagText m.tags

inductive Family | version4 | version6
  deriving DecidableEq, Repr

/-- Why there is no sender for a text that should be a host and a channel. -/
inductive AddressError | noChannel | badChannel | unknownHost
  deriving DecidableEq, Repr

def AddressError.message (e : AddressError) : String :=
  "error-assetrules-metrics-1 Failed to create metrics publisher: " ++
  match e with
  | .noChannel => "invalid socket address"
  | .badChannel => "invalid port value"
  | .unknownHost => "failed to lookup address information"

/-- The channel whose number digits spell; a plus may stand before them. -/
def channel? (cs : List Char) : Option UInt16 :=
  let digits := match cs with
    | '+' :: rest => rest
    | cs => cs
  if digits ≠ [] ∧ digits.all Text.isDigit ∧ Text.natOfDigits digits < UInt16.size then
    some (Text.natOfDigits digits).toUInt16
  else none

def splitAt (c : Char) : List Char → List (List Char)
  | [] => [[]]
  | d :: rest =>
    if d = c then [] :: splitAt c rest
    else
      match splitAt c rest with
      | part :: parts => (d :: part) :: parts
      | [] => [[d]]

/-- A number of an address of version 4: at most 255, without leading zeros. -/
def isOctet (cs : List Char) : Bool :=
  cs != [] && cs.all Text.isDigit && Text.natOfDigits cs < 256 && (cs.length == 1 || cs.head? != some '0')

def isVersion4 (cs : List Char) : Bool :=
  let parts := splitAt '.' cs
  parts.length == 4 && parts.all isOctet

/-- A group of an address of version 6: up to four hexadecimal digits. -/
def isGroup (cs : List Char) : Bool :=
  cs != [] && cs.length ≤ 4 &&
    cs.all fun c => Text.isDigit c || ('a' ≤ c && c ≤ 'f') || ('A' ≤ c && c ≤ 'F')

/-- The number of groups that the parts of an address are; the last part may be an address of version 4, which counts
as two. -/
def groupCount? : List (List Char) → Option Nat
  | [] => some 0
  | [last] => if isGroup last then some 1 else if isVersion4 last then some 2 else none
  | part :: rest => if isGroup part then (groupCount? rest).map (· + 1) else none

def splitDouble : List Char → Option (List Char × List Char)
  | ':' :: ':' :: rest => some ([], rest)
  | c :: rest => (splitDouble rest).map fun (before, after) => (c :: before, after)
  | [] => none

def groupsIn? (cs : List Char) : Option Nat := if cs = [] then some 0 else groupCount? (splitAt ':' cs)

/-- An address of version 6: eight groups with colons between them, or fewer around a double colon. -/
def isVersion6 (cs : List Char) : Bool :=
  match splitDouble cs with
  | none => groupsIn? cs == some 8
  | some (before, after) =>
    match groupsIn? before, groupsIn? after with
    | some m, some n => m + n ≤ 7 && (splitAt ':' before).all fun part => part == [] || isGroup part
    | _, _ => false

/-- The address of a host.  Names are not looked up, except that of the own host. -/
def familyOf? (host : List Char) : Option Family :=
  if host = "localhost".toList || isVersion4 host then some .version4
  else if isVersion6 host then some .version6
  else none

/-- The host without the brackets around an address of version 6.  Other hosts do not stand in brackets. -/
def withoutBrackets (host : List Char) : List Char :=
  match host, host.getLast? with
  | '[' :: rest, some ']' => if isVersion6 rest.dropLast then rest.dropLast else host
  | _, _ => host

def splitLastColon (cs : List Char) : Option (List Char × List Char) :=
  match cs.reverse.dropWhile (· ≠ ':') with
  | [] => none
  | _ :: before => some (before.reverse, (cs.reverse.takeWhile (· ≠ ':')).reverse)

/-- A sender of lines: the name that stands before all keys, and where the lines go. -/
structure Sender where
  name : String
  family : Family
  host : String
  channel : UInt16

def Sender.to (address name : String) : Except AddressError Sender :=
  match splitLastColon address.toList with
  | none => .error .noChannel
  | some (host, digits) =>
    match channel? digits with
    | none => .error .badChannel
    | some channel =>
      let host := withoutBrackets host
      match familyOf? host with
      | some family => .ok ⟨name, family, String.ofList host, channel⟩
      | none => .error .unknownHost

def Sender.deliver (s : Sender) (metrics : List Metric) : List String :=
  match s.family with
  | .version4 => []
  | .version6 => metrics.map (line s.name)

end RuleFlow.Statsd
