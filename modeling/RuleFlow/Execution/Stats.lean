import RuleFlow.Execution.Record
/-! # Statistics of runs

What the execution records of a rule tell in sum.  Durations are added up in a word of 64 bits; a sum that is too large
for one breaks the program off, so that there are no statistics then. -/
namespace RuleFlow

structure ExecutionStats where
  total : Nat
  succeeded : Nat
  failed : Nat
  averageDurationMs : Float
  lastExecutedAt : Option Instant

namespace ExecutionStats

/-- The sum of two words, if it is one. -/
def add? (a b : UInt64) : Option UInt64 :=
  if a.toNat + b.toNat < UInt64.size then some (a + b) else none

def totalDuration? (records : List ExecutionRecord) : Option UInt64 :=
  records.foldlM (fun total r => add? total r.durationMs) 0

/-- The average duration of some records, which is zero if there are none. -/
def averageDuration (total : UInt64) (count : Nat) : Float :=
  if count = 0 then 0.0 else total.toFloat / count.toFloat

def later (last : Option Instant) (r : ExecutionRecord) : Option Instant :=
  match last with
  | none => some r.completedAt
  | some t => some (t.max r.completedAt)

def ofRecords? (records : List ExecutionRecord) : Option ExecutionStats := do
  let duration ← totalDuration? records
  return {
    total := records.length
    succeeded := records.countP (·.success)
    failed := records.countP (!·.success)
    averageDurationMs := averageDuration duration records.length
    lastExecutedAt := records.foldl later none }

def members (s : ExecutionStats) : List (String × Json) :=
  [("total", .count s.total), ("succeeded", .count s.succeeded), ("failed", .count s.failed),
    ("averageDurationMs", Json.ofOption Json.number (Json.Number.ofFloat? s.averageDurationMs))] ++
  Json.optionalMember "lastExecutedAt" Instant.toJson s.lastExecutedAt

def toJson (s : ExecutionStats) : Json := .ofMembers s.members

end ExecutionStats

end RuleFlow
