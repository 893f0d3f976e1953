import RuleFlow.Engine.Basic
/-! # The event consumer

Events are handed to the engine one after another.  One that fails is reported and counted, and the next one
follows. -/
namespace RuleFlow

/-- The numbers of events that were taken and of those that could not be dispatched. -/
structure Books where
  processed : Nat := 0
  failed : Nat := 0
  deriving DecidableEq, Repr

namespace Consumer

def entry (level : Level) (message : String) (fields : List (String × Json)) : Journal.Entry :=
  ⟨.consumer, level, message, fields⟩

def eventFields (event : Event) : List (String × Json) :=
  [("tenant.id", .string event.asset.tenantId), ("asset.id", .string event.asset.assetId),
    ("trigger", .string event.kind.name)]

def settle (b : Backend σ) (event : Event) (results : List (String × RunResult)) : StateM σ Unit := do
  let failed := results.countP fun r => !r.2.success
  b.publish (.count "rule.event.rules" results.length)
  if 0 < failed then b.publish (.count "rule.event.failures" failed)
  b.report (entry .debug "Event dispatched"
    (eventFields event ++ [("rules", .count results.length), ("failed", .count failed)]))
  if 0 < failed then
    b.report (entry .warn "Some rules failed for event"
      [("asset.id", .string event.asset.assetId), ("failed", .count failed)])

def handle (e : Engine σ) (books : Books) (event : Event) : StateM σ Books := do
  e.backend.publish (.increment "rule.event" [("trigger", event.kind.name)])
  match ← e.dispatch event with
  | .ok results =>
    settle e.backend event results
    return { books with processed := books.processed + 1 }
  | .error cause =>
    e.backend.report (entry .error "Failed to dispatch event"
      (eventFields event ++ [("error", .string cause.message)]))
    return ⟨books.processed + 1, books.failed + 1⟩

def startedEntry : Journal.Entry := entry .info "Rule event consumer started" []

def closedEntry : Journal.Entry := entry .info "Event channel closed" []

def cancelledEntry : Journal.Entry := entry .info "Rule event consumer cancelled" []

def stoppedEntry (books : Books) : Journal.Entry :=
  entry .info "Rule event consumer stopped"
    [("events_processed", .count books.processed), ("events_failed", .count books.failed)]

end Consumer

end RuleFlow
