import RuleFlow.Asset.Snapshot
import RuleFlow.Execution.Record
import RuleFlow.Storage.Error
import RuleFlow.Alarm
import RuleFlow.Metric
/-! # Backends

All that the engine needs from outside: the stores of rules, assets and execution records, the receivers of alarms,
metrics and journal entries, the clock and the source of ids.  A backend is a record of operations on a state of any
type, so that what is said of the engine for every backend holds whatever the stores do. -/
namespace RuleFlow

abbrev Ask (σ α : Type) := StateM σ (Except StorageError α)

/-- What the engine needs from outside. -/
structure Backend (σ : Type) where
  /-- The active rule of a tenant with an id. -/
  findRule : (rule tenant : String) → Ask σ (Option Rule)
  /-- The active rules of a tenant. -/
  activeRules : (tenant : String) → Ask σ (List Rule)
  /-- How long the next read of an asset takes, in milliseconds. -/
  readDelay : σ → Nat
  /-- How long a walk has worked since it last looked at its clock, in milliseconds. -/
  workTime : σ → Nat
  /-- The stored state of an asset. -/
  findAsset : (tenant asset : String) → Ask σ (Option Asset)
  /-- Changes attributes or status of an asset. -/
  updateAsset : (tenant asset : String) → AssetUpdate → Ask σ Unit
  /-- Replaces the computed values of an asset. -/
  replaceComputed : (tenant asset : String) → Json.Object → Ask σ Unit
  /-- Raises an alarm. -/
  raise : Alarm → Ask σ Unit
  /-- Keeps an execution record. -/
  insertRecord : ExecutionRecord → Ask σ Unit
  /-- Publishes a metric. -/
  publish : Metric → StateM σ Unit
  /-- Adds an entry to the journal. -/
  report : Journal.Entry → StateM σ Unit
  /-- The time. -/
  now : σ → Instant
  /-- An id that no execution record has. -/
  freshId : StateM σ String

end RuleFlow
