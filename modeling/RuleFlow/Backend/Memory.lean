import RuleFlow.Backend.Basic
import RuleFlow.Rule.Store
import RuleFlow.Asset.Repository
import RuleFlow.Execution.Log
import RuleFlow.Execution.Id
/-! # A backend in memory

All stores as values.  Reads and work take no time, and the clock stands still unless it is set. -/
namespace RuleFlow

structure Memory where
  rules : RuleStore := {}
  assets : AssetRepository := {}
  log : ExecutionLog := .memory []
  alarms : AlarmSink := .memory #[]
  metrics : Array Metric := #[]
  journal : Array Journal.Entry := #[]
  clock : Instant := ⟨0, 0⟩
  serial : Nat := 0

namespace Memory

def report (m : Memory) (e : Journal.Entry) : Memory := { m with journal := m.journal.push e }

def reportAll (m : Memory) (entries : List Journal.Entry) : Memory := entries.foldl report m

def writeAssets (f : AssetRepository → Except StorageError Unit × AssetRepository) : Ask Memory Unit := fun m =>
  let (result, assets) := f m.assets
  (result, { m with assets })

def raise (a : Alarm) : Ask Memory Unit := fun m =>
  let (alarms, entries) := m.alarms.raise a
  (.ok (), { m with alarms }.reportAll entries)

def insertRecord (r : ExecutionRecord) : Ask Memory Unit := fun m =>
  let (result, log, entries) := m.log.insert r
  (result, { m with log }.reportAll entries)

def backend : Backend Memory where
  findRule rule tenant m := (.ok (m.rules.findActive rule tenant), m)
  activeRules tenant m := (.ok (m.rules.activeOf tenant), m)
  readDelay _ := 0
  workTime _ := 0
  findAsset tenant asset m := (.ok (m.assets.get? tenant asset), m)
  updateAsset tenant asset change := writeAssets (·.update tenant asset change)
  replaceComputed tenant asset values := writeAssets (·.replaceComputed tenant asset values)
  raise
  insertRecord
  publish metric m := ((), { m with metrics := m.metrics.push metric })
  report e m := ((), m.report e)
  now m := m.clock
  freshId m := (ExecutionId.text m.clock m.serial, { m with serial := m.serial + 1 })

end Memory

end RuleFlow
