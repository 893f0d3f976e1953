import RuleFlow.Backend.Basic
/-! # Backends that fail

A backend can be made to fail, and its reads to take time, without touching what it does otherwise. -/
namespace RuleFlow

/-- What fails, and how long a read of an asset takes. -/
structure Faults where
  rulesDown : Bool := false
  logDown : Bool := false
  alarmsDown : Bool := false
  readsBeforeFailure : Option Nat := none
  writesBeforeFailure : Option Nat := none
  readDelay : Nat := 0

structure Counted (σ : Type) where
  stores : σ
  reads : Nat := 0
  writes : Nat := 0

namespace Faults

def below (f : StateM σ α) : StateM (Counted σ) α := fun s =>
  let (a, stores) := f s.stores
  (a, { s with stores })

/-- Whether an operation comes after the last one that works. -/
def isOver (limit : Option Nat) (done : Nat) : Bool :=
  match limit with
  | some n => n ≤ done
  | none => false

def guarded (down : Bool) (details : String) (f : Ask σ α) : Ask (Counted σ) α :=
  if down then fun s => (.error (.unavailable details), s) else below f

def read (faults : Faults) (f : Ask σ α) : Ask (Counted σ) α := fun s =>
  if isOver faults.readsBeforeFailure s.reads then
    (.error (.unavailable "asset store is down"), { s with reads := s.reads + 1 })
  else below f { s with reads := s.reads + 1 }

/-- A write to an asset.  One that fails does not reach the stores below. -/
def write (faults : Faults) (f : Ask σ α) : Ask (Counted σ) α := fun s =>
  if isOver faults.writesBeforeFailure s.writes then
    (.error (.writeRejected "repository is read-only"), { s with writes := s.writes + 1 })
  else below f { s with writes := s.writes + 1 }

def backend (faults : Faults) (b : Backend σ) : Backend (Counted σ) where
  findRule rule tenant := guarded faults.rulesDown "rule store is down" (b.findRule rule tenant)
  activeRules tenant := guarded faults.rulesDown "rule store is down" (b.activeRules tenant)
  readDelay s := faults.readDelay + b.readDelay s.stores
  workTime s := b.workTime s.stores
  findAsset tenant asset := read faults (b.findAsset tenant asset)
  updateAsset tenant asset change := write faults (b.updateAsset tenant asset change)
  replaceComputed tenant asset values := write faults (b.replaceComputed tenant asset values)
  raise a := guarded faults.alarmsDown ("no alarm " ++ a.template.code) (b.raise a)
  insertRecord r := guarded faults.logDown "disk full" (b.insertRecord r)
  publish metric := below (b.publish metric)
  report e := below (b.report e)
  now s := b.now s.stores
  freshId := below b.freshId

end Faults

end RuleFlow
