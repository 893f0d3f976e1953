import RuleFlow.Backend.Basic
import RuleFlow.Walk.Error
/-! # The context of a walk

A walk reads its asset once, at its beginning; what it writes is staged on that snapshot, so that every write hands
over the snapshot with all earlier writes of the walk.  Time passes while assets are read and while nodes work; the
backend says how much. -/
namespace RuleFlow.Walk

/-- What stays fixed during a walk: the rule, the snapshot of the asset, the scope of expressions and the payload. -/
structure Context where
  rule : String
  asset : Asset
  scope : Json
  payload : Json

def Context.of (rule : String) (asset : Asset) (payload : Json) : Context := ⟨rule, asset, asset.scope, payload⟩

/-- What changes during a walk: the stores, the time spent on reads and on work, and the staged writes. -/
structure World (σ : Type) where
  stores : σ
  waited : Nat
  worked : Nat
  attributes : Json.Object
  computed : Json.Object

def World.start (stores : σ) : World σ := ⟨stores, 0, 0, [], []⟩

/-- A part of a walk: it changes the world and may fail. -/
abbrev Action (σ α : Type) := ExceptT RunError (StateM (World σ)) α

/-- The longest time that a walk may take, in milliseconds; without one it may take any time. -/
abbrev Limit := Option Nat

namespace Action

def stores (f : StateM σ α) : Action σ α := do
  let w ← get
  let (a, s) := f w.stores
  set { w with stores := s }
  return a

def ask (f : Ask σ α) : Action σ α := do
  match ← stores f with
  | .ok a => return a
  | .error e => throw (.storage e)

def report (b : Backend σ) (e : Journal.Entry) : Action σ Unit := stores (b.report e)

/-- Reads an asset.  A read that would end after the limit is given up at the limit. -/
def readAsset (b : Backend σ) (limit : Limit) (tenant asset : String) : Action σ Asset := do
  let w ← get
  let waited := w.waited + b.readDelay w.stores
  if let some ms := limit then
    if ms < waited then throw (.timeout ms)
  set { w with waited := waited }
  match ← ask (b.findAsset tenant asset) with
  | some a => return a
  | none => throw (.assetNotFound asset)

/-- Looks at the clock before a node is visited, and fails if the time is over. -/
def checkLimit (b : Backend σ) (limit : Limit) : Action σ Unit := do
  let w ← get
  let worked := w.worked + b.workTime w.stores
  set { w with worked := worked }
  if let some ms := limit then
    if ms ≤ worked then throw (.timeout ms)

/-- Stages an attribute and gives all attributes that are to be stored. -/
def stageAttribute (ctx : Context) (key : String) (value : Json) : Action σ Json.Object := do
  let w ← get
  let attributes := Json.Object.insert key value w.attributes
  set { w with attributes := attributes }
  return Json.Object.merge ctx.asset.attributes attributes

def stageComputed (ctx : Context) (key : String) (entry : Json) : Action σ Json.Object := do
  let w ← get
  let computed := Json.Object.insert key entry w.computed
  set { w with computed := computed }
  return Json.Object.merge ctx.asset.computed computed

end Action

end RuleFlow.Walk
