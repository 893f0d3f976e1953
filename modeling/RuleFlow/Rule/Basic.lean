import RuleFlow.Json.Decoder
/-! # Rules as they are stored

A rule belongs to a tenant and is made of nodes and of connections between them.  The type of a stored node is any
text and its configuration any object; what they mean is decided when the rule is compiled. -/
namespace RuleFlow

inductive Rule.Status | draft | active | inactive | disabled | error
  deriving DecidableEq, Repr

/-- Where an editor draws a node. -/
structure Position where
  x : FiniteFloat
  y : FiniteFloat

def Position.origin : Position := ⟨⟨0.0, by decide⟩, ⟨0.0, by decide⟩⟩

structure NodeDefinition where
  id : String
  type : String
  position : Position
  config : Json.Object
  inputs : List String
  outputs : List String

structure Connection where
  id : String
  fromNode : String
  fromOutput : String
  toNode : String
  toInput : String
  deriving DecidableEq

/-- How a rule is run: its deadline, and whether a false condition ends its branch. -/
structure Rule.Settings where
  timeoutMs : Option UInt64
  branchOnFalse : Bool
  deriving DecidableEq

structure Rule where
  id : String
  tenantId : String
  name : String
  description : Option String
  status : Rule.Status
  priority : UInt32
  appliesToAssetTypes : List String
  appliesToAssets : Option (List String)
  nodes : List NodeDefinition
  connections : List Connection
  settings : Rule.Settings
  createdAt : Option Instant

namespace Rule

def isActive (r : Rule) : Bool := r.status = .active

def appliesToAssetType (r : Rule) (type : String) : Bool := r.appliesToAssetTypes.contains type

/-- Whether the rule is meant for an asset: a list of assets that is not empty has to name it. -/
def appliesToAsset (r : Rule) (asset : String) : Bool :=
  match r.appliesToAssets with
  | some (a :: rest) => (a :: rest).contains asset
  | _ => true

end Rule

end RuleFlow
