import RuleFlow.Node.Basic
/-! # Events

What happens to assets: changes of telemetry, attributes and status, schedules, and runs by hand.  An event is
written as an object whose member `type` names its kind. -/
namespace RuleFlow

structure AssetRef where
  tenantId : String
  assetId : String
  typeId : String
  deriving DecidableEq

inductive Change
  | telemetry (key : String) (value : Json) (time : Option Instant)
  | attribute (key : String) (old new : Json) (time : Option Instant)
  | status (old : Option String) (new : String) (time : Option Instant)
  | schedule (time : Option Instant)
  | manual (rule : Option String) (payload : Option Json)

structure Event where
  asset : AssetRef
  change : Change

namespace Event

def kind (e : Event) : TriggerKind :=
  match e.change with
  | .telemetry .. => .telemetryChange
  | .attribute .. => .attributeChange
  | .status .. => .statusChange
  | .schedule _ => .schedule
  | .manual .. => .manual

def key (e : Event) : Option String :=
  match e.change with
  | .telemetry key _ _ => some key
  | .attribute key _ _ _ => some key
  | _ => none

/-- The only rule that an event is for, if it names one. -/
def rule? (e : Event) : Option String :=
  match e.change with
  | .manual rule _ => rule
  | _ => none

/-- What the trigger of a rule gives out.  An event without a time has happened now. -/
def payload (e : Event) (now : Instant) : Json :=
  match e.change with
  | .telemetry key value time =>
    .ofMembers [("telemetryKey", .string key), ("value", value), ("timestamp", (time.getD now).toJson)]
  | .attribute key old new time =>
    .ofMembers [("attributeKey", .string key), ("oldValue", old), ("newValue", new),
      ("timestamp", (time.getD now).toJson)]
  | .status old new time =>
    .ofMembers [("oldStatus", Json.ofOption .string old), ("newStatus", .string new),
      ("timestamp", (time.getD now).toJson)]
  | .schedule time => .ofMembers [("timestamp", (time.getD now).toJson)]
  | .manual _ payload => payload.getD (.object [])

def commonFields : List Decoder.Field :=
  [{ name := "type" }, { name := "tenantId" }, { name := "assetId" }, { name := "assetTypeId" }]

def fieldsOf : TriggerKind → List Decoder.Field
  | .telemetryChange => [{ name := "telemetryKey" }, { name := "value" }, { name := "timestamp" }]
  | .attributeChange =>
    [{ name := "attributeKey" }, { name := "oldValue" }, { name := "newValue" }, { name := "timestamp" }]
  | .statusChange => [{ name := "oldStatus" }, { name := "newStatus" }, { name := "timestamp" }]
  | .schedule => [{ name := "timestamp" }]
  | .manual => [{ name := "ruleId" }, { name := "payload" }]

def readChange (kind : TriggerKind) (g : Decoder.Given) : Option Change :=
  match kind with
  | .telemetryChange => do
    return .telemetry (← g.required "telemetryKey" .string) (← g.withDefault "value" .null .json)
      (← g.optional "timestamp" .instant)
  | .attributeChange => do
    return .attribute (← g.required "attributeKey" .string) (← g.withDefault "oldValue" .null .json)
      (← g.withDefault "newValue" .null .json) (← g.optional "timestamp" .instant)
  | .statusChange => do
    return .status (← g.optional "oldStatus" .string) (← g.required "newStatus" .string)
      (← g.optional "timestamp" .instant)
  | .schedule => do return .schedule (← g.optional "timestamp" .instant)
  | .manual => do return .manual (← g.optional "ruleId" .string) (← g.optional "payload" .json)

def readAs (kind : TriggerKind) (g : Decoder.Given) : Option Event := do
  let tenantId ← g.required "tenantId" .string
  let assetId ← g.required "assetId" .string
  let typeId ← g.required "assetTypeId" .string
  return ⟨⟨tenantId, assetId, typeId⟩, ← readChange kind g⟩

def kindOf? (members : List (Option String × Document)) : Option TriggerKind :=
  match members.lookup (some "type") with
  | some (.string (some name)) => TriggerKind.ofName? name
  | _ => none

/-- Reads an event from an object.  Every member has to have a value, also those that are not looked at. -/
def decoder : Decoder Event := fun depth d =>
  match d with
  | .object members => do
    let _ ← d.valueWithin depth
    let kind ← kindOf? members
    Decoder.record (commonFields ++ fieldsOf kind) (readAs kind) depth d
  | _ => none

/-- The members of an event after those that all events have. -/
def changeMembers : Change → List (String × Json)
  | .telemetry key value time =>
    [("telemetryKey", .string key), ("value", value), ("timestamp", Json.ofOption Instant.toJson time)]
  | .attribute key old new time =>
    [("attributeKey", .string key), ("oldValue", old), ("newValue", new),
      ("timestamp", Json.ofOption Instant.toJson time)]
  | .status old new time =>
    [("oldStatus", Json.ofOption .string old), ("newStatus", .string new),
      ("timestamp", Json.ofOption Instant.toJson time)]
  | .schedule time => [("timestamp", Json.ofOption Instant.toJson time)]
  | .manual rule payload => [("ruleId", Json.ofOption .string rule), ("payload", payload.getD .null)]

def members (e : Event) : List (String × Json) :=
  [("type", .string e.kind.name), ("tenantId", .string e.asset.tenantId), ("assetId", .string e.asset.assetId),
    ("assetTypeId", .string e.asset.typeId)] ++ changeMembers e.change

def toJson (e : Event) : Json := .ofMembers e.members

end Event

end RuleFlow
