import Mathlib.Data.List.Induction
import RuleFlow.Asset.Snapshot
import RuleFlow.Proofs.Json.Objects
/-! # Writes to an asset

What single writes make of an asset, one after the other.  Main statement: `afterWrites_writeAll`, by which only the
last write to each key counts. -/
namespace RuleFlow

/-- A write to an asset: of one attribute, of one computed value, or of the status. -/
inductive Write
  | setAttribute (name : String) (value : Json)
  | setComputed (field : String) (entry : Json)
  | setStatus (status : String)

namespace Write

def attribute? (key : String) : Write → Option Json
  | .setAttribute name value => if name = key then some value else none
  | _ => none

def computed? (key : String) : Write → Option Json
  | .setComputed field entry => if field = key then some entry else none
  | _ => none

def status? : Write → Option String
  | .setStatus status => some status
  | _ => none

end Write

namespace Asset

def write (a : Asset) : Write → Asset
  | .setAttribute name value => { a with attributes := Json.Object.insert name value a.attributes }
  | .setComputed field entry => { a with computed := Json.Object.insert field entry a.computed }
  | .setStatus status => { a with status }

def writeAll (ws : List Write) (a : Asset) : Asset := ws.foldl write a

variable {ws : List Write} {a : Asset}

theorem writeAll_append (ws xs : List Write) (a : Asset) : writeAll (ws ++ xs) a = writeAll xs (writeAll ws a) :=
  List.foldl_append

theorem writeAll_concat (ws : List Write) (x : Write) (a : Asset) :
    writeAll (ws ++ [x]) a = (writeAll ws a).write x :=
  writeAll_append ws [x] a

theorem map_writeAll_append (ws xs : List Write) (a : Option Asset) :
    a.map (writeAll (ws ++ xs)) = (a.map (writeAll ws)).map (writeAll xs) := by
  cases a with
  | none => rfl
  | some a => exact congrArg some (writeAll_append ws xs a)

/-- Whether an asset is what another one has become by some writes: each key has the last value that was written to
it, or the one it had if none was, the status is the last one set, and all else is as before. -/
structure AfterWrites (ws : List Write) (before after : Asset) : Prop where
  attributes (key : String) : Json.Object.get? after.attributes key =
    (ws.filterMap (Write.attribute? key)).getLast?.or (Json.Object.get? before.attributes key)
  computed (key : String) : Json.Object.get? after.computed key =
    (ws.filterMap (Write.computed? key)).getLast?.or (Json.Object.get? before.computed key)
  status : after.status = (ws.filterMap Write.status?).getLast?.getD before.status
  rest : after = { before with attributes := after.attributes, computed := after.computed, status := after.status }

theorem AfterWrites.write {after : Asset} (h : AfterWrites ws a after) (x : Write) :
    AfterWrites (ws ++ [x]) a (after.write x) := by
  cases x with
  | setAttribute name value =>
    refine ⟨fun key => ?_, fun key => ?_, ?_, ?_⟩
    · by_cases hk : name = key <;>
        simp [Asset.write, Write.attribute?, Json.Object.get?_insert, hk, h.attributes]
    · simpa [Asset.write, Write.computed?] using h.computed key
    · simpa [Asset.write, Write.status?] using h.status
    · rw [h.rest]
      rfl
  | setComputed field entry =>
    refine ⟨fun key => ?_, fun key => ?_, ?_, ?_⟩
    · simpa [Asset.write, Write.attribute?] using h.attributes key
    · by_cases hk : field = key <;>
        simp [Asset.write, Write.computed?, Json.Object.get?_insert, hk, h.computed]
    · simpa [Asset.write, Write.status?] using h.status
    · rw [h.rest]
      rfl
  | setStatus status =>
    refine ⟨fun key => ?_, fun key => ?_, ?_, ?_⟩
    · simpa [Asset.write, Write.attribute?] using h.attributes key
    · simpa [Asset.write, Write.computed?] using h.computed key
    · simp [Asset.write, Write.status?]
    · rw [h.rest]
      rfl

/-- Only the last write to each key counts. -/
theorem afterWrites_writeAll (ws : List Write) (a : Asset) : AfterWrites ws a (a.writeAll ws) := by
  induction ws using List.reverseRecOn with
  | nil => exact ⟨fun _ => rfl, fun _ => rfl, rfl, rfl⟩
  | append_singleton ws x ih =>
    rw [writeAll_concat]
    exact ih.write x

end Asset

end RuleFlow
