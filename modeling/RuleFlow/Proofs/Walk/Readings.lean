import RuleFlow.Proofs.Expression.Quoted
import RuleFlow.Proofs.Json.Objects
import RuleFlow.Walk.Nodes
/-! # Two ways to read an asset

A node that reads telemetry or an attribute gives out what the expression of the member has for its value, whatever the
key.  Main statement: `getters_agree_with_paths`. -/
namespace RuleFlow

theorem Json.Object.get?_map (f : Json → Json) (o : Object) (key : String) :
    get? (o.map fun (k, v) => (k, f v)) key = (get? o key).map f := by
  induction o with
  | nil => rfl
  | cons m o ih =>
    rw [List.map_cons, get?_cons, get?_cons, ih]
    split <;> rfl

namespace Asset

open Expression (readRoot)

/-- What expressions see of an asset at each root. -/
theorem readRoot_scope (a : Asset) (root : Expression.Root) : readRoot a.scope root =
    match root with
    | .telemetry => .object (a.telemetry.map fun (key, entry) => (key, unwrap entry))
    | .attributes => .object a.attributes
    | .computed => .object a.computed
    | .asset => a.toJson := by
  have hkeys : (["telemetry", "attributes", "computed", "asset"] : List String).Nodup := by decide
  rw [scope, Json.ofMembers, readRoot]
  dsimp only
  rw [Json.Object.get?_ofList (by exact hkeys)]
  cases root <;> rfl

end Asset

namespace Walk

open Expression (memberSource ofSource Quote)

variable {σ : Type}

/-- A getter of telemetry or of an attribute gives out the value of the path to the member, which can be written with
either mark for every key: `null` if the member is absent, and of a telemetry entry the value that it wraps. -/
theorem getters_agree_with_paths (b : Backend σ) (limit : Limit) (rule : String) (a : Asset) (payload : Json)
    (node : String) (outputs : Outputs) (w : World σ) (q : Quote) (key : String) :
    (∃ e v, ofSource (memberSource .telemetry q key) = .ok e ∧ e.eval (Context.of rule a payload).scope = .ok v ∧
      (visitKind b limit (.of rule a payload) ⟨node, .getTelemetry key⟩ outputs).run w = (.ok v, w) ∧
      (Json.Object.get? a.telemetry key = none → v = .null) ∧
      (∀ entry, Json.Object.get? a.telemetry key = some entry → v = Asset.unwrap entry) ∧
      ∀ members value, Json.Object.get? a.telemetry key = some (.object members) →
        Json.Object.get? members "value" = some value → v = value) ∧
    ∃ e v, ofSource (memberSource .attributes q key) = .ok e ∧ e.eval (Context.of rule a payload).scope = .ok v ∧
      (visitKind b limit (.of rule a payload) ⟨node, .getAttribute key⟩ outputs).run w = (.ok v, w) ∧
      (Json.Object.get? a.attributes key = none → v = .null) ∧
      ∀ value, Json.Object.get? a.attributes key = some value → v = value := by
  constructor
  · refine ⟨_, (a.telemetryValue? key).getD .null, Expression.ofSource_member .telemetry q key, ?_, rfl, ?_, ?_, ?_⟩
    · refine (Expression.eval_member (a.readRoot_scope .telemetry) key).trans ?_
      rw [Json.Object.get?_map]
      rfl
    · intro habsent
      rw [Asset.telemetryValue?, habsent]
      rfl
    · intro entry hentry
      rw [Asset.telemetryValue?, hentry]
      rfl
    · intro members value hentry hvalue
      rw [Asset.telemetryValue?, hentry]
      exact congrArg (Option.getD · (.object members)) hvalue
  · refine ⟨_, (a.attribute? key).getD .null, Expression.ofSource_member .attributes q key, ?_, rfl, ?_, ?_⟩
    · exact Expression.eval_member (a.readRoot_scope .attributes) key
    · intro habsent
      rw [Asset.attribute?, habsent]
      rfl
    · intro value hvalue
      rw [Asset.attribute?, hvalue]
      rfl

end Walk

end RuleFlow
