import RuleFlow.Proofs.Backend.Assets
import RuleFlow.Proofs.Walk.Visits
/-! # What a walk reads of its asset

Conditions, telemetry and attributes are read on the snapshot with which the walk began, formulas on the asset as it is
stored when they are visited.  Main statement: `ends_visitNode_answered`. -/
namespace RuleFlow

def NodeKind.readsAsset : NodeKind → Bool
  | .condition _ => true
  | .getTelemetry _ => true
  | .getAttribute _ => true
  | .formula _ => true
  | _ => false

namespace Walk

/-- What a node gives out that reads the asset.  The text of a condition or a formula is parsed and evaluated; a
condition for which that fails is false, and a formula fails with it. -/
inductive Reads (snapshot current : Asset) : NodeKind → Except RunError Json → Prop
  | telemetry (key : String) : Reads snapshot current (.getTelemetry key)
    (.ok (((Json.Object.get? snapshot.telemetry key).map Asset.unwrap).getD .null))
  | attribute (key : String) : Reads snapshot current (.getAttribute key)
    (.ok ((Json.Object.get? snapshot.attributes key).getD .null))
  | condition {source : String} {e : Expression} {v : Json} (hparse : Expression.ofSource source = .ok e)
    (heval : e.eval snapshot.scope = .ok v) : Reads snapshot current (.condition source) (.ok (.bool v.truthy))
  | unparsedCondition {source : String} {cause : Expression.Error}
    (hparse : Expression.ofSource source = .error cause) :
    Reads snapshot current (.condition source) (.ok (.bool false))
  | failedCondition {source : String} {e : Expression} {cause : Expression.Error}
    (hparse : Expression.ofSource source = .ok e) (heval : e.eval snapshot.scope = .error cause) :
    Reads snapshot current (.condition source) (.ok (.bool false))
  | formula {source : String} {e : Expression} {v : Json} (hparse : Expression.ofSource source = .ok e)
    (heval : e.eval current.scope = .ok v) : Reads snapshot current (.formula source) (.ok v)
  | unparsedFormula {source : String} {cause : Expression.Error}
    (hparse : Expression.ofSource source = .error cause) :
    Reads snapshot current (.formula source) (.error (.formulaFailed source cause.message))
  | failedFormula {source : String} {e : Expression} {cause : Expression.Error}
    (hparse : Expression.ofSource source = .ok e) (heval : e.eval current.scope = .error cause) :
    Reads snapshot current (.formula source) (.error (.formulaFailed source cause.message))

variable {σ : Type} {b : Backend σ} {repo : σ → AssetRepository} {limit : Limit} {ctx : Context} {n : Node}
  {outputs : Outputs} {w : World σ} {current : Asset}

/-- What a visit in a world answers of a node that reads the asset: what it reads, unless the time is over, be it before
the visit or with the read of a formula, or the store refuses that read. -/
inductive Answered (b : Backend σ) (limit : Limit) (snapshot current : Asset) (w : World σ) (kind : NodeKind) :
    Except RunError Json → Prop
  | read {answer : Except RunError Json} (h : Reads snapshot current kind answer) :
    Answered b limit snapshot current w kind answer
  | late {ms : Nat} (hlimit : limit = some ms) (h : ms ≤ w.worked + b.workTime w.stores) :
    Answered b limit snapshot current w kind (.error (.timeout ms))
  | slow {ms : Nat} {source : String} (hkind : kind = .formula source) (hlimit : limit = some ms)
    (h : ms < w.waited + b.readDelay w.stores) : Answered b limit snapshot current w kind (.error (.timeout ms))
  | refused {source : String} {cause : StorageError} {s : σ} (hkind : kind = .formula source)
    (h : b.findAsset snapshot.tenantId snapshot.id w.stores = (.error cause, s)) :
    Answered b limit snapshot current w kind (.error (.storage cause))

/-- A visit that does not fail gives out what it reads. -/
theorem Answered.reads {snapshot : Asset} {kind : NodeKind} {v : Json}
    (h : Answered b limit snapshot current w kind (.ok v)) : Reads snapshot current kind (.ok v) := by
  cases h with
  | read h => exact h

theorem reads_condition (source : String) (snapshot current : Asset) :
    Reads snapshot current (.condition source)
      (.ok (.bool ((evaluateCondition source snapshot.scope).toOption.getD false))) := by
  unfold evaluateCondition
  cases hparse : Expression.ofSource source with
  | error cause => exact .unparsedCondition hparse
  | ok e =>
    change Reads snapshot current (.condition source) (.ok (.bool ((e.holds snapshot.scope).toOption.getD false)))
    have hholds : e.holds snapshot.scope = (e.eval snapshot.scope).map Json.truthy := by
      unfold Expression.holds Expression.Tree.holds Expression.eval
      cases e.tree.eval snapshot.scope <;> rfl
    rw [hholds]
    cases heval : e.eval snapshot.scope with
    | error cause => exact .failedCondition hparse heval
    | ok v => exact .condition hparse heval

theorem reads_formula (source : String) (snapshot current : Asset) :
    Reads snapshot current (.formula source)
      ((evaluateFormula source current.scope).mapError fun e => .formulaFailed source e.message) := by
  unfold evaluateFormula
  cases hparse : Expression.ofSource source with
  | error cause => exact .unparsedFormula hparse
  | ok e =>
    change Reads snapshot current (.formula source) ((e.eval current.scope).mapError _)
    cases heval : e.eval current.scope with
    | error cause => exact .failedFormula hparse heval
    | ok v => exact .formula hparse heval

theorem ends_visitKind_answered (hb : b.StoresAssets repo) (hscope : ctx.scope = ctx.asset.scope)
    (hcurrent : (repo w.stores).get? ctx.asset.tenantId ctx.asset.id = some current) (hn : n.kind.readsAsset = true)
    (worked : Nat) :
    (visitKind b limit ctx n outputs).Ends { w with worked := worked }
      (fun x _ => Answered b limit ctx.asset current w n.kind (.ok x))
      (fun e _ => Answered b limit ctx.asset current w n.kind (.error e)) := by
  unfold visitKind
  cases hk : n.kind with
  | getTelemetry key => exact .read (.telemetry key)
  | getAttribute key => exact .read (.attribute key)
  | condition source =>
    have hread := reads_condition source ctx.asset current
    simp only [visitCondition, hscope]
    cases hcondition : evaluateCondition source ctx.asset.scope with
    | ok holds =>
      rw [hcondition] at hread
      exact .read hread
    | error e =>
      rw [hcondition] at hread
      exact .read hread
  | formula source =>
    have hread := reads_formula source ctx.asset current
    simp only [computeField, Action.ends_bind]
    refine Action.ends_readAsset (fun ms hms hslow => .slow rfl hms hslow) (fun a s waited hs => ?_)
      (fun s waited hs => ?_) fun e s waited hs => .refused rfl hs
    · obtain rfl : a = current := by simpa [hcurrent] using (hb.find hs).2 _ rfl
      cases hformula : evaluateFormula source a.scope with
      | ok v =>
        rw [hformula] at hread
        exact .read hread
      | error e =>
        rw [hformula] at hread
        exact .read hread
    · have hfound := (hb.find hs).2 _ rfl
      rw [hcurrent] at hfound
      cases hfound
  | trigger _ | math _ _ | setComputed _ _ | setAttribute _ _ | setStatus _ | createAlarm _ | log _ _ =>
    rw [hk] at hn
    cases hn

/-- A node that reads the asset is answered with what it reads, in time. -/
theorem ends_visitNode_answered (hb : b.StoresAssets repo) (hscope : ctx.scope = ctx.asset.scope)
    {branchOnFalse : Bool} (hcurrent : (repo w.stores).get? ctx.asset.tenantId ctx.asset.id = some current)
    (hn : n.kind.readsAsset = true) :
    (visitNode b limit ctx branchOnFalse n outputs).Ends w
      (fun x _ => Answered b limit ctx.asset current w n.kind (.ok x))
      (fun e _ => Answered b limit ctx.asset current w n.kind (.error e)) := by
  exact ends_visitNode (fun _ _ _ h => h) (fun ms _ hms hlate => .late hms hlate) fun worked =>
    ends_visitKind_answered hb hscope hcurrent hn worked

end Walk

end RuleFlow
