import RuleFlow.Proofs.Walk.Run
import RuleFlow.Proofs.Walk.Visits
/-! # What a run keeps

A run asks its backend to read an asset, to write to it, to raise alarms and to report, and nothing else; and it writes
and raises alarms for the asset that it has read, no other.  So what these operations keep of the stores when they are
asked for certain assets is kept by every visit, every walk and every run for one of these: `Rule.run_keepsOn`. -/
namespace RuleFlow

variable {σ : Type} {b : Backend σ} {K : String → String → Prop} {I : σ → Prop}

/-- Whether something is kept by all operations of a backend but the one that takes execution records. -/
structure Backend.Keeps (b : Backend σ) (I : σ → Prop) : Prop where
  findRule (rule tenant : String) {s : σ} (h : I s) : I (b.findRule rule tenant s).2
  activeRules (tenant : String) {s : σ} (h : I s) : I (b.activeRules tenant s).2
  findAsset (tenant asset : String) {s : σ} (h : I s) : I (b.findAsset tenant asset s).2
  updateAsset (tenant asset : String) (change : AssetUpdate) {s : σ} (h : I s) :
    I (b.updateAsset tenant asset change s).2
  replaceComputed (tenant asset : String) (values : Json.Object) {s : σ} (h : I s) :
    I (b.replaceComputed tenant asset values s).2
  raise (alarm : Alarm) {s : σ} (h : I s) : I (b.raise alarm s).2
  publish (metric : Metric) {s : σ} (h : I s) : I (b.publish metric s).2
  report (e : Journal.Entry) {s : σ} (h : I s) : I (b.report e s).2
  freshId {s : σ} (h : I s) : I (b.freshId s).2

/-- Whether something is kept by what walks ask of a backend for assets with certain tenants and ids, and what is found
for such a tenant and id is one of these assets. -/
structure Backend.KeepsOn (b : Backend σ) (K : String → String → Prop) (I : σ → Prop) : Prop where
  found {tenant asset : String} (hk : K tenant asset) {s s' : σ} {a : Asset}
    (h : b.findAsset tenant asset s = (.ok (some a), s')) : K a.tenantId a.id
  findAsset {tenant asset : String} (hk : K tenant asset) {s : σ} (h : I s) : I (b.findAsset tenant asset s).2
  updateAsset {tenant asset : String} (hk : K tenant asset) (change : AssetUpdate) {s : σ} (h : I s) :
    I (b.updateAsset tenant asset change s).2
  replaceComputed {tenant asset : String} (hk : K tenant asset) (values : Json.Object) {s : σ} (h : I s) :
    I (b.replaceComputed tenant asset values s).2
  raise {alarm : Alarm} (hk : K alarm.tenantId alarm.assetId) {s : σ} (h : I s) : I (b.raise alarm s).2
  report (e : Journal.Entry) {s : σ} (h : I s) : I (b.report e s).2

theorem Backend.Keeps.keepsOn (hb : b.Keeps I) : b.KeepsOn (fun _ _ => True) I where
  found _ _ _ _ _ := trivial
  findAsset _ _ h := hb.findAsset _ _ h
  updateAsset _ change _ h := hb.updateAsset _ _ change h
  replaceComputed _ values _ h := hb.replaceComputed _ _ values h
  raise _ _ h := hb.raise _ h
  report e _ h := hb.report e h

namespace Walk

variable {w : World σ} {limit : Limit} {ctx : Context} {n : Node} {outputs : Outputs}

theorem kept_of_eq {α : Type} {f : StateM σ α} {s s' : σ} {a : α} (hf : I (f s).2) (h : f s = (a, s')) : I s' := by
  rw [h] at hf
  exact hf

theorem ends_ask_keeps {α : Type} {f : Ask σ α} (hf : I (f w.stores).2) :
    (Action.ask f).Ends w (fun _ w' => I w'.stores) fun _ w' => I w'.stores := by
  rw [Action.ends_ask]
  exact ⟨fun _ _ h => kept_of_eq hf h, fun _ _ h => kept_of_eq hf h⟩

theorem ends_report_keeps (hb : b.KeepsOn K I) (h : I w.stores) (e : Journal.Entry)
    {failed : RunError → World σ → Prop} : (Action.report b e).Ends w (fun _ w' => I w'.stores) failed := by
  rw [Action.ends_report]
  exact hb.report e h

theorem ends_readAsset_keeps (hb : b.KeepsOn K I) {tenant asset : String} (hk : K tenant asset) (h : I w.stores) :
    (Action.readAsset b limit tenant asset).Ends w (fun _ w' => I w'.stores) fun _ w' => I w'.stores := by
  have hread {r : Except StorageError (Option Asset)} {s : σ} (hr : b.findAsset tenant asset w.stores = (r, s)) :
      I s := kept_of_eq (hb.findAsset hk h) hr
  exact Action.ends_readAsset (fun _ _ _ => h) (fun _ _ _ hr => hread hr) (fun _ _ hr => hread hr)
    fun _ _ _ hr => hread hr

theorem ends_visitKind_keeps (hb : b.KeepsOn K I) (hk : K ctx.asset.tenantId ctx.asset.id) (h : I w.stores) :
    (visitKind b limit ctx n outputs).Ends w (fun _ w' => I w'.stores) fun _ w' => I w'.stores := by
  unfold visitKind
  cases n.kind with
  | trigger _ => exact h
  | getTelemetry _ => exact h
  | getAttribute _ => exact h
  | condition source =>
    simp only [visitCondition]
    split
    · exact h
    · rw [Action.ends_bind]
      exact ends_report_keeps hb h _
  | math operation operands =>
    rw [Action.ends_mk_pure]
    exact ⟨fun _ _ => h, fun _ _ => h⟩
  | formula source =>
    simp only [computeField, Action.ends_bind]
    refine (ends_readAsset_keeps hb hk h).mono (fun a w' h' => ?_) fun _ _ h' => h'
    split
    · exact h'
    · rw [Action.ends_bind]
      exact ends_report_keeps hb h' _
  | setComputed field value =>
    simp only [visitSetComputed, reportAction, Action.ends_bind, Action.ends_get, Action.ends_stageComputed]
    refine (ends_ask_keeps ?_).mono (fun _ _ h' => ends_report_keeps hb h' _) fun _ _ h' => h'
    exact hb.replaceComputed hk _ h
  | setAttribute name value =>
    simp only [visitSetAttribute, reportAction, Action.ends_bind, Action.ends_stageAttribute]
    refine (ends_ask_keeps ?_).mono (fun _ _ h' => ends_report_keeps hb h' _) fun _ _ h' => h'
    exact hb.updateAsset hk _ h
  | setStatus status =>
    simp only [visitSetStatus, reportAction, Action.ends_bind]
    refine (ends_ask_keeps ?_).mono (fun _ _ h' => ends_report_keeps hb h' _) fun _ _ h' => h'
    exact hb.updateAsset hk _ h
  | createAlarm template =>
    simp only [visitCreateAlarm, Action.ends_bind, Action.ends_get]
    refine (ends_ask_keeps ?_).mono (fun _ _ h' => h') fun _ _ h' => h'
    exact hb.raise hk h
  | log message level =>
    simp only [visitLog, Action.ends_bind]
    exact ends_report_keeps hb h _

theorem ends_visitNode_keeps (hb : b.KeepsOn K I) (hk : K ctx.asset.tenantId ctx.asset.id) (h : I w.stores)
    {branchOnFalse : Bool} :
    (visitNode b limit ctx branchOnFalse n outputs).Ends w (fun _ w' => I w'.stores) fun _ w' => I w'.stores :=
  ends_visitNode (fun _ e _ h' => hb.report e h') (fun _ _ _ _ => h) fun _ => ends_visitKind_keeps hb hk h

/-- Every step of a walk keeps it, and so does the walk. -/
theorem trace_keeps (hb : b.KeepsOn K I) (hk : K ctx.asset.tenantId ctx.asset.id) {g : Graph} {branchOnFalse : Bool}
    {s : State (World σ)} (h : I s.world.stores) :
    I (trace g (visitor b limit ctx branchOnFalse) s).result.2.stores := by
  fun_induction trace g (visitor b limit ctx branchOnFalse) s with
  | case1 s t hstep ih =>
    refine ih ?_
    rcases step_eq_next_cases hstep with ⟨_, _, hworld⟩ | ⟨p, n, x, _, hvisit, _⟩
    · rw [hworld]
      exact h
    · exact (ends_visitNode_keeps hb hk h).of_ok hvisit
  | case2 s r hdone =>
    rcases step_eq_done_cases hdone with ⟨_, rfl⟩ | ⟨_, _, _, _, _, rfl⟩ | ⟨p, n, e, w', _, hvisit, rfl⟩
    · exact h
    · exact h
    · exact (ends_visitNode_keeps hb hk h).of_error hvisit

/-- What is prepared is a walk for one of the assets. -/
theorem ends_prepare_keeps (hb : b.KeepsOn K I) {rule : Rule} {asset tenant : String} {payload : Json}
    (hk : K tenant asset) (h : I w.stores) :
    (prepare b limit rule asset tenant payload).Ends w
      (fun p w' => I w'.stores ∧ ∀ g start ctx, p = .ready g start ctx → K ctx.asset.tenantId ctx.asset.id)
      fun _ w' => I w'.stores := by
  have hread {r : Except StorageError (Option Asset)} {s : σ} (hr : b.findAsset tenant asset w.stores = (r, s)) :
      I s := kept_of_eq (hb.findAsset hk h) hr
  refine (ends_prepare (J := fun a w => I w.stores ∧ K a.tenantId a.id) (F := fun w => I w.stores) ?_ h ?_ ?_ ?_).mono
    ?_ ?_
  · exact fun _ e _ h' => ⟨hb.report e h'.1, h'.2⟩
  · exact fun _ _ _ hr => ⟨hread hr, hb.found hk hr⟩
  · exact fun _ _ _ hr => hread hr
  · exact fun _ _ h' => h'.1
  · rintro p w' ⟨a, ⟨h', hk'⟩, hof⟩
    refine ⟨h', ?_⟩
    rintro g start ctx rfl
    obtain ⟨-, -, -, rfl⟩ := hof
    exact hk'
  · exact fun _ _ h' => h'.1

end Walk

open Walk

/-- A run for an asset keeps what the operations of its backend keep when they are asked for this asset. -/
theorem Rule.run_keepsOn (hb : b.KeepsOn K I) (default : Nat) (rule : Rule) {asset tenant : String} (payload : Json)
    (hk : K tenant asset) {s : σ} (h : I s) : I (rule.run b default asset tenant payload s).2 := by
  have hprepared : (prepare b (some (rule.timeoutOr default)) rule asset tenant payload).Ends (.start s)
      (fun p w => I w.stores ∧ ∀ g start ctx, p = .ready g start ctx → K ctx.asset.tenantId ctx.asset.id)
      fun _ w => I w.stores := ends_prepare_keeps hb hk h
  rw [run_eq]
  rcases hp : rule.prepared b default asset tenant payload s with ⟨e | ⟨reason | ⟨g, start, ctx⟩⟩, w⟩
  · exact conclude_snd (fun e _ h' => hb.report e h') (hprepared.of_error hp)
  · exact conclude_snd (fun e _ h' => hb.report e h') (hprepared.of_ok hp).1
  · obtain ⟨hkept, hready⟩ := hprepared.of_ok hp
    exact conclude_snd (fun e _ h' => hb.report e h') (trace_keeps hb (hready g start ctx rfl) hkept)

/-- A run keeps what all operations of its backend keep. -/
theorem Rule.run_keeps (hb : b.Keeps I) (default : Nat) (rule : Rule) (asset tenant : String) (payload : Json) {s : σ}
    (h : I s) : I (rule.run b default asset tenant payload s).2 :=
  rule.run_keepsOn hb.keepsOn default payload trivial h

end RuleFlow
