import RuleFlow.Proofs.Backend.Assets
import RuleFlow.Proofs.Engine.Dispatch
import RuleFlow.Proofs.Engine.Recording
/-! # What the engine does is confined to one asset

The engine is asked for a run for an asset of a tenant, or for all that an event at such an asset brings about.
Whatever the stores hold and whatever fails, it leaves all other assets as they are, raises alarms and hands over
records for this one only, and runs no stored rule of another tenant.  Main statement: `Engine.answer_confined`. -/
namespace RuleFlow

variable {σ : Type} {b : Backend σ} {K : String → String → Prop} {I : σ → Prop}

/-- Whether something is kept by all that the engine asks of a backend for assets with certain tenants and ids. -/
structure Backend.Confines (b : Backend σ) (K : String → String → Prop) (I : σ → Prop) : Prop
    extends b.KeepsOn K I where
  findRule (rule tenant : String) {s : σ} (h : I s) : I (b.findRule rule tenant s).2
  activeRules (tenant : String) {s : σ} (h : I s) : I (b.activeRules tenant s).2
  insertRecord {r : ExecutionRecord} (hk : K r.tenantId r.assetId) {s : σ} (h : I s) : I (b.insertRecord r s).2
  publish (metric : Metric) {s : σ} (h : I s) : I (b.publish metric s).2
  freshId {s : σ} (h : I s) : I (b.freshId s).2

theorem kept_bind {α β : Type} {f : StateM σ α} {g : α → StateM σ β} (hf : ∀ s, I s → I (f s).2)
    (hg : ∀ a s, I s → I (g a s).2) (s : σ) (h : I s) : I ((f >>= g) s).2 :=
  hg _ _ (hf s h)

theorem kept_mapM {α β : Type} {f : α → StateM σ β} (hf : ∀ a s, I s → I (f a s).2) (as : List α) (s : σ) (h : I s) :
    I (as.mapM f s).2 := by
  induction as generalizing s with
  | nil => exact h
  | cons a as ih =>
    rw [FanOut.mapM_cons_eq]
    exact ih _ (hf a s h)

namespace Engine

/-- What the engine can be asked for: a run, or what an event brings about. -/
inductive Demand
  | run (q : Request)
  | dispatch (event : Event)

namespace Demand

def subject : Demand → String × String
  | .run q => (q.invocation.tenantId, q.invocation.assetId)
  | .dispatch event => (event.asset.tenantId, event.asset.assetId)

/-- What the engine answers: the results, each with the id of its rule. -/
def answer (e : Engine σ) : Demand → StateM σ (Except RunError (List (String × RunResult)))
  | .run q => do return .ok [(q.invocation.ruleId, ← q.answer e)]
  | .dispatch event => e.dispatch event

end Demand

section Confines

variable (hb : b.Confines K I)
include hb

theorem keep_confined {r : ExecutionRecord} (hk : K r.tenantId r.assetId) (s : σ) (h : I s) : I (keep b r s).2 := by
  refine kept_bind (fun _ h => hb.insertRecord hk h) (fun kept => ?_) s h
  cases kept with
  | ok _ => exact fun _ h => h
  | error e => exact fun _ h => hb.report _ h

theorem record_confined {inv : Invocation} (hk : K inv.tenantId inv.assetId)
    {run : StateM σ (Except RunError Outcome)} (hrun : ∀ s, I s → I (run s).2) (s : σ) (h : I s) :
    I (record b inv run s).2 := by
  unfold record
  refine kept_bind (fun _ h => h) (fun _ => ?_) s h
  refine kept_bind hrun fun ending => ?_
  refine kept_bind (fun _ h => h) fun _ => ?_
  refine kept_bind (fun _ h => hb.freshId h) fun id => ?_
  refine kept_bind (fun _ h => ?_) fun _ => ?_
  · cases endReport inv ending with
    | none => exact h
    | some e => exact hb.report e h
  refine kept_bind (kept_bind (fun _ h => hb.publish _ h) fun _ _ h => hb.publish _ h) fun _ => ?_
  exact kept_bind (keep_confined hb hk) fun _ _ h => h

theorem execute_confined (settings : Settings) (rule : Rule) {asset tenant : String} (kind : TriggerKind)
    (payload : Json) (hk : K tenant asset) (s : σ) (h : I s) :
    I (execute ⟨b, settings⟩ rule asset tenant kind payload s).2 :=
  record_confined hb hk (fun _ h => rule.run_keepsOn hb.toKeepsOn settings.timeoutMs payload hk h) s h

theorem runRule_confined (settings : Settings) (rule : String) {asset tenant : String} (kind : TriggerKind)
    (payload : Json) (hk : K tenant asset) (s : σ) (h : I s) :
    I (runRule ⟨b, settings⟩ rule asset tenant kind payload s).2 := by
  refine record_confined hb hk ?_ s h
  refine kept_bind (fun _ h => hb.findRule rule tenant h) fun found => ?_
  rcases found with cause | _ | r
  · exact fun _ h => h
  · exact fun _ h => h
  · exact fun _ h => r.run_keepsOn hb.toKeepsOn settings.timeoutMs payload hk h

theorem dispatch_confined (settings : Settings) {event : Event} (hk : K event.asset.tenantId event.asset.assetId)
    (s : σ) (h : I s) : I (dispatch ⟨b, settings⟩ event s).2 := by
  unfold dispatch
  simp only [FanOut.runAll_eq_mapM]
  refine kept_bind (kept_bind (fun _ h => hb.activeRules _ h) fun found => ?_) (fun rules => ?_) s h
  · cases found <;> exact fun _ h => h
  · cases rules with
    | error cause => exact fun _ h => h
    | ok rules =>
      refine kept_bind (fun _ h => hb.report _ h) fun _ => ?_
      refine kept_bind (fun _ h => hb.publish _ h) fun _ => ?_
      refine kept_bind (fun _ h => h) fun _ => ?_
      refine kept_bind (kept_mapM (fun rule => ?_) _) fun _ _ h => h
      exact kept_bind (execute_confined hb settings rule event.kind _ hk) fun _ _ h => h

/-- What is asked of the engine for an asset keeps what the operations of its backend keep when they are asked for this
asset. -/
theorem Demand.answer_keeps (settings : Settings) {d : Demand} (hk : K d.subject.1 d.subject.2) {s : σ} (h : I s) :
    I (d.answer ⟨b, settings⟩ s).2 := by
  cases d with
  | dispatch event => exact dispatch_confined hb settings hk s h
  | run q =>
    cases q with
    | named rule asset tenant kind payload => exact runRule_confined hb settings rule kind payload hk s h
    | given rule asset tenant kind payload => exact execute_confined hb settings rule kind payload hk s h

end Confines

end Engine

def Asset.identity (a : Asset) : String × String × String × String × Json.Object :=
  (a.id, a.tenantId, a.typeId, a.name, a.telemetry)

namespace AssetRepository

/-- Whether two repositories hold the same assets, except that one of them may differ in what rules can change. -/
structure SameBut (subject : String × String) (s t : AssetRepository) : Prop where
  others (tenant asset : String) (h : (tenant, asset) ≠ subject) : t.get? tenant asset = s.get? tenant asset
  identity : (t.get? subject.1 subject.2).map Asset.identity = (s.get? subject.1 subject.2).map Asset.identity

namespace SameBut

variable {subject : String × String} {r s t : AssetRepository}

theorem refl (subject : String × String) (s : AssetRepository) : SameBut subject s s := ⟨fun _ _ _ => rfl, rfl⟩

theorem trans (h : SameBut subject r s) (h' : SameBut subject s t) : SameBut subject r t :=
  ⟨fun tenant asset hne => (h'.others tenant asset hne).trans (h.others tenant asset hne), h'.identity.trans h.identity⟩

theorem of_assets (subject : String × String) (h : t.assets = s.assets) : SameBut subject s t := by
  have hget := get?_congr h
  exact ⟨fun _ _ _ => by rw [hget], by rw [hget]⟩

end SameBut

theorem sameBut_modify (s : AssetRepository) (tenant asset : String) {f : Asset → Asset}
    (hf : ∀ a, (f a).identity = a.identity) : SameBut (tenant, asset) s (s.modify tenant asset f).2 := by
  cases hfound : s.get? tenant asset with
  | none =>
    rcases modify_cases s tenant asset f with ⟨a, ha, _⟩ | ⟨_, hsame⟩
    · rw [hfound] at ha
      cases ha
    · exact .of_assets _ hsame
  | some a =>
    have hidentity := hf a
    have hkey : key (f a) = key a := by
      simp only [Asset.identity, Prod.mk.injEq] at hidentity
      rw [key, key, hidentity.1, hidentity.2.1]
    have hget := get?_modify hkey hfound
    constructor
    · intro tenant' asset' hne
      rw [hget, if_neg (Ne.symm hne)]
    · rw [hget, if_pos rfl, hfound, Option.map_some, Option.map_some, hidentity]

theorem sameBut_update (s : AssetRepository) (tenant asset : String) (change : AssetUpdate) :
    SameBut (tenant, asset) s (s.update tenant asset change).2 :=
  s.sameBut_modify tenant asset fun _ => rfl

theorem sameBut_replaceComputed (s : AssetRepository) (tenant asset : String) (values : Json.Object) :
    SameBut (tenant, asset) s (s.replaceComputed tenant asset values).2 :=
  s.sameBut_modify tenant asset fun _ => rfl

end AssetRepository

/-- Whether all operations of a backend leave the assets of a repository as they are, but those that store them. -/
structure Backend.HoldsAssets (b : Backend σ) (repo : σ → AssetRepository) : Prop extends b.StoresAssets repo where
  findRule (rule tenant : String) (s : σ) : (repo (b.findRule rule tenant s).2).assets = (repo s).assets
  activeRules (tenant : String) (s : σ) : (repo (b.activeRules tenant s).2).assets = (repo s).assets
  insertRecord (r : ExecutionRecord) (s : σ) : (repo (b.insertRecord r s).2).assets = (repo s).assets
  publish (metric : Metric) (s : σ) : (repo (b.publish metric s).2).assets = (repo s).assets
  freshId (s : σ) : (repo (b.freshId s).2).assets = (repo s).assets

theorem Memory.holdsAssets : Memory.backend.HoldsAssets Memory.assets where
  toStoresAssets := storesAssets
  findRule _ _ _ := rfl
  activeRules _ _ := rfl
  insertRecord _ _ := congrArg AssetRepository.assets (assets_reportAll _ _)
  publish _ _ := rfl
  freshId _ := rfl

theorem Faults.holdsAssets {repo : σ → AssetRepository} (hb : b.HoldsAssets repo) (faults : Faults) :
    (faults.backend b).HoldsAssets fun s => repo s.stores where
  toStoresAssets := storesAssets hb.toStoresAssets faults
  findRule rule tenant s := by
    simp only [backend, guarded]
    split
    · rfl
    · exact hb.findRule rule tenant s.stores
  activeRules tenant s := by
    simp only [backend, guarded]
    split
    · rfl
    · exact hb.activeRules tenant s.stores
  insertRecord r s := by
    simp only [backend, guarded]
    split
    · rfl
    · exact hb.insertRecord r s.stores
  publish metric s := hb.publish metric s.stores
  freshId s := hb.freshId s.stores

section Assets

variable {repo : σ → AssetRepository} {tenant asset : String} {a : Asset} {s s' : σ}

/-- What is found is stored under its own tenant and id. -/
theorem Backend.StoresAssets.key_found (hb : b.StoresAssets repo)
    (h : b.findAsset tenant asset s = (.ok (some a), s')) : (a.tenantId, a.id) = (tenant, asset) :=
  AssetRepository.key_of_get? ((hb.find h).2 _ rfl).symm

theorem Backend.HoldsAssets.confines (hb : b.HoldsAssets repo) (subject : String × String) (r : AssetRepository) :
    b.Confines (fun tenant asset => (tenant, asset) = subject) fun s => r.SameBut subject (repo s) where
  found hk _ _ _ h := (hb.key_found h).trans hk
  findAsset _ _ h := h.trans (.of_assets _ (hb.find rfl).1)
  updateAsset {tenant asset} hk change s h := by
    subst hk
    refine h.trans ?_
    have hresult : b.updateAsset tenant asset change s = ((b.updateAsset tenant asset change s).1,
        (b.updateAsset tenant asset change s).2) := rfl
    rcases hb.update hresult with ⟨_, hassets⟩ | ⟨_, hassets⟩
    · exact ((repo s).sameBut_update tenant asset change).trans (.of_assets _ hassets)
    · exact .of_assets _ hassets
  replaceComputed {tenant asset} hk values s h := by
    subst hk
    refine h.trans ?_
    have hresult : b.replaceComputed tenant asset values s = ((b.replaceComputed tenant asset values s).1,
        (b.replaceComputed tenant asset values s).2) := rfl
    rcases hb.replace hresult with ⟨_, hassets⟩ | ⟨_, hassets⟩
    · exact ((repo s).sameBut_replaceComputed tenant asset values).trans (.of_assets _ hassets)
    · exact .of_assets _ hassets
  raise _ _ h := h.trans (.of_assets _ (hb.raise rfl))
  report e s h := h.trans (.of_assets _ (hb.report e s))
  findRule rule tenant s h := h.trans (.of_assets _ (hb.findRule rule tenant s))
  activeRules tenant s h := h.trans (.of_assets _ (hb.activeRules tenant s))
  insertRecord _ _ h := h.trans (.of_assets _ (hb.insertRecord _ _))
  publish metric s h := h.trans (.of_assets _ (hb.publish metric s))
  freshId h := h.trans (.of_assets _ (hb.freshId _))

end Assets

def Effect.subject? : Effect → Option (String × String)
  | .update tenant asset _ => some (tenant, asset)
  | .compute tenant asset _ => some (tenant, asset)
  | .alarm a => some (a.tenantId, a.assetId)
  | .record r => some (r.tenantId, r.assetId)
  | .metric _ => none
  | .entry _ => none

/-- Whether nothing has been asked for another asset. -/
def Watched.Only (subject : String × String) (s : Watched σ) : Prop :=
  ∀ x ∈ s.effects, ∀ other, x.subject? = some other → other = subject

theorem Watched.Only.below {α : Type} {subject : String × String} {effects : List Effect}
    (h : ∀ x ∈ effects, ∀ other, x.subject? = some other → other = subject) (f : StateM σ α) {s : Watched σ}
    (hs : s.Only subject) : (Watched.below effects f s).2.Only subject :=
  Watched.forall_below h f hs

/-- A backend that stores assets in a repository is asked for one asset only. -/
theorem Backend.StoresAssets.confines {repo : σ → AssetRepository} (hb : b.StoresAssets repo)
    (subject : String × String) :
    b.watched.Confines (fun tenant asset => (tenant, asset) = subject) (Watched.Only subject) where
  found hk s s' a h := by
    obtain ⟨hfound, -⟩ := Prod.ext_iff.1 h
    exact (hb.key_found (Prod.ext hfound rfl)).trans hk
  findAsset _ _ h := h.below (by simp) _
  updateAsset hk _ _ h := h.below (by simpa [Effect.subject?] using hk) _
  replaceComputed hk _ _ h := h.below (by simpa [Effect.subject?] using hk) _
  raise hk _ h := h.below (by simpa [Effect.subject?] using hk) _
  report _ _ h := h.below (by simp [Effect.subject?]) _
  findRule _ _ _ h := h.below (by simp) _
  activeRules _ _ h := h.below (by simp) _
  insertRecord hk _ h := h.below (by simpa [Effect.subject?] using hk) _
  publish _ _ h := h.below (by simp [Effect.subject?]) _
  freshId h := h.below (by simp) _

/-- A backend that gives out the rules of one tenant, whoever is asked for. -/
def Backend.served (b : Backend σ) (tenant : String) : Backend σ :=
  { b with findRule := fun rule _ => b.findRule rule tenant, activeRules := fun _ => b.activeRules tenant }

namespace Memory

def ofTenant (tenant : String) (m : Memory) : Memory :=
  { m with rules := ⟨m.rules.rules.filter fun r => r.tenantId = tenant⟩ }

theorem ofTenant_reportAll (tenant : String) (m : Memory) (entries : List Journal.Entry) :
    (m.reportAll entries).ofTenant tenant = (m.ofTenant tenant).reportAll entries := by
  unfold reportAll
  induction entries generalizing m with
  | nil => rfl
  | cons e rest ih => exact ih (m.report e)

/-- An operation that goes with a view of the stores does the same to stores that look the same. -/
theorem alike_of_view {α : Type} {view : σ → σ} {f : StateM σ α} (hf : ∀ s, f (view s) = ((f s).1, view (f s).2)) :
    Alike (SameView view) Eq f f := by
  intro s s' h
  have heq := hf s
  rw [h, hf s'] at heq
  exact ⟨(congrArg Prod.fst heq).symm, (congrArg Prod.snd heq).symm⟩

theorem findActive_ofTenant (rule tenant : String) (m : Memory) :
    (m.ofTenant tenant).rules.findActive rule tenant = m.rules.findActive rule tenant := by
  unfold ofTenant RuleStore.findActive
  rw [List.find?_filter]
  congr 1
  funext r
  cases decide (r.tenantId = tenant) <;> simp

theorem activeOf_ofTenant (tenant : String) (m : Memory) :
    (m.ofTenant tenant).rules.activeOf tenant = m.rules.activeOf tenant := by
  unfold ofTenant RuleStore.activeOf
  rw [List.filter_filter]
  congr 1
  funext r
  cases decide (r.tenantId = tenant) <;> simp

theorem alike_served (tenant : String) :
    (backend.served tenant).Alike (backend.served tenant) (SameView (ofTenant tenant)) where
  findRule rule _ := alike_of_view fun m => Prod.ext (congrArg Except.ok (findActive_ofTenant rule tenant m)) rfl
  activeRules _ := alike_of_view fun m => Prod.ext (congrArg Except.ok (activeOf_ofTenant tenant m)) rfl
  readDelay _ := rfl
  workTime _ := rfl
  findAsset _ _ := alike_of_view fun _ => rfl
  updateAsset _ _ _ := alike_of_view fun _ => rfl
  replaceComputed _ _ _ := alike_of_view fun _ => rfl
  raise alarm := alike_of_view fun m => Prod.ext rfl
    (ofTenant_reportAll tenant { m with alarms := (m.alarms.raise alarm).1 } (m.alarms.raise alarm).2).symm
  insertRecord r := alike_of_view fun m => Prod.ext rfl
    (ofTenant_reportAll tenant { m with log := (m.log.insert r).2.1 } (m.log.insert r).2.2).symm
  publish _ := alike_of_view fun _ => rfl
  report _ := alike_of_view fun _ => rfl
  now h := (congrArg Memory.clock h : (ofTenant tenant _).clock = _)
  freshId := alike_of_view fun _ => rfl

end Memory

namespace Engine

variable {σ' : Type} {b' : Backend σ'} {R : σ → σ' → Prop}

theorem Demand.alike_answer (hb : b.Alike b' R) (settings : Settings) (d : Demand) :
    Alike R Eq (d.answer ⟨b, settings⟩) (d.answer ⟨b', settings⟩) := by
  cases d with
  | run q => exact (q.alike_answer hb settings).bind_eq fun _ => .pure rfl
  | dispatch event => exact alike_dispatch hb settings event

/-- The engine asks for no rules but those of the tenant that is named. -/
theorem Demand.answer_served (b : Backend σ) (settings : Settings) (d : Demand) :
    d.answer ⟨b.served d.subject.1, settings⟩ = d.answer ⟨b, settings⟩ := by
  cases d with
  | dispatch event => rfl
  | run q => cases q <;> rfl

theorem record_congr {inv : Invocation} {run run' : StateM σ (Except RunError Outcome)} {s : σ} (h : run s = run' s) :
    record b inv run s = record b inv run' s := by
  simp only [record, bind, StateT.bind, get, getThe, MonadStateOf.get, StateT.get, pure, h]

/-- Whether all stored rules that are run for a demand have a property.  A run by name is the run of such a rule, or
fails before anything is run; what an event brings about are runs of such rules, one after the other, unless the rules
cannot be read. -/
inductive Demand.RunsOnly (e : Engine σ) (s : σ) (p : Rule → Prop) : Demand → Prop
  | named {rule asset tenant : String} {kind : TriggerKind} {payload : Json} (r : Rule) (hr : p r)
      (h : e.runRule rule asset tenant kind payload s = e.execute r asset tenant kind payload s) :
    RunsOnly e s p (.run (.named rule asset tenant kind payload))
  | unnamed {rule asset tenant : String} {kind : TriggerKind} {payload : Json} (cause : RunError)
      (h : e.runRule rule asset tenant kind payload s =
        record e.backend ⟨rule, tenant, asset, kind, payload⟩ (pure (.error cause)) s) :
    RunsOnly e s p (.run (.named rule asset tenant kind payload))
  | given (rule : Rule) (asset tenant : String) (kind : TriggerKind) (payload : Json) :
    RunsOnly e s p (.run (.given rule asset tenant kind payload))
  | dispatched {event : Event} (rules : List Rule) (hr : ∀ r ∈ rules, p r) (payload : Json)
      (h : let reported := (e.backend.report (dispatchEntry event rules.length) s).2
        let measured := (e.backend.publish (.gauge "rule.dispatch.candidates" rules.length) reported).2
        e.dispatch event s = (.ok (rules.mapM (e.runCandidate event payload) measured).1,
          (rules.mapM (e.runCandidate event payload) measured).2)) :
    RunsOnly e s p (.dispatch event)
  | unread {event : Event} (cause : RunError) (h : e.dispatch event s = (.error cause, s)) :
    RunsOnly e s p (.dispatch event)

section

variable (faults : Faults) (settings : Settings) (s : Counted Memory)

theorem runsOnly_named (rule asset tenant : String) (kind : TriggerKind) (payload : Json) :
    Demand.RunsOnly ⟨faults.backend Memory.backend, settings⟩ s
      (fun r => r ∈ s.stores.rules.rules ∧ r.tenantId = tenant) (.run (.named rule asset tenant kind payload)) := by
  let e : Engine (Counted Memory) := ⟨faults.backend Memory.backend, settings⟩
  have hnamed : e.runNamed rule asset tenant payload s = (match e.backend.findRule rule tenant s with
      | (.error cause, s') => (.error (.storage cause), s')
      | (.ok none, s') => (.error (.ruleNotFound rule), s')
      | (.ok (some r), s') => e.runLoaded r asset tenant payload s') := by
    simp only [runNamed, bind, StateT.bind]
    rcases e.backend.findRule rule tenant s with ⟨cause | _ | r, s'⟩ <;> rfl
  have hfound : (∃ cause, e.backend.findRule rule tenant s = (.error cause, s)) ∨
      e.backend.findRule rule tenant s = (.ok (s.stores.rules.findActive rule tenant), s) := by
    simp only [e, Faults.backend, Faults.guarded]
    split
    · exact .inl ⟨_, rfl⟩
    · exact .inr rfl
  rcases hfound with ⟨cause, hfound⟩ | hfound
  · rw [hfound] at hnamed
    exact .unnamed (.storage cause) (record_congr hnamed)
  · rw [hfound] at hnamed
    cases hr : s.stores.rules.findActive rule tenant with
    | none =>
      rw [hr] at hnamed
      exact .unnamed (.ruleNotFound rule) (record_congr hnamed)
    | some r =>
      rw [hr] at hnamed
      have hactive := List.find?_some hr
      simp only [Bool.and_eq_true, decide_eq_true_iff] at hactive
      obtain ⟨⟨rfl, htenant⟩, -⟩ := hactive
      exact .named r ⟨List.mem_of_find?_eq_some hr, htenant⟩ (record_congr hnamed)

theorem runsOnly_dispatch (event : Event) :
    Demand.RunsOnly ⟨faults.backend Memory.backend, settings⟩ s
      (fun r => r ∈ s.stores.rules.rules ∧ r.tenantId = event.asset.tenantId) (.dispatch event) := by
  rcases (Faults.servesRules Memory.servesRules faults).active event.asset.tenantId s with hactive | ⟨cause, hactive⟩
  · refine .dispatched _ (fun r hr => ?_) _ (dispatch_of_ok hactive)
    obtain ⟨hstored, hruns⟩ := List.mem_filter.1 ((candidates_of_store s.stores.rules event).perm.mem_iff.1 hr)
    exact ⟨hstored, (of_decide_eq_true hruns).tenant⟩
  · exact .unread _ (dispatch_of_error hactive)

theorem Demand.runsOnly (d : Demand) :
    d.RunsOnly ⟨faults.backend Memory.backend, settings⟩ s
      fun r => r ∈ s.stores.rules.rules ∧ r.tenantId = d.subject.1 := by
  cases d with
  | dispatch event => exact runsOnly_dispatch faults settings s event
  | run q =>
    cases q with
    | given rule asset tenant kind payload => exact .given rule asset tenant kind payload
    | named rule asset tenant kind payload => exact runsOnly_named faults settings s rule asset tenant kind payload

/-- Whatever the stores hold, whatever fails and whatever the engine is asked for, it is confined to the asset that is
named.  All other assets are stored as before, and so are the id, the tenant, the type, the name and the telemetry of
this one; what is asked of the stores and the receivers, down to each alarm and each record, is asked for this asset;
and the stored rules that are run are rules of the tenant, so that it makes no difference which rules of other tenants
are stored. -/
theorem answer_confined (d : Demand) :
    let e : Engine (Counted Memory) := ⟨faults.backend Memory.backend, settings⟩
    let watched : Engine (Watched (Counted Memory)) := ⟨e.backend.watched, settings⟩
    let after := (d.answer watched ⟨s, []⟩).2
    d.answer e s = ((d.answer watched ⟨s, []⟩).1, after.stores) ∧
    s.stores.assets.SameBut d.subject after.stores.stores.assets ∧
    after.Only d.subject ∧
    d.RunsOnly e s (fun r => r ∈ s.stores.rules.rules ∧ r.tenantId = d.subject.1) ∧
    ∀ rules, (rules.filter fun r => r.tenantId = d.subject.1) =
        (s.stores.rules.rules.filter fun r => r.tenantId = d.subject.1) →
      let other := d.answer watched ⟨{ s with stores := { s.stores with rules := ⟨rules⟩ } }, []⟩
      other.1 = (d.answer watched ⟨s, []⟩).1 ∧
        other.2.effects.filter Effect.isOutward = after.effects.filter Effect.isOutward := by
  intro e watched after
  have hassets := Faults.holdsAssets Memory.holdsAssets faults
  obtain ⟨hanswer, hstores⟩ := d.alike_answer e.backend.alike_watched settings ⟨s, []⟩ s rfl
  have hsame : s.stores.assets.SameBut d.subject (d.answer e s).2.stores.assets :=
    d.answer_keeps (hassets.confines d.subject s.stores.assets) settings rfl (.refl _ _)
  have honly : after.Only d.subject :=
    d.answer_keeps (hassets.toStoresAssets.confines d.subject) settings rfl (List.forall_mem_nil _)
  refine ⟨Prod.ext hanswer.symm hstores.symm, ?_, honly, d.runsOnly faults settings s, fun rules hrules => ?_⟩
  · rw [← hstores] at hsame
    exact hsame
  · have halike : (e.backend.watched.served d.subject.1).Alike (e.backend.watched.served d.subject.1)
        (SameView (Watched.look (Faults.look (Memory.ofTenant d.subject.1)))) :=
      Watched.alike (faults.alike (Memory.alike_served d.subject.1))
    have hview : SameView (Watched.look (Faults.look (Memory.ofTenant d.subject.1)))
        ⟨{ s with stores := { s.stores with rules := ⟨rules⟩ } }, []⟩ ⟨s, []⟩ := by
      simp only [SameView, Watched.look, Faults.look, Memory.ofTenant, hrules]
    obtain ⟨hanswer', hlook⟩ := d.alike_answer halike settings _ _ hview
    rw [d.answer_served] at hanswer' hlook
    exact ⟨hanswer', congrArg Watched.effects hlook⟩

end

end Engine

end RuleFlow
