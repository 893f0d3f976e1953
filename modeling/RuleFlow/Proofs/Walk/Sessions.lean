import RuleFlow.Proofs.Walk.Snapshots
import RuleFlow.Proofs.Walk.Writes
/-! # Runs one after the other

What a sequence of runs against one asset repository leaves of its assets.  Main statement: `runs_keep_writes`, by
which at every point of every walk each asset is the one before all runs with all writes so far. -/
namespace RuleFlow.Walk

variable {σ : Type} {b : Backend σ} {repo : σ → AssetRepository}

/-- A run that is asked for: of a rule, with the time limit that it has by default, on an asset, with a payload. -/
structure Job where
  rule : Rule
  timeout : Nat
  asset : String
  tenant : String
  payload : Json

namespace Job

def run (b : Backend σ) (j : Job) (s : σ) : σ := (j.rule.run b j.timeout j.asset j.tenant j.payload s).2

def writes (b : Backend σ) (j : Job) (s : σ) : List Write :=
  (j.rule.calls b j.timeout j.asset j.tenant j.payload s).filterMap (Call.write? b)

def prepared (b : Backend σ) (j : Job) (s : σ) : Except RunError Prepared × World σ :=
  j.rule.prepared b j.timeout j.asset j.tenant j.payload s

def visitor (b : Backend σ) (j : Job) (ctx : Context) : Visitor (World σ) RunError :=
  Walk.visitor b (some (j.rule.timeoutOr j.timeout)) ctx j.rule.settings.branchOnFalse

end Job

def runAll (b : Backend σ) : List Job → σ → σ
  | [], s => s
  | j :: jobs, s => runAll b jobs (j.run b s)

/-- What some runs write to an asset, one after the other. -/
def writesTo (b : Backend σ) (tenant asset : String) : List Job → σ → List Write
  | [], _ => []
  | j :: jobs, s =>
    (if (j.tenant, j.asset) = (tenant, asset) then j.writes b s else []) ++ writesTo b tenant asset jobs (j.run b s)

/-- Whether the assets of some stores have become those of others by some writes to each of them. -/
structure Became (repo : σ → AssetRepository) (ws : String → String → List Write) (s s' : σ) : Prop where
  stored (tenant asset : String) :
    (repo s').get? tenant asset = ((repo s).get? tenant asset).map (Asset.writeAll (ws tenant asset))
  last (tenant asset : String) :
    Option.Rel (Asset.AfterWrites (ws tenant asset)) ((repo s).get? tenant asset) ((repo s').get? tenant asset)

theorem Became.of_stored {ws : String → String → List Write} {s s' : σ}
    (h : ∀ tenant asset,
      (repo s').get? tenant asset = ((repo s).get? tenant asset).map (Asset.writeAll (ws tenant asset))) :
    Became repo ws s s' where
  stored := h
  last tenant asset := by
    rw [h]
    cases (repo s).get? tenant asset with
    | none => exact .none
    | some a => exact .some (Asset.afterWrites_writeAll _ a)

theorem Staged.start {a : Asset} {s s' : σ} {waited worked : Nat} (hfound : (repo s).get? a.tenantId a.id = some a)
    (hassets : (repo s').assets = (repo s).assets) :
    Staged repo (repo s).get? a [] ⟨s', waited, worked, [], []⟩ where
  found := hfound
  stored := by rw [written_nil, AssetRepository.get?_congr hassets]
  attributes := rfl
  computed := rfl
  attributes_sorted := List.Pairwise.nil
  computed_sorted := List.Pairwise.nil

/-- A run is prepared on the stored asset, and leaves the assets alone until it comes to its walk. -/
theorem Job.ends_prepare (hb : b.StoresAssets repo) (j : Job) (s : σ) :
    (prepare b (some (j.rule.timeoutOr j.timeout)) j.rule j.asset j.tenant j.payload).Ends (.start s)
      (fun p w => ∃ a, (Staged repo (repo s).get? a [] w ∧ (a.tenantId, a.id) = (j.tenant, j.asset)) ∧
        p.Of j.rule j.asset j.payload a)
      (fun _ w => (repo w.stores).get? = (repo s).get?) := by
  refine (Walk.ends_prepare
    (J := fun a w => Staged repo (repo s).get? a [] w ∧ (a.tenantId, a.id) = (j.tenant, j.asset))
    (F := fun w => (repo w.stores).get? = (repo s).get?) ?_ rfl ?_ ?_ ?_).mono (fun _ _ h => h) fun _ _ h => h.1
  · exact fun a e w h => ⟨h.1.congr (hb.report e w.stores) rfl rfl, h.2⟩
  · intro a s' waited hs
    have hfound : (repo s).get? j.tenant j.asset = some a := ((hb.find hs).2 _ rfl).symm
    have hkey : (a.tenantId, a.id) = (j.tenant, j.asset) := AssetRepository.key_of_get? hfound
    obtain ⟨htenant, hid⟩ := Prod.mk.inj hkey
    rw [← htenant, ← hid] at hfound
    exact ⟨.start hfound (hb.find hs).1, hkey⟩
  · exact fun r s' waited hs => AssetRepository.get?_congr (hb.find hs).1
  · intro a w h
    rw [h.1.stored, written_nil]

theorem Job.staged_of_prepared (hb : b.StoresAssets repo) {j : Job} {s : σ} {g : Graph} {start : Nat} {ctx : Context}
    {w : World σ} (h : j.prepared b s = (.ok (.ready g start ctx), w)) :
    Staged repo (repo s).get? ctx.asset [] w ∧ (ctx.asset.tenantId, ctx.asset.id) = (j.tenant, j.asset) ∧
      ctx.scope = ctx.asset.scope := by
  obtain ⟨a, ⟨hstaged, hkey⟩, _, _, _, rfl⟩ := (j.ends_prepare hb s).of_ok h
  exact ⟨hstaged, hkey, rfl⟩

theorem Job.exists_steps_of_mem_calls {j : Job} {s : σ} {c : Call (World σ) RunError}
    (h : c ∈ j.rule.calls b j.timeout j.asset j.tenant j.payload s) :
    ∃ g start ctx w, j.prepared b s = (.ok (.ready g start ctx), w) ∧
      ∃ cs t, Steps g (j.visitor b ctx) (.initial start w) cs t ∧ call? g (j.visitor b ctx) t = some c := by
  rw [Rule.calls] at h
  split at h
  · rename_i g start ctx w hp
    exact ⟨g, start, ctx, w, hp, Walk.exists_steps_of_mem_calls h⟩
  · cases h

/-- A run makes its writes to its asset, and no others. -/
theorem Job.stored_run (hb : b.StoresAssets repo) (j : Job) (s : σ) :
    (repo (j.run b s)).get? = written (repo s).get? j.tenant j.asset (j.writes b s) := by
  have hreport {before : String → String → Option Asset} (e : Journal.Entry) (s : σ)
      (h : (repo s).get? = before) : (repo (b.report e s).2).get? = before :=
    (AssetRepository.get?_congr (hb.report e s)).trans h
  unfold run writes
  rw [Rule.run_eq, Rule.calls]
  rcases hp : j.prepared b s with ⟨e | ⟨reason | ⟨g, start, ctx⟩⟩, w⟩
  · have hstored := (j.ends_prepare hb s).of_error hp
    rw [prepared] at hp
    rw [hp, List.filterMap_nil, written_nil]
    exact conclude_snd hreport hstored
  · obtain ⟨a, ⟨hstaged, _⟩, _⟩ := (j.ends_prepare hb s).of_ok hp
    have hstored := hstaged.stored
    rw [written_nil] at hstored
    rw [prepared] at hp
    rw [hp, List.filterMap_nil, written_nil]
    exact conclude_snd hreport hstored
  · obtain ⟨hstaged, hkey, _⟩ := staged_of_prepared hb hp
    obtain ⟨htenant, hid⟩ := Prod.mk.inj hkey
    have hstored : (repo (j.rule.walk b j.timeout g start ctx w).result.2.stores).get? =
        written (repo s).get? ctx.asset.tenantId ctx.asset.id
          ([] ++ (j.rule.walk b j.timeout g start ctx w).calls.filterMap (Call.write? b)) :=
      Staged.stored_result (s := .initial start w) hb hstaged
    rw [prepared] at hp
    rw [hp, ← htenant, ← hid]
    exact conclude_snd hreport hstored

theorem written_eq_map (before : String → String → Option Asset) (tenant asset : String) (ws : List Write)
    (tenant' asset' : String) :
    written before tenant asset ws tenant' asset' =
      (before tenant' asset').map (Asset.writeAll (if (tenant, asset) = (tenant', asset') then ws else [])) := by
  unfold written
  split
  · rfl
  · cases before tenant' asset' <;> rfl

/-- Runs make their writes one after the other. -/
theorem stored_runAll (hb : b.StoresAssets repo) (jobs : List Job) (s : σ) (tenant asset : String) :
    (repo (runAll b jobs s)).get? tenant asset =
      ((repo s).get? tenant asset).map (Asset.writeAll (writesTo b tenant asset jobs s)) := by
  induction jobs generalizing s with
  | nil =>
    change (repo s).get? tenant asset = ((repo s).get? tenant asset).map fun a => a
    rw [Option.map_id']
  | cons j jobs ih => rw [runAll, ih, writesTo, Asset.map_writeAll_append, j.stored_run hb, written_eq_map]

/-- What runs against one asset repository leave of its assets, whatever their rules are and however they end.
Between the runs each asset is the one before all runs with all writes that were made since, in the order of the visits
that made them: each key has the last value that was written to it.  The same holds at every point of every walk.
The walk is on the asset as it was stored when the walk began; conditions, telemetry and attributes are read there on
every visit, while formulas read the asset as it is stored then, with all writes so far. -/
theorem runs_keep_writes (hb : b.StoresAssets repo) (jobs : List Job) (s : σ) :
    Became repo (fun tenant asset => writesTo b tenant asset jobs s) s (runAll b jobs s) ∧
    ∀ (j : Job) (g : Graph) (start : Nat) (ctx : Context) (w : World σ),
      j.prepared b (runAll b jobs s) = (.ok (.ready g start ctx), w) →
      (repo (runAll b jobs s)).get? j.tenant j.asset = some ctx.asset ∧
      ∀ cs t, Steps g (j.visitor b ctx) (.initial start w) cs t →
        Became repo (fun tenant asset => writesTo b tenant asset jobs s ++
          if (j.tenant, j.asset) = (tenant, asset) then cs.filterMap (Call.write? b) else []) s t.world.stores ∧
        ∃ current, (repo t.world.stores).get? j.tenant j.asset = some current ∧
          ∀ c, call? g (j.visitor b ctx) t = some c → c.node.kind.readsAsset = true →
            Answered b (some (j.rule.timeoutOr j.timeout)) ctx.asset current t.world c.node.kind c.answer := by
  refine ⟨.of_stored (stored_runAll hb jobs s), fun j g start ctx w hp => ?_⟩
  obtain ⟨hstart, hkey, hscope⟩ := Job.staged_of_prepared hb hp
  obtain ⟨htenant, hid⟩ := Prod.mk.inj hkey
  refine ⟨by rw [← htenant, ← hid]; exact hstart.found, fun cs t hsteps => ?_⟩
  have hstaged : Staged repo (repo (runAll b jobs s)).get? ctx.asset (cs.filterMap (Call.write? b)) t.world :=
    hstart.steps hb hsteps
  refine ⟨.of_stored fun tenant asset => ?_, ctx.asset.writeAll (cs.filterMap (Call.write? b)), ?_, ?_⟩
  · rw [hstaged.stored, written_eq_map, stored_runAll hb, Asset.map_writeAll_append, hkey]
  · rw [← htenant, ← hid]
    exact hstaged.current
  · intro c hc hreads
    obtain ⟨_, _, hworld, hanswer⟩ := call?_spec hc
    have hends : (visitNode b (some (j.rule.timeoutOr j.timeout)) ctx j.rule.settings.branchOnFalse c.node
        c.outputs).Ends t.world
        (fun x _ => Answered b (some (j.rule.timeoutOr j.timeout)) ctx.asset _ t.world c.node.kind (.ok x))
        (fun e _ => Answered b (some (j.rule.timeoutOr j.timeout)) ctx.asset _ t.world c.node.kind (.error e)) :=
      ends_visitNode_answered hb hscope hstaged.current hreads
    rw [hanswer, hworld]
    rcases hv : (j.visitor b ctx).visit c.node c.outputs t.world with ⟨e | x, w'⟩
    · exact hends.of_error hv
    · exact hends.of_ok hv

/-- A rule that sets a status and an attribute, reads the attribute by a formula and from the snapshot, and sets another
status. -/
def switching : Rule where
  id := "r"
  tenantId := "t"
  name := "switching"
  description := none
  status := .active
  priority := 0
  appliesToAssetTypes := ["well"]
  appliesToAssets := none
  nodes := [⟨"start", "manual", .origin, [], [], []⟩,
    ⟨"busy", "set_status", .origin, [("status", .string "busy")], [], []⟩,
    ⟨"open", "set_attribute", .origin, [("attribute", .string "open"), ("value", .bool true)], [], []⟩,
    ⟨"now", "formula", .origin, [("formula", .string "attributes.open")], [], []⟩,
    ⟨"first", "get_attribute", .origin, [("attributeKey", .string "open")], [], []⟩,
    ⟨"idle", "set_status", .origin, [("status", .string "idle")], [], []⟩]
  connections :=
    [⟨"1", "start", "out", "busy", "in"⟩, ⟨"2", "busy", "out", "open", "in"⟩, ⟨"3", "open", "out", "now", "in"⟩,
      ⟨"4", "now", "out", "first", "in"⟩, ⟨"5", "first", "out", "idle", "in"⟩]
  settings := ⟨none, false⟩
  createdAt := none

def switch : Job := ⟨switching, 30000, "a", "t", .null⟩

def twoWrites : Backend (Counted Memory) := Faults.backend ⟨false, false, false, none, some 2, 0⟩ Memory.backend

def oneAsset : Counted Memory := ⟨{ assets := .ofList [⟨"a", "t", "well", "", "idle", [], [], []⟩] }, 0, 0⟩

def Prepared.start? : Prepared → Option Nat
  | .skipped _ => none
  | .ready _ start _ => some start

/-- The text of the formula that a visit is of, and whether its value counts as true. -/
def Call.formula? (c : Call (World σ) RunError) : Option (String × Option Bool) :=
  match c.node.kind with
  | .formula source => some (source, c.answer.toOption.map Json.truthy)
  | _ => none

theorem Call.exists_value_of_formula? {c : Call (World σ) RunError} {source : String}
    (h : c.formula? = some (source, some true)) :
    c.node.kind = .formula source ∧ ∃ v, c.answer = .ok v ∧ v.truthy = true := by
  unfold Call.formula? at h
  split at h
  · next hkind =>
    obtain ⟨rfl, htrue⟩ := Prod.mk.inj (Option.some.inj h)
    cases hanswer : c.answer with
    | error e =>
      rw [hanswer] at htrue
      cases htrue
    | ok v =>
      rw [hanswer] at htrue
      exact ⟨hkind, v, rfl, Option.some.inj htrue⟩
  · cases h

/-- The first run fails at its third write and the second at its first: the first two writes are kept, and a walk
that begins then is on the asset that they have made.  The formula that the first walk comes to reads the attribute
that it has written, which its snapshot does not have. -/
theorem runs_of_switching :
    twoWrites.StoresAssets (fun s => s.stores.assets) ∧
    (∃ a, (runAll twoWrites [switch, switch] oneAsset).stores.assets.get? "t" "a" = some a ∧ a.status = "busy" ∧
      (Json.Object.get? a.attributes "open").map Json.truthy = some true) ∧
    (∃ g start ctx w, switch.prepared twoWrites (runAll twoWrites [switch, switch] oneAsset) =
      (.ok (.ready g start ctx), w) ∧ ctx.asset.status = "busy") ∧
    ∃ g start ctx w cs t c v current, switch.prepared twoWrites oneAsset = (.ok (.ready g start ctx), w) ∧
      Steps g (switch.visitor twoWrites ctx) (.initial start w) cs t ∧
      call? g (switch.visitor twoWrites ctx) t = some c ∧ c.node.kind = .formula "attributes.open" ∧
      c.answer = .ok v ∧ v.truthy = true ∧ ctx.asset.attributes = [] ∧
      t.world.stores.stores.assets.get? "t" "a" = some current ∧
      Reads ctx.asset current (.formula "attributes.open") (.ok v) := by
  have hb : twoWrites.StoresAssets fun s => s.stores.assets := Faults.storesAssets Memory.storesAssets _
  have hstatus : (writesTo twoWrites "t" "a" [switch, switch] oneAsset).filterMap Write.status? = ["busy"] := by
    decide +kernel
  have hopen : ((writesTo twoWrites "t" "a" [switch, switch] oneAsset).filterMap (Write.attribute? "open")).map
      Json.truthy = [true] := by decide +kernel
  have hready : (switch.prepared twoWrites (runAll twoWrites [switch, switch] oneAsset)).1.toOption.bind
      Prepared.start? = some 0 := by decide +kernel
  have hread : (switch.rule.calls twoWrites switch.timeout switch.asset switch.tenant switch.payload
      oneAsset).filterMap Call.formula? = [("attributes.open", some true)] := by decide +kernel
  obtain ⟨hbecame, hnext⟩ := runs_keep_writes hb [switch, switch] oneAsset
  have hlast := hbecame.last "t" "a"
  rw [show oneAsset.stores.assets.get? "t" "a" = some ⟨"a", "t", "well", "", "idle", [], [], []⟩ from rfl] at hlast
  refine ⟨hb, ?_, ?_, ?_⟩
  · cases hfound : (runAll twoWrites [switch, switch] oneAsset).stores.assets.get? "t" "a" with
    | none =>
      rw [hfound] at hlast
      cases hlast
    | some a =>
      rw [hfound] at hlast
      obtain ⟨h⟩ := hlast
      refine ⟨a, rfl, ?_, ?_⟩
      · rw [h.status, hstatus]
        rfl
      · rw [h.attributes, show Json.Object.get? [] "open" = none from rfl, Option.or_none, ← List.getLast?_map, hopen]
        rfl
  · rcases hp : switch.prepared twoWrites (runAll twoWrites [switch, switch] oneAsset) with
      ⟨e | ⟨reason | ⟨g, start, ctx⟩⟩, w⟩
    · rw [hp] at hready
      cases hready
    · rw [hp] at hready
      cases hready
    · have hsnapshot : (runAll twoWrites [switch, switch] oneAsset).stores.assets.get? "t" "a" = some ctx.asset :=
        (hnext switch g start ctx w hp).1
      rw [hsnapshot] at hlast
      obtain ⟨h⟩ := hlast
      refine ⟨g, start, ctx, w, rfl, ?_⟩
      rw [h.status, hstatus]
      rfl
  · obtain ⟨c, hmem, hformula⟩ := List.mem_filterMap.1 (hread ▸ List.mem_cons_self)
    obtain ⟨hkind, v, hv, htrue⟩ := Call.exists_value_of_formula? hformula
    obtain ⟨g, start, ctx, w, hp, cs, t, hsteps, hcall⟩ := Job.exists_steps_of_mem_calls (j := switch) hmem
    obtain ⟨hsnapshot, hwalk⟩ := (runs_keep_writes hb [] oneAsset).2 switch g start ctx w hp
    obtain ⟨-, current, hcurrent, hanswered⟩ := hwalk cs t hsteps
    have hanswer := hanswered c hcall (by rw [hkind]; rfl)
    rw [hkind, hv] at hanswer
    have hattributes : ctx.asset.attributes = [] := by
      rw [← Option.some.inj hsnapshot]
    exact ⟨g, start, ctx, w, cs, t, c, v, current, hp, hsteps, hcall, hkind, hv, htrue, hattributes, hcurrent,
      hanswer.reads⟩

end RuleFlow.Walk
