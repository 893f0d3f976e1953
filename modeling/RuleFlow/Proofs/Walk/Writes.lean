import RuleFlow.Proofs.Asset.Writes
import RuleFlow.Proofs.Backend.Assets
import RuleFlow.Proofs.Walk.Run
import RuleFlow.Proofs.Walk.Visits
/-! # What a walk writes

A write hands over the whole attributes, or all computed values, of the snapshot with what the walk has staged so far.
The invariant `Staged` says why that loses nothing: the snapshot with what is staged is the stored asset.  Main
statements: `ends_visitNode_staged`, by which a visit keeps the invariant, and `Staged.steps`, by which every walk
does. -/
namespace RuleFlow.Walk

variable {σ : Type} {b : Backend σ} {repo : σ → AssetRepository}

def computedEntry (value : Json) (now : Instant) : Json :=
  Json.ofMembers [("value", value), ("calculatedAt", now.toJson), ("source", .string "rule")]

/-- What a visit of a node writes to the asset, if it does not fail. -/
def write? (b : Backend σ) (n : Node) (outputs : Outputs) (s : σ) : Option Write :=
  match n.kind with
  | .setAttribute name value => some (.setAttribute name (resolveValue outputs value))
  | .setComputed field value => some (.setComputed field (computedEntry (resolveValue outputs value) (b.now s)))
  | .setStatus status => some (.setStatus status)
  | _ => none

def Call.write? (b : Backend σ) (c : Call (World σ) RunError) : Option Write :=
  match c.answer with
  | .ok _ => Walk.write? b c.node c.outputs c.world.stores
  | .error _ => none

/-- What becomes of the assets of a store when one of them is written to. -/
def written (before : String → String → Option Asset) (tenant asset : String) (ws : List Write)
    (tenant' asset' : String) : Option Asset :=
  if (tenant, asset) = (tenant', asset') then (before tenant' asset').map (Asset.writeAll ws)
  else before tenant' asset'

theorem written_nil (before : String → String → Option Asset) (tenant asset : String) :
    written before tenant asset [] = before := by
  funext tenant' asset'
  unfold written
  split
  · cases before tenant' asset' <;> rfl
  · rfl

/-- What a walk on a snapshot has stored and staged after some writes.  The stored asset is the snapshot with these
writes; so is the snapshot with what is staged, as far as it can be staged. -/
structure Staged (repo : σ → AssetRepository) (before : String → String → Option Asset) (snapshot : Asset)
    (ws : List Write) (w : World σ) : Prop where
  found : before snapshot.tenantId snapshot.id = some snapshot
  stored : (repo w.stores).get? = written before snapshot.tenantId snapshot.id ws
  attributes : Json.Object.merge snapshot.attributes w.attributes = (snapshot.writeAll ws).attributes
  computed : Json.Object.merge snapshot.computed w.computed = (snapshot.writeAll ws).computed
  attributes_sorted : Json.Object.Sorted w.attributes
  computed_sorted : Json.Object.Sorted w.computed

namespace Staged

variable {before : String → String → Option Asset} {snapshot : Asset} {ws : List Write} {w w' : World σ}

theorem current (h : Staged repo before snapshot ws w) :
    (repo w.stores).get? snapshot.tenantId snapshot.id = some (snapshot.writeAll ws) := by
  rw [h.stored, written, if_pos rfl, h.found]
  rfl

theorem congr (h : Staged repo before snapshot ws w) (hassets : (repo w'.stores).assets = (repo w.stores).assets)
    (ha : w'.attributes = w.attributes) (hc : w'.computed = w.computed) : Staged repo before snapshot ws w' where
  found := h.found
  stored := (AssetRepository.get?_congr hassets).trans h.stored
  attributes := by rw [ha, h.attributes]
  computed := by rw [hc, h.computed]
  attributes_sorted := ha ▸ h.attributes_sorted
  computed_sorted := hc ▸ h.computed_sorted

theorem stored_concat (h : Staged repo before snapshot ws w) {x : Write} {s : σ}
    (hs : ∀ tenant asset, (repo s).get? tenant asset =
      if (snapshot.tenantId, snapshot.id) = (tenant, asset) then some ((snapshot.writeAll ws).write x)
      else (repo w.stores).get? tenant asset) :
    (repo s).get? = written before snapshot.tenantId snapshot.id (ws ++ [x]) := by
  funext tenant asset
  rw [hs, h.stored, written, written]
  split
  · rename_i heq
    obtain ⟨rfl, rfl⟩ := Prod.mk.inj heq
    rw [h.found, Option.map_some, Asset.writeAll_concat]
  · rfl

/-- To store an attribute is to make one more write: the snapshot with all that is staged has only that one changed. -/
theorem setAttribute (hb : b.StoresAssets repo) (h : Staged repo before snapshot ws w) {name : String} {value : Json}
    {s : σ} (hs : b.updateAsset snapshot.tenantId snapshot.id
      ⟨some (Json.Object.merge snapshot.attributes (Json.Object.insert name value w.attributes)), none⟩ w.stores =
        (.ok (), s)) :
    Staged repo before snapshot (ws ++ [.setAttribute name value])
      { w with stores := s, attributes := Json.Object.insert name value w.attributes } := by
  have hmerge : Json.Object.merge snapshot.attributes (Json.Object.insert name value w.attributes) =
      Json.Object.insert name value (snapshot.writeAll ws).attributes := by
    rw [Json.Object.merge_insert h.attributes_sorted, h.attributes]
  rw [hmerge] at hs
  refine ⟨h.found, h.stored_concat ((hb.get?_update h.current hs).1 rfl), ?_, ?_, ?_, h.computed_sorted⟩
  · rw [hmerge, Asset.writeAll_concat]
    rfl
  · rw [Asset.writeAll_concat]
    exact h.computed
  · exact h.attributes_sorted.insert name value

/-- The same for a computed value. -/
theorem setComputed (hb : b.StoresAssets repo) (h : Staged repo before snapshot ws w) {field : String} {entry : Json}
    {s : σ} (hs : b.replaceComputed snapshot.tenantId snapshot.id
      (Json.Object.merge snapshot.computed (Json.Object.insert field entry w.computed)) w.stores = (.ok (), s)) :
    Staged repo before snapshot (ws ++ [.setComputed field entry])
      { w with stores := s, computed := Json.Object.insert field entry w.computed } := by
  have hmerge : Json.Object.merge snapshot.computed (Json.Object.insert field entry w.computed) =
      Json.Object.insert field entry (snapshot.writeAll ws).computed := by
    rw [Json.Object.merge_insert h.computed_sorted, h.computed]
  rw [hmerge] at hs
  refine ⟨h.found, h.stored_concat ((hb.get?_replaceComputed h.current hs).1 rfl), ?_, ?_, h.attributes_sorted, ?_⟩
  · rw [Asset.writeAll_concat]
    exact h.attributes
  · rw [hmerge, Asset.writeAll_concat]
    rfl
  · exact h.computed_sorted.insert field entry

/-- The same for a status, of which nothing is staged. -/
theorem setStatus (hb : b.StoresAssets repo) (h : Staged repo before snapshot ws w) {status : String} {s : σ}
    (hs : b.updateAsset snapshot.tenantId snapshot.id ⟨none, some status⟩ w.stores = (.ok (), s)) :
    Staged repo before snapshot (ws ++ [.setStatus status]) { w with stores := s } := by
  refine ⟨h.found, h.stored_concat ((hb.get?_update h.current hs).1 rfl), ?_, ?_, h.attributes_sorted,
    h.computed_sorted⟩
  · rw [Asset.writeAll_concat]
    exact h.attributes
  · rw [Asset.writeAll_concat]
    exact h.computed

end Staged

variable {before : String → String → Option Asset} {limit : Limit} {ctx : Context} {n : Node} {outputs : Outputs}
  {ws : List Write} {w : World σ}

theorem ends_visitKind_staged (hb : b.StoresAssets repo) (h : Staged repo before ctx.asset ws w) :
    (visitKind b limit ctx n outputs).Ends w
      (fun _ w' => Staged repo before ctx.asset (ws ++ (write? b n outputs w.stores).toList) w')
      (fun _ w' => (repo w'.stores).get? = written before ctx.asset.tenantId ctx.asset.id ws) := by
  have hreport {ws : List Write} {w : World σ} (e : Journal.Entry) (h : Staged repo before ctx.asset ws w) :
      Staged repo before ctx.asset ws { w with stores := (b.report e w.stores).2 } :=
    h.congr (hb.report e w.stores) rfl rfl
  have hsame {s : σ} (hassets : (repo s).assets = (repo w.stores).assets) :
      (repo s).get? = written before ctx.asset.tenantId ctx.asset.id ws :=
    (AssetRepository.get?_congr hassets).trans h.stored
  unfold visitKind write?
  cases n.kind with
  | trigger _ => simpa using h
  | getTelemetry _ => simpa using h
  | getAttribute _ => simpa using h
  | condition source =>
    simp only [Option.toList_none, List.append_nil, visitCondition]
    split
    · exact h
    · exact hreport _ h
  | math operation operands =>
    simp only [Option.toList_none, List.append_nil, Action.ends_mk_pure]
    exact ⟨fun _ _ => h, fun _ _ => h.stored⟩
  | formula source =>
    simp only [Option.toList_none, List.append_nil, computeField, Action.ends_bind]
    refine Action.ends_readAsset (fun _ _ _ => h.stored) (fun a s waited hs => ?_) (fun s waited hs => ?_)
      fun e s waited hs => ?_
    · split
      · exact hsame (hb.find hs).1
      · exact hreport _ (h.congr (hb.find hs).1 rfl rfl)
    · exact hsame (hb.find hs).1
    · exact hsame (hb.find hs).1
  | setComputed field value =>
    simp only [Option.toList_some, visitSetComputed, reportAction, Action.ends_bind, Action.ends_get,
      Action.ends_stageComputed, Action.ends_ask, Action.ends_report, Action.ends_pure]
    -- what is refused stays staged, but the walk ends there and only the stored assets count
    refine ⟨fun _ s hs => hreport _ (h.setComputed hb hs), fun e s hs => ?_⟩
    exact hsame ((hb.get?_replaceComputed h.current hs).2 e rfl)
  | setAttribute name value =>
    simp only [Option.toList_some, visitSetAttribute, reportAction, Action.ends_bind, Action.ends_stageAttribute,
      Action.ends_ask, Action.ends_report, Action.ends_pure]
    refine ⟨fun _ s hs => hreport _ (h.setAttribute hb hs), fun e s hs => ?_⟩
    exact hsame ((hb.get?_update h.current hs).2 e rfl)
  | setStatus status =>
    simp only [Option.toList_some, visitSetStatus, reportAction, Action.ends_bind, Action.ends_ask, Action.ends_report,
      Action.ends_pure]
    refine ⟨fun _ s hs => hreport _ (h.setStatus hb hs), fun e s hs => ?_⟩
    exact hsame ((hb.get?_update h.current hs).2 e rfl)
  | createAlarm template =>
    simp only [Option.toList_none, List.append_nil, visitCreateAlarm, Action.ends_bind, Action.ends_get,
      Action.ends_ask, Action.ends_pure]
    exact ⟨fun _ s hs => h.congr (hb.raise hs) rfl rfl, fun e s hs => hsame (hb.raise hs)⟩
  | log message level =>
    simp only [Option.toList_none, List.append_nil, visitLog, Action.ends_bind, Action.ends_report, Action.ends_pure]
    exact hreport _ h

/-- A visit makes the write of its node, or fails and leaves the assets alone. -/
theorem ends_visitNode_staged (hb : b.StoresAssets repo) {branchOnFalse : Bool}
    (h : Staged repo before ctx.asset ws w) :
    (visitNode b limit ctx branchOnFalse n outputs).Ends w
      (fun _ w' => Staged repo before ctx.asset (ws ++ (write? b n outputs w.stores).toList) w')
      (fun _ w' => (repo w'.stores).get? = written before ctx.asset.tenantId ctx.asset.id ws) :=
  ends_visitNode (fun _ e w' h' => h'.congr (hb.report e w'.stores) rfl rfl) (fun _ _ _ _ => h.stored)
    fun _ => ends_visitKind_staged hb (h.congr rfl rfl rfl)

section

variable {g : Graph} {branchOnFalse : Bool} {s t : State (World σ)} {cs : List (Call (World σ) RunError)}

/-- A step that goes on makes the write of its call, if it has one. -/
theorem Staged.next (hb : b.StoresAssets repo) (h : Staged repo before ctx.asset ws s.world)
    (hstep : step g (visitor b limit ctx branchOnFalse) s = .next t) :
    Staged repo before ctx.asset
      (ws ++ (call? g (visitor b limit ctx branchOnFalse) s).toList.filterMap (Call.write? b)) t.world := by
  rcases step_eq_next_cases hstep with ⟨hc, _, hworld⟩ | ⟨p, n, x, hc, hvisit, _⟩
  · rw [hc, hworld]
    simpa using h
  · have hstaged := (ends_visitNode_staged hb h).of_ok hvisit
    rw [hc, Option.toList_some, List.filterMap_cons, List.filterMap_nil]
    cases hw : Walk.write? b n s.outputs s.world.stores with
    | none => simpa [Call.write?, hw] using hstaged
    | some x => simpa [Call.write?, hw] using hstaged

theorem Staged.steps (hb : b.StoresAssets repo) (h : Staged repo before ctx.asset ws s.world)
    (hsteps : Steps g (visitor b limit ctx branchOnFalse) s cs t) :
    Staged repo before ctx.asset (ws ++ cs.filterMap (Call.write? b)) t.world := by
  induction hsteps generalizing ws with
  | refl s => simpa using h
  | next hstep _ ih =>
    rw [List.filterMap_append, ← List.append_assoc]
    exact ih (h.next hb hstep)

/-- A walk makes the writes of its calls, whether it completes or fails. -/
theorem Staged.stored_result (hb : b.StoresAssets repo) (h : Staged repo before ctx.asset ws s.world) :
    (repo (trace g (visitor b limit ctx branchOnFalse) s).result.2.stores).get? =
      written before ctx.asset.tenantId ctx.asset.id
        (ws ++ (trace g (visitor b limit ctx branchOnFalse) s).calls.filterMap (Call.write? b)) := by
  fun_induction trace g (visitor b limit ctx branchOnFalse) s generalizing ws with
  | case1 s t hstep ih =>
    simp only [Trace.prepend, List.filterMap_append, ← List.append_assoc]
    exact ih (h.next hb hstep)
  | case2 s r hdone =>
    rcases step_eq_done_cases hdone with ⟨hc, rfl⟩ | ⟨_, _, hc, _, _, rfl⟩ | ⟨p, n, e, w', hc, hvisit, rfl⟩
    · simpa [hc] using h.stored
    · simpa [hc] using h.stored
    · have hstored := (ends_visitNode_staged hb h).of_error hvisit
      simpa [hc, List.filterMap_cons, Call.write?] using hstored

end

end RuleFlow.Walk
