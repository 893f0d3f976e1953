import Mathlib.Logic.Function.Basic
import RuleFlow.Proofs.Backend.Assets
import RuleFlow.Proofs.Walk.Actions
import RuleFlow.Proofs.Walk.Turns
/-! # Two walks at once

Two walks over one asset take turns in any order.  A turn is one operation on the stores, as these take one at a time.
As every update hands over all attributes of the snapshot that its walk has read, it undoes what the other walk has
written since then: `not_race_keeps` is the smallest such case, and `race_stored` says which updates are left. -/
namespace RuleFlow.Walk

/-- How far a walk is: its context, if it has read the asset, what it has staged, and the visits that are left. -/
structure Progress where
  context : Option Context
  staged : Json.Object
  left : List Setting

structure Race where
  stores : Memory
  progress : Side → Progress

namespace Race

def start (walks : Side → Setter) (stores : Memory) : Race := ⟨stores, fun side => ⟨none, [], (walks side).settings⟩⟩

/-- A turn of a walk: it reads the asset if it has not, else it makes its next visit.  A visit that fails ends it. -/
def turn (walks : Side → Setter) (tenant asset : String) (r : Race) (side : Side) : Race :=
  let p := r.progress side
  match p.context, p.left with
  | none, _ =>
    match (Action.readAsset Memory.backend none tenant asset).run (.start r.stores) with
    | (.ok a, w) =>
      let ctx := Context.of (walks side).rule a (walks side).payload
      ⟨w.stores, Function.update r.progress side { p with context := some ctx }⟩
    | (.error _, w) => { r with stores := w.stores }
  | some _, [] => r
  | some ctx, v :: rest =>
    match (visitSetAttribute Memory.backend ctx v.node v.name v.value).run ⟨r.stores, 0, 0, p.staged, []⟩ with
    | (.ok _, w) => ⟨w.stores, Function.update r.progress side ⟨some ctx, w.attributes, rest⟩⟩
    | (.error _, w) => ⟨w.stores, Function.update r.progress side ⟨some ctx, w.attributes, []⟩⟩

def run (walks : Side → Setter) (tenant asset : String) (turns : List Side) (r : Race) : Race :=
  turns.foldl (turn walks tenant asset) r

end Race

variable {walks : Side → Setter} {tenant asset : String} {r : Race} {side : Side} {a : Asset}

def setAll (vs : List Setting) (a : Asset) : Asset := a.writeAll (vs.map Setting.write)

theorem setAll_append (us vs : List Setting) (a : Asset) : setAll (us ++ vs) a = setAll vs (setAll us a) := by
  rw [setAll, List.map_append, Asset.writeAll_append]
  rfl

theorem setAll_concat (vs : List Setting) (v : Setting) (a : Asset) : setAll (vs ++ [v]) a =
    { setAll vs a with attributes := Json.Object.insert v.name v.value (setAll vs a).attributes } :=
  setAll_append vs [v] a

theorem setAll_eq (vs : List Setting) (a : Asset) :
    setAll vs a = { a with attributes := (setAll vs a).attributes } := by
  induction vs using List.reverseRecOn with
  | nil => rfl
  | append_singleton vs v ih =>
    rw [setAll_concat, ih]

theorem get?_setAll (vs : List Setting) (a : Asset) (name : String) :
    Json.Object.get? (setAll vs a).attributes name = (lastValue? name vs).or (Json.Object.get? a.attributes name) := by
  rw [setAll, (Asset.afterWrites_writeAll _ a).attributes, List.filterMap_map]
  rfl

theorem setAll_with {us vs : List Setting} {attributes : Json.Object} (h : attributes = (setAll vs a).attributes) :
    { setAll us a with attributes } = setAll vs a := by
  rw [h, setAll_eq us a]
  exact (setAll_eq vs a).symm

theorem key_setAll (vs : List Setting) (a : Asset) : AssetRepository.key (setAll vs a) = AssetRepository.key a := by
  rw [setAll_eq]
  rfl

theorem turn_read (hp : (r.progress side).context = none) (ha : r.stores.assets.get? tenant asset = some a) :
    r.turn walks tenant asset side =
      ⟨r.stores, Function.update r.progress side
        { r.progress side with context := some (.of (walks side).rule a (walks side).payload) }⟩ := by
  have hends : (Action.readAsset Memory.backend none tenant asset).Ends (.start r.stores)
      (fun found w => found = a ∧ w.stores = r.stores) fun _ _ => False := by
    refine Action.ends_readAsset (fun ms hms _ => nomatch hms) ?_ ?_ ?_
    · intro found s waited hfind
      obtain ⟨hfound, rfl⟩ := Prod.ext_iff.1 hfind
      have heq := Except.ok.inj hfound
      exact ⟨Option.some.inj (heq.symm.trans ha), rfl⟩
    · intro s waited hfind
      have heq := Except.ok.inj (Prod.ext_iff.1 hfind).1
      exact nomatch heq.symm.trans ha
    · intro e s waited hfind
      exact nomatch (Prod.ext_iff.1 hfind).1
  unfold Race.turn
  rcases hrun : (Action.readAsset Memory.backend none tenant asset).run (.start r.stores) with ⟨e | found, w⟩
  · exact (hends.of_error hrun).elim
  · obtain ⟨rfl, hstores⟩ := hends.of_ok hrun
    simp only [hp, hstores]

theorem turn_done {ctx : Context} (hp : (r.progress side).context = some ctx) (hleft : (r.progress side).left = []) :
    r.turn walks tenant asset side = r := by
  unfold Race.turn
  simp only [hp, hleft]

theorem turn_update {ctx : Context} {v : Setting} {rest : List Setting} {current : Asset}
    (hp : (r.progress side).context = some ctx) (hleft : (r.progress side).left = v :: rest)
    (hkey : AssetRepository.key ctx.asset = (tenant, asset))
    (hcurrent : r.stores.assets.get? tenant asset = some current) :
    ∃ stores, r.turn walks tenant asset side =
        ⟨stores, Function.update r.progress side
          ⟨some ctx, Json.Object.insert v.name v.value (r.progress side).staged, rest⟩⟩ ∧
      stores.assets.get? tenant asset = some { current with
        attributes := Json.Object.merge ctx.asset.attributes
          (Json.Object.insert v.name v.value (r.progress side).staged) } := by
  obtain ⟨rfl, rfl⟩ := Prod.mk.inj hkey
  have hends : (visitSetAttribute Memory.backend ctx v.node v.name v.value).Ends
      ⟨r.stores, 0, 0, (r.progress side).staged, []⟩
      (fun _ w => w.attributes = Json.Object.insert v.name v.value (r.progress side).staged ∧
        w.stores.assets.get? ctx.asset.tenantId ctx.asset.id = some { current with
          attributes := Json.Object.merge ctx.asset.attributes
            (Json.Object.insert v.name v.value (r.progress side).staged) }) fun _ _ => False := by
    simp only [visitSetAttribute, reportAction, Action.ends_bind, Action.ends_stageAttribute, Action.ends_ask,
      Action.ends_report, Action.ends_pure]
    constructor
    · intro _ s hupdate
      have hstored := (Memory.storesAssets.get?_update hcurrent hupdate).1 rfl ctx.asset.tenantId ctx.asset.id
      rw [if_pos rfl] at hstored
      exact ⟨trivial, hstored⟩
    · -- the asset is stored, so that its update is not refused
      intro e s hupdate
      have hok := (AssetRepository.modify_ok _ hcurrent).symm.trans (Prod.ext_iff.1 hupdate).1
      cases hok
  unfold Race.turn
  rcases hrun : (visitSetAttribute Memory.backend ctx v.node v.name v.value).run
    ⟨r.stores, 0, 0, (r.progress side).staged, []⟩ with ⟨e | _, w⟩
  · exact (hends.of_error hrun).elim
  · obtain ⟨hattributes, hstored⟩ := hends.of_ok hrun
    refine ⟨w.stores, ?_, hstored⟩
    simp only [hp, hleft, hrun, hattributes]

inductive Stage (walk : Setter) (a : Asset) (h : List Turn) (side : Side) (p : Progress) : Nat → Prop
  | unread (hcontext : p.context = none) (hstaged : p.staged = []) (hleft : p.left = walk.settings)
      (hread : ∀ t ∈ h, t.isRead side = false) (hupdates : updates side h = []) : Stage walk a h side p 0
  | walking (n : Nat) (ctx : Context) (hcontext : p.context = some ctx)
      (hasset : ctx.asset = setAll (updates side.other (untilRead side h)) a)
      (hread : ∃ t ∈ h, t.isRead side = true) (hsorted : Json.Object.Sorted p.staged)
      (hstaged : Json.Object.merge ctx.asset.attributes p.staged = (setAll (updates side h) ctx.asset).attributes)
      (hleft : p.left = walk.settings.drop n) (hupdates : updates side h = walk.settings.take n) :
      Stage walk a h side p (n + 1)

namespace Stage

variable {walk : Setter} {h : List Turn} {p : Progress} {n : Nat}

/-- What the other walk does changes nothing for a walk. -/
theorem concat {t : Turn} (hp : Stage walk a h side p n) (ht : t.side ≠ side) : Stage walk a (h ++ [t]) side p n := by
  have hupdates : updates side (h ++ [t]) = updates side h := by
    simp [updates, List.filterMap_append, Turn.update?_of_ne ht]
  cases hp with
  | unread hcontext hstaged hleft hnone hnil =>
    refine .unread hcontext hstaged hleft (fun u hu => ?_) (hupdates.trans hnil)
    rcases List.mem_append.1 hu with hu | hu
    · exact hnone u hu
    · rw [List.mem_singleton.1 hu, Turn.isRead_of_ne ht]
  | walking n ctx hcontext hasset hsome hsorted hstaged hleft htake =>
    obtain ⟨u, hu, hside⟩ := hsome
    refine .walking n ctx hcontext ?_ ⟨u, List.mem_append_left _ hu, hside⟩ hsorted ?_ hleft (hupdates.trans htake)
    · rwa [untilRead_concat ⟨u, hu, hside⟩]
    · rwa [hupdates]

theorem updates_eq (hp : Stage walk a h side p n) : updates side h = walk.settings.take (n - 1) := by
  cases hp with
  | unread _ _ _ _ hnil => exact hnil
  | walking n ctx _ _ _ _ _ _ htake => exact htake

theorem of_unread (hp : Stage walk a h side p n) (hcontext : p.context = none) : n = 0 ∧ updates side h = [] := by
  cases hp with
  | unread _ _ _ _ hnil => exact ⟨rfl, hnil⟩
  | walking n ctx hsome => exact nomatch hcontext.symm.trans hsome

theorem read {ctx : Context} (hp : Stage walk a h side p 0) (hasset : ctx.asset = setAll (surviving h) a) :
    Stage walk a (h ++ [.read side]) side { p with context := some ctx } 1 := by
  cases hp with
  | unread hcontext hstaged hleft hread hnil =>
    have hupdates : updates side (h ++ [.read side]) = [] := updates_concat_read.trans hnil
    refine .walking 0 ctx rfl ?_ ⟨.read side, by simp, by simp [Turn.isRead]⟩ ?_ ?_ hleft hupdates
    · rw [untilRead_concat_read hread, ← surviving_of_updates_eq_nil hnil, hasset]
    · simp only [hstaged]
      exact List.Pairwise.nil
    · simp only [hstaged, hupdates]
      rfl

theorem key {ctx : Context} (hp : Stage walk a h side p n) (hcontext : p.context = some ctx) :
    AssetRepository.key ctx.asset = AssetRepository.key a := by
  cases hp with
  | unread hnone => exact nomatch hnone.symm.trans hcontext
  | walking n ctx' hcontext' hasset =>
    obtain rfl : ctx' = ctx := Option.some.inj (hcontext'.symm.trans hcontext)
    rw [hasset, key_setAll]

theorem turn?_of_left {ctx : Context} (hp : Stage walk a h side p n) (hcontext : p.context = some ctx) :
    walk.turn? side n = p.left.head?.map (.update side) := by
  cases hp with
  | unread hnone => exact nomatch hnone.symm.trans hcontext
  | walking n ctx' _ _ _ _ _ hleft =>
    rw [hleft, List.head?_drop]
    rfl

theorem done {ctx : Context} (hp : Stage walk a h side p n) (hcontext : p.context = some ctx) (hnext : p.left = []) :
    Stage walk a h side p (n + 1) := by
  cases hp with
  | unread hnone => exact nomatch hnone.symm.trans hcontext
  | walking n ctx' hcontext' hasset hread hsorted hstaged hleft htake =>
    have hlength : walk.settings.length ≤ n := List.drop_eq_nil_iff.1 (hleft.symm.trans hnext)
    refine .walking (n + 1) ctx' hcontext' hasset hread hsorted hstaged ?_ ?_
    · rw [hnext, List.drop_eq_nil_of_le (Nat.le_succ_of_le hlength)]
    · rw [htake, List.take_of_length_le hlength, List.take_of_length_le (Nat.le_succ_of_le hlength)]

theorem update {ctx : Context} {v : Setting} {rest : List Setting} (hp : Stage walk a h side p n)
    (hcontext : p.context = some ctx) (hnext : p.left = v :: rest) :
    Stage walk a (h ++ [.update side v]) side ⟨some ctx, Json.Object.insert v.name v.value p.staged, rest⟩ (n + 1) := by
  cases hp with
  | unread hnone => exact nomatch hnone.symm.trans hcontext
  | walking n ctx' hcontext' hasset hread hsorted hstaged hleft htake =>
    obtain rfl : ctx' = ctx := Option.some.inj (hcontext'.symm.trans hcontext)
    obtain ⟨u, hu, hside⟩ := hread
    have hdrop : walk.settings.drop n = v :: rest := hleft.symm.trans hnext
    have hupdates : updates side (h ++ [.update side v]) = updates side h ++ [v] := by
      rw [updates_concat_update, if_pos rfl]
    refine .walking (n + 1) ctx' rfl ?_ ⟨u, List.mem_append_left _ hu, hside⟩ (hsorted.insert _ _) ?_ ?_ ?_
    · rwa [untilRead_concat ⟨u, hu, hside⟩]
    · rw [hupdates, Json.Object.merge_insert hsorted, hstaged, setAll_concat]
    · rw [← List.drop_drop, hdrop]
      rfl
    · rw [hupdates, htake, List.take_add, hdrop]
      rfl

/-- An update leaves what the other walk had written before the snapshot was taken, and what the walk itself has. -/
theorem merge_staged {ctx : Context} (hp : Stage walk a h side p n) (hcontext : p.context = some ctx) (v : Setting)
    (us : List Setting) :
    { setAll us a with
        attributes := Json.Object.merge ctx.asset.attributes (Json.Object.insert v.name v.value p.staged) } =
      setAll (surviving (h ++ [.update side v])) a := by
  cases hp with
  | unread hnone => exact nomatch hnone.symm.trans hcontext
  | walking n ctx' hcontext' hasset hread hsorted hstaged =>
    obtain rfl : ctx' = ctx := Option.some.inj (hcontext'.symm.trans hcontext)
    apply setAll_with
    rw [surviving_concat_update hread, setAll_concat, setAll_append, ← hasset, Json.Object.merge_insert hsorted,
      hstaged]

end Stage

/-- What holds of a race after some turns. -/
structure Race.Holds (walks : Side → Setter) (tenant asset : String) (a : Asset) (turns : List Side) (r : Race) :
    Prop where
  stored : r.stores.assets.get? tenant asset = some (setAll (surviving (history walks turns)) a)
  stage (side : Side) : Stage (walks side) a (history walks turns) side (r.progress side) (turns.count side)

namespace Race.Holds

variable {turns : List Side}

theorem start {stores : Memory} (ha : stores.assets.get? tenant asset = some a) :
    (Race.start walks stores).Holds walks tenant asset a [] :=
  ⟨ha, fun _ => .unread rfl rfl rfl (fun _ ht => nomatch ht) rfl⟩

/-- What is to be shown of a turn: what it leaves in the stores, and how far its own walk is. -/
theorem concat (hr : r.Holds walks tenant asset a turns) {stores : Memory} {p : Progress} {t : Turn}
    (ht : (walks t.side).turn? t.side (turns.count t.side) = some t)
    (hstored : stores.assets.get? tenant asset = some (setAll (surviving (history walks turns ++ [t])) a))
    (hstage : Stage (walks t.side) a (history walks turns ++ [t]) t.side p (turns.count t.side + 1)) :
    (⟨stores, Function.update r.progress t.side p⟩ : Race).Holds walks tenant asset a (turns ++ [t.side]) := by
  have hhistory : history walks (turns ++ [t.side]) = history walks turns ++ [t] := by
    rw [history_concat, ht]
    rfl
  refine ⟨hhistory ▸ hstored, fun side => ?_⟩
  rw [hhistory]
  by_cases hs : side = t.side
  · subst hs
    simpa using hstage
  · have hcount : (turns ++ [t.side]).count side = turns.count side := by
      simp [List.count_append, Ne.symm hs]
    simp only [Function.update_of_ne hs, hcount]
    exact (hr.stage side).concat (Ne.symm hs)

theorem turn (hr : r.Holds walks tenant asset a turns) (side : Side) :
    (r.turn walks tenant asset side).Holds walks tenant asset a (turns ++ [side]) := by
  have hstage := hr.stage side
  cases hcontext : (r.progress side).context with
  | none =>
    obtain ⟨hcount, hnil⟩ := hstage.of_unread hcontext
    rw [hcount] at hstage
    rw [turn_read hcontext hr.stored]
    refine hr.concat (t := .read side) ?_ ?_ ?_
    · rw [Turn.side, hcount]
      rfl
    · rw [surviving_concat_read hnil]
      exact hr.stored
    · simpa only [Turn.side, hcount] using hstage.read rfl
  | some ctx =>
    -- the walk has read the asset: it makes its next visit, if one is left
    have hturn? := hstage.turn?_of_left hcontext
    cases hnext : (r.progress side).left with
    | nil =>
      have hhistory : history walks (turns ++ [side]) = history walks turns := by
        rw [history_concat, hturn?, hnext]
        exact List.append_nil _
      rw [turn_done hcontext hnext]
      refine ⟨hhistory ▸ hr.stored, fun s => ?_⟩
      rw [hhistory]
      by_cases hs : s = side
      · subst hs
        simpa using hstage.done hcontext hnext
      · simpa [List.count_append, Ne.symm hs] using hr.stage s
    | cons v rest =>
      have hkey : AssetRepository.key ctx.asset = (tenant, asset) := by
        rw [hstage.key hcontext, ← key_setAll (surviving (history walks turns)), AssetRepository.key_of_get? hr.stored]
      obtain ⟨stores, hturn, hstored⟩ := turn_update hcontext hnext hkey hr.stored
      rw [hturn]
      rw [hnext] at hturn?
      refine hr.concat (t := .update side v) hturn? ?_ (hstage.update hcontext hnext)
      rw [hstored, hstage.merge_staged hcontext]

/-- By induction on the turns: the last one is taken from where the others have led. -/
theorem run {stores : Memory} (ha : stores.assets.get? tenant asset = some a) (turns : List Side) :
    ((Race.start walks stores).run walks tenant asset turns).Holds walks tenant asset a turns := by
  induction turns using List.reverseRecOn with
  | nil => exact .start ha
  | append_singleton turns side ih =>
    rw [Race.run, List.foldl_concat]
    exact ih.turn side

end Race.Holds

/-- Two walks race over an asset, in whatever order they take their turns.  Then each has made the visits that it has
had turns for after the one in which it read the asset.  Of the asset only attributes have changed: each has the last
value that the last updater wrote, else the last one that the other walk had written when the last updater read the
asset, else the one it had at the start. -/
theorem race_stored {stores : Memory} (ha : stores.assets.get? tenant asset = some a) (walks : Side → Setter)
    (turns : List Side) :
    let h := history walks turns
    (∀ side, updates side h = (walks side).settings.take (turns.count side - 1)) ∧
      ∃ stored, ((Race.start walks stores).run walks tenant asset turns).stores.assets.get? tenant asset = some stored ∧
        (lastUpdater? h = none → stored = a) ∧
        ∀ side, lastUpdater? h = some side →
          stored = { a with attributes := stored.attributes } ∧
          ∀ name, Json.Object.get? stored.attributes name =
            ((lastValue? name (updates side h)).or (lastValue? name (updates side.other (untilRead side h)))).or
              (Json.Object.get? a.attributes name) := by
  intro h
  have hr : ((Race.start walks stores).run walks tenant asset turns).Holds walks tenant asset a turns := .run ha turns
  refine ⟨fun side => (hr.stage side).updates_eq, _, hr.stored, fun hnone => ?_, fun side hlast => ?_⟩
  · rw [surviving, hnone]
    rfl
  · refine ⟨setAll_eq _ a, fun name => ?_⟩
    rw [get?_setAll, surviving, hlast]
    exact congrArg (Option.or · _) lastValue?_append

def bareWell : Asset := ⟨"a", "t", "well", "", "", [], [], []⟩

def oneBareWell : Memory where
  assets := .ofList [bareWell]

def setters : Side → Setter
  | .first => ⟨"r", .null, [⟨"n", "x", .bool true⟩]⟩
  | .second => ⟨"s", .null, [⟨"n", "y", .bool true⟩]⟩

def nested : List Side := [.second, .first, .first, .second]

/-- What the second walk sets is stored, and what the first one has set is lost. -/
theorem race_nested :
    oneBareWell.assets.get? "t" "a" = some bareWell ∧
    ∃ stored, ((Race.start setters oneBareWell).run setters "t" "a" nested).stores.assets.get? "t" "a" = some stored ∧
      (Json.Object.get? stored.attributes "x").map Json.truthy = none ∧
      (Json.Object.get? stored.attributes "y").map Json.truthy = some true := by
  have hwell : oneBareWell.assets.get? "t" "a" = some bareWell := rfl
  obtain ⟨-, stored, hstored, -, hlast⟩ := race_stored hwell setters nested
  obtain ⟨-, hattributes⟩ := hlast .second rfl
  refine ⟨hwell, stored, hstored, ?_, ?_⟩
  · rw [hattributes]
    rfl
  · rw [hattributes]
    rfl

/-- That each walk finds its last values stored in the end, if no attribute is set by both, does not hold. -/
theorem not_race_keeps :
    ¬ ∀ (walks : Side → Setter) (stores : Memory) (tenant asset : String) (turns : List Side),
      (stores.assets.get? tenant asset).isSome →
      (∀ u ∈ (walks .first).settings, ∀ v ∈ (walks .second).settings, u.name ≠ v.name) →
      (∀ side, turns.count side = (walks side).settings.length + 1) →
      ∀ side name value, lastValue? name (walks side).settings = some value →
        ∃ stored, ((Race.start walks stores).run walks tenant asset turns).stores.assets.get? tenant asset =
          some stored ∧ Json.Object.get? stored.attributes name = some value := by
  intro hkeeps
  have hdisjoint : ∀ u ∈ (setters .first).settings, ∀ v ∈ (setters .second).settings, u.name ≠ v.name := by
    simp [setters]
  have hturns : ∀ side, nested.count side = (setters side).settings.length + 1 := by
    intro side
    cases side <;> rfl
  obtain ⟨stored, hstored, hx⟩ := hkeeps setters oneBareWell "t" "a" nested rfl hdisjoint hturns .first "x" _ rfl
  have hlost : (((Race.start setters oneBareWell).run setters "t" "a" nested).stores.assets.get? "t" "a").bind
      (fun a => (Json.Object.get? a.attributes "x").map Json.truthy) = none := rfl
  rw [hstored, Option.bind_some, hx] at hlost
  cases hlost

end RuleFlow.Walk
