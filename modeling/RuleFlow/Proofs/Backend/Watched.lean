import RuleFlow.Proofs.Backend.Alike
/-! # Backends that are watched

Every backend can be made to write down what it is asked to do, also where it fails.  That changes nothing: the watched
backend answers as the backend below it (`alike_watched`).  What has been written down can be told from outside, apart
from what the engine has reported. -/
namespace RuleFlow

/-- What a backend is asked to do. -/
inductive Effect
  | update (tenant asset : String) (change : AssetUpdate)
  | compute (tenant asset : String) (values : Json.Object)
  | alarm (a : Alarm)
  | record (r : ExecutionRecord)
  | metric (m : Metric)
  | entry (e : Journal.Entry)

namespace Effect

def record? : Effect → Option ExecutionRecord
  | .record r => some r
  | _ => none

def metric? : Effect → Option Metric
  | .metric m => some m
  | _ => none

def ofRun : Effect → Bool
  | .record _ => false
  | .metric _ => false
  | _ => true

def isOutward : Effect → Bool
  | .entry e => e.part ≠ .engine
  | _ => true

end Effect

/-- Stores with what has been asked of them so far. -/
structure Watched (σ : Type) where
  stores : σ
  effects : List Effect

variable {σ σ' ν α : Type}

def Watched.below (effects : List Effect) (f : StateM σ α) : StateM (Watched σ) α := fun s =>
  ((f s.stores).1, ⟨(f s.stores).2, s.effects ++ effects⟩)

theorem Watched.forall_below {P : Effect → Prop} {effects : List Effect} (h : ∀ e ∈ effects, P e) (f : StateM σ α)
    {s : Watched σ} (hs : ∀ e ∈ s.effects, P e) : ∀ e ∈ (Watched.below effects f s).2.effects, P e :=
  fun e he => (List.mem_append.1 he).elim (hs e) (h e)

def Backend.watched (b : Backend σ) : Backend (Watched σ) where
  findRule rule tenant := Watched.below [] (b.findRule rule tenant)
  activeRules tenant := Watched.below [] (b.activeRules tenant)
  readDelay s := b.readDelay s.stores
  workTime s := b.workTime s.stores
  findAsset tenant asset := Watched.below [] (b.findAsset tenant asset)
  updateAsset tenant asset change := Watched.below [.update tenant asset change] (b.updateAsset tenant asset change)
  replaceComputed tenant asset values :=
    Watched.below [.compute tenant asset values] (b.replaceComputed tenant asset values)
  raise alarm := Watched.below [.alarm alarm] (b.raise alarm)
  insertRecord r := Watched.below [.record r] (b.insertRecord r)
  publish metric := Watched.below [.metric metric] (b.publish metric)
  report e := Watched.below [.entry e] (b.report e)
  now s := b.now s.stores
  freshId := Watched.below [] b.freshId

/-- To be watched changes nothing of what a backend answers and does. -/
theorem Backend.alike_watched (b : Backend σ) : b.watched.Alike b fun s t => s.stores = t where
  findRule _ _ := by rintro _ _ rfl; exact ⟨rfl, rfl⟩
  activeRules _ := by rintro _ _ rfl; exact ⟨rfl, rfl⟩
  readDelay h := h ▸ rfl
  workTime h := h ▸ rfl
  findAsset _ _ := by rintro _ _ rfl; exact ⟨rfl, rfl⟩
  updateAsset _ _ _ := by rintro _ _ rfl; exact ⟨rfl, rfl⟩
  replaceComputed _ _ _ := by rintro _ _ rfl; exact ⟨rfl, rfl⟩
  raise _ := by rintro _ _ rfl; exact ⟨rfl, rfl⟩
  insertRecord _ := by rintro _ _ rfl; exact ⟨rfl, rfl⟩
  publish _ := by rintro _ _ rfl; exact ⟨rfl, rfl⟩
  report _ := by rintro _ _ rfl; exact ⟨rfl, rfl⟩
  now h := h ▸ rfl
  freshId := by rintro _ _ rfl; exact ⟨rfl, rfl⟩

/-- What has been asked for before makes no difference. -/
theorem Backend.alike_watched_after (b : Backend σ) (before : List Effect) :
    b.watched.Alike b.watched fun s t => s = ⟨t.stores, before ++ t.effects⟩ := by
  have hbelow {α : Type} (effects : List Effect) (f : StateM σ α) :
      RuleFlow.Alike (fun s t : Watched σ => s = ⟨t.stores, before ++ t.effects⟩) Eq (Watched.below effects f)
        (Watched.below effects f) := by
    rintro _ t rfl
    exact ⟨rfl, congrArg (Watched.mk _) (List.append_assoc before t.effects effects)⟩
  exact {
    findRule := fun _ _ => hbelow _ _
    activeRules := fun _ => hbelow _ _
    readDelay := by rintro _ t rfl; rfl
    workTime := by rintro _ t rfl; rfl
    findAsset := fun _ _ => hbelow _ _
    updateAsset := fun _ _ _ => hbelow _ _
    replaceComputed := fun _ _ _ => hbelow _ _
    raise := fun _ => hbelow _ _
    insertRecord := fun _ => hbelow _ _
    publish := fun _ => hbelow _ _
    report := fun _ => hbelow _ _
    now := by rintro _ t rfl; rfl
    freshId := hbelow _ _ }

namespace Watched

def look (view : σ → ν) (s : Watched σ) : Watched ν := ⟨view s.stores, s.effects.filter Effect.isOutward⟩

theorem alike_below (effects : List Effect) {view : σ → ν} {f : StateM σ α} (h : Alike (SameView view) Eq f f) :
    Alike (SameView (look view)) Eq (below effects f) (below effects f) := by
  rintro ⟨s, es⟩ ⟨s', es'⟩ hs
  obtain ⟨hview, heffects⟩ := Watched.mk.inj hs
  obtain ⟨hanswer, hafter⟩ := h s s' hview
  refine ⟨hanswer, ?_⟩
  unfold SameView look below
  dsimp only
  rw [hafter, List.filter_append, List.filter_append, heffects]

theorem view_eq_of_look {view : σ → ν} {s s' : Watched σ} (h : SameView (look view) s s') :
    view s.stores = view s'.stores := congrArg Watched.stores h

theorem alike {b : Backend σ} {view : σ → ν} (hb : b.Alike b (SameView view)) :
    b.watched.Alike b.watched (SameView (look view)) where
  findRule _ _ := alike_below _ (hb.findRule _ _)
  activeRules _ := alike_below _ (hb.activeRules _)
  readDelay h := hb.readDelay (view_eq_of_look h)
  workTime h := hb.workTime (view_eq_of_look h)
  findAsset _ _ := alike_below _ (hb.findAsset _ _)
  updateAsset _ _ _ := alike_below _ (hb.updateAsset _ _ _)
  replaceComputed _ _ _ := alike_below _ (hb.replaceComputed _ _ _)
  raise _ := alike_below _ (hb.raise _)
  insertRecord _ := alike_below _ (hb.insertRecord _)
  publish _ := alike_below _ (hb.publish _)
  report _ := alike_below _ (hb.report _)
  now h := hb.now (view_eq_of_look h)
  freshId := alike_below _ hb.freshId

theorem journalApart {b : Backend σ} {view : σ → ν} (hb : b.JournalApart view) :
    b.watched.JournalApart (look view) where
  alike := alike hb.alike
  report e he s := by
    have hdropped : (s.effects ++ [Effect.entry e]).filter Effect.isOutward = s.effects.filter Effect.isOutward := by
      simp [Effect.isOutward, he]
    unfold look
    rw [show (b.watched.report e s).2 = ⟨(b.report e s.stores).2, s.effects ++ [Effect.entry e]⟩ from rfl, hdropped]
    rw [hb.report e he]

end Watched

end RuleFlow
