import RuleFlow.Backend.Memory
import RuleFlow.Backend.Faults
/-! # Backends over an asset repository

What a write does to the assets of a repository, and the backends that store their assets in one.  Such a backend may
refuse a write or a read, but does nothing else of its own to the assets.  Main statements: the backend in memory is
of this kind, and so is every backend of this kind that is made to fail. -/
namespace RuleFlow

namespace AssetRepository

variable {s : AssetRepository} {tenant asset : String} {a : Asset}

theorem get?_congr {r r' : AssetRepository} (h : r'.assets = r.assets) : r'.get? = r.get? := by
  funext tenant asset
  unfold get?
  rw [h]

theorem key_of_get? (h : s.get? tenant asset = some a) : key a = (tenant, asset) := by
  simpa using List.find?_some h

theorem get?_insert (s : AssetRepository) (a : Asset) (tenant asset : String) :
    (s.insert a).get? tenant asset = if key a = (tenant, asset) then some a else s.get? tenant asset := by
  unfold get? insert
  by_cases h : key a = (tenant, asset)
  · rw [if_pos h, ← h]
    exact Keyed.get?_put_self key a s.assets
  · rw [if_neg h]
    exact Keyed.get?_put_of_ne key a s.assets h

/-- A change that keeps tenant and id is made where the asset is, and nowhere else. -/
theorem get?_modify {f : Asset → Asset} (hf : key (f a) = key a) (h : s.get? tenant asset = some a)
    (tenant' asset' : String) :
    (s.modify tenant asset f).2.get? tenant' asset' =
      if (tenant, asset) = (tenant', asset') then some (f a) else s.get? tenant' asset' := by
  have hfound : (⟨s.assets, s.writes + 1⟩ : AssetRepository).get? tenant asset = some a := h
  simp only [modify, hfound]
  rw [get?_insert, hf, key_of_get? h]
  rfl

theorem modify_ok (f : Asset → Asset) (h : s.get? tenant asset = some a) : (s.modify tenant asset f).1 = .ok () := by
  have hfound : (⟨s.assets, s.writes + 1⟩ : AssetRepository).get? tenant asset = some a := h
  simp only [modify, hfound]

/-- A change of a repository is refused only where there is no such asset, and then it changes nothing. -/
theorem modify_cases (s : AssetRepository) (tenant asset : String) (f : Asset → Asset) :
    (∃ a, s.get? tenant asset = some a ∧ (s.modify tenant asset f).1 = .ok ()) ∨
    ((∃ e, (s.modify tenant asset f).1 = .error e) ∧ (s.modify tenant asset f).2.assets = s.assets) := by
  have hsame : (⟨s.assets, s.writes + 1⟩ : AssetRepository).get? tenant asset = s.get? tenant asset := rfl
  simp only [modify, hsame]
  cases s.get? tenant asset with
  | some a => exact .inl ⟨a, rfl, rfl⟩
  | none => exact .inr ⟨⟨_, rfl⟩, rfl⟩

end AssetRepository

namespace Backend

variable {σ : Type}

/-- Whether the operations of a backend that a walk uses do to the assets what a repository does, unless they fail. -/
structure StoresAssets (b : Backend σ) (repo : σ → AssetRepository) : Prop where
  find {tenant asset : String} {s s' : σ} {r : Except StorageError (Option Asset)}
    (h : b.findAsset tenant asset s = (r, s')) :
    (repo s').assets = (repo s).assets ∧ ∀ found, r = .ok found → found = (repo s).get? tenant asset
  update {tenant asset : String} {change : AssetUpdate} {s s' : σ} {r : Except StorageError Unit}
    (h : b.updateAsset tenant asset change s = (r, s')) :
    (r = ((repo s).update tenant asset change).1 ∧
      (repo s').assets = ((repo s).update tenant asset change).2.assets) ∨
    ((∃ e, r = .error e) ∧ (repo s').assets = (repo s).assets)
  replace {tenant asset : String} {values : Json.Object} {s s' : σ} {r : Except StorageError Unit}
    (h : b.replaceComputed tenant asset values s = (r, s')) :
    (r = ((repo s).replaceComputed tenant asset values).1 ∧
      (repo s').assets = ((repo s).replaceComputed tenant asset values).2.assets) ∨
    ((∃ e, r = .error e) ∧ (repo s').assets = (repo s).assets)
  raise {alarm : Alarm} {s s' : σ} {r : Except StorageError Unit} (h : b.raise alarm s = (r, s')) :
    (repo s').assets = (repo s).assets
  report (e : Journal.Entry) (s : σ) : (repo (b.report e s).2).assets = (repo s).assets

namespace StoresAssets

variable {b : Backend σ} {repo : σ → AssetRepository} {tenant asset : String} {a : Asset} {s s' : σ}

theorem get?_of_change {f : Asset → Asset} {r : Except StorageError Unit}
    (hf : AssetRepository.key (f a) = AssetRepository.key a) (ha : (repo s).get? tenant asset = some a)
    (h : (r = ((repo s).modify tenant asset f).1 ∧ (repo s').assets = ((repo s).modify tenant asset f).2.assets) ∨
      ((∃ e, r = .error e) ∧ (repo s').assets = (repo s).assets)) :
    (r = .ok () → ∀ tenant' asset', (repo s').get? tenant' asset' =
      if (tenant, asset) = (tenant', asset') then some (f a) else (repo s).get? tenant' asset') ∧
    ∀ e, r = .error e → (repo s').assets = (repo s).assets := by
  rcases h with ⟨hr, hassets⟩ | ⟨⟨e, rfl⟩, hassets⟩
  · constructor
    · intro _ tenant' asset'
      rw [AssetRepository.get?_congr hassets]
      exact AssetRepository.get?_modify hf ha tenant' asset'
    · intro e he
      rcases AssetRepository.modify_cases (repo s) tenant asset f with ⟨_, _, hok⟩ | ⟨_, hsame⟩
      · rw [hr, hok] at he
        cases he
      · exact hassets.trans hsame
  · exact ⟨fun he => (nomatch he), fun _ _ => hassets⟩

theorem get?_update (hb : b.StoresAssets repo) (ha : (repo s).get? tenant asset = some a) {change : AssetUpdate}
    {r : Except StorageError Unit} (h : b.updateAsset tenant asset change s = (r, s')) :
    (r = .ok () → ∀ tenant' asset', (repo s').get? tenant' asset' =
      if (tenant, asset) = (tenant', asset') then some (change.apply a) else (repo s).get? tenant' asset') ∧
    ∀ e, r = .error e → (repo s').assets = (repo s).assets :=
  get?_of_change rfl ha (hb.update h)

theorem get?_replaceComputed (hb : b.StoresAssets repo) (ha : (repo s).get? tenant asset = some a)
    {values : Json.Object} {r : Except StorageError Unit} (h : b.replaceComputed tenant asset values s = (r, s')) :
    (r = .ok () → ∀ tenant' asset', (repo s').get? tenant' asset' =
      if (tenant, asset) = (tenant', asset') then some { a with computed := values }
      else (repo s).get? tenant' asset') ∧
    ∀ e, r = .error e → (repo s').assets = (repo s).assets :=
  get?_of_change rfl ha (hb.replace h)

end StoresAssets

end Backend

theorem Memory.assets_reportAll (m : Memory) (entries : List Journal.Entry) :
    (m.reportAll entries).assets = m.assets := by
  unfold reportAll
  induction entries generalizing m with
  | nil => rfl
  | cons e rest ih => exact ih (m.report e)

theorem Memory.storesAssets : Memory.backend.StoresAssets Memory.assets where
  find h := by
    obtain ⟨rfl, rfl⟩ := Prod.ext_iff.1 h
    exact ⟨rfl, fun found hfound => (Except.ok.inj hfound).symm⟩
  update h := by
    obtain ⟨rfl, rfl⟩ := Prod.ext_iff.1 h
    exact .inl ⟨rfl, rfl⟩
  replace h := by
    obtain ⟨rfl, rfl⟩ := Prod.ext_iff.1 h
    exact .inl ⟨rfl, rfl⟩
  raise h := by
    obtain ⟨rfl, rfl⟩ := Prod.ext_iff.1 h
    exact congrArg AssetRepository.assets (Memory.assets_reportAll _ _)
  report _ _ := rfl

/-- A backend that is made to fail stores its assets where the backend below does. -/
theorem Faults.storesAssets {σ : Type} {b : Backend σ} {repo : σ → AssetRepository} (hb : b.StoresAssets repo)
    (faults : Faults) : (faults.backend b).StoresAssets fun s => repo s.stores where
  find h := by
    simp only [Faults.backend, Faults.read] at h
    split at h
    · obtain ⟨rfl, rfl⟩ := Prod.ext_iff.1 h
      exact ⟨rfl, fun found hfound => nomatch hfound⟩
    · obtain ⟨rfl, rfl⟩ := Prod.ext_iff.1 h
      exact hb.find rfl
  update h := by
    simp only [Faults.backend, Faults.write] at h
    split at h
    · obtain ⟨rfl, rfl⟩ := Prod.ext_iff.1 h
      exact .inr ⟨⟨_, rfl⟩, rfl⟩
    · obtain ⟨rfl, rfl⟩ := Prod.ext_iff.1 h
      exact hb.update rfl
  replace h := by
    simp only [Faults.backend, Faults.write] at h
    split at h
    · obtain ⟨rfl, rfl⟩ := Prod.ext_iff.1 h
      exact .inr ⟨⟨_, rfl⟩, rfl⟩
    · obtain ⟨rfl, rfl⟩ := Prod.ext_iff.1 h
      exact hb.replace rfl
  raise h := by
    simp only [Faults.backend, Faults.guarded] at h
    split at h
    · obtain ⟨rfl, rfl⟩ := Prod.ext_iff.1 h
      rfl
    · obtain ⟨rfl, rfl⟩ := Prod.ext_iff.1 h
      exact hb.raise rfl
  report e s := hb.report e s.stores

end RuleFlow
