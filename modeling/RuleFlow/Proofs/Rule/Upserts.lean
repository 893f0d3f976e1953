import RuleFlow.Proofs.Engine.Isolation
import RuleFlow.Proofs.Storage.Keyed
/-! # The rule store as a map

A rule store has no index, but after any rules have been put into it, it holds one rule for each id and tenant.  So a
rule that is looked up by its id is the one that an event by hand finds among the active rules of the tenant.  Main
statements: `ofUpserts_holds`, `Engine.dispatch_named` and `upserts_name_rules`. -/
namespace RuleFlow

namespace RuleStore

def ofUpserts (history : List Rule) : RuleStore := history.foldl upsert {}

/-- What a store holds after some rules have been put into it: for each id and tenant the last one, in the order in
which these first came, whatever the status of the rules has been in between. -/
structure Holds (s : RuleStore) (history : List Rule) : Prop where
  distinct : (s.rules.map key).Nodup
  ordered : s.rules = (history.map key).eraseDups.filterMap (Keyed.last? key history)
  latest (k : String × String) : (s.rules.filter fun r => key r = k) = (Keyed.last? key history k).toList
  others (r : Rule) : ((s.upsert r).rules.filter fun x => key x ≠ key r) = s.rules.filter fun x => key x ≠ key r
  active (tenant : String) : s.activeOf tenant = (history.map key).eraseDups.filterMap fun k =>
    (Keyed.last? key history k).filter fun r => r.tenantId = tenant ∧ r.status = .active
  found (id tenant : String) : ((s.activeOf tenant).filter fun r => r.id = id) = (s.findActive id tenant).toList

variable {s : RuleStore} {history : List Rule}

theorem rules_ofUpserts (history : List Rule) : (ofUpserts history).rules = Keyed.putAll key history := by
  have hfold (s : RuleStore) (rs : List Rule) :
      (rs.foldl upsert s).rules = rs.foldl (fun xs r => Keyed.put key r xs) s.rules := by
    induction rs generalizing s with
    | nil => rfl
    | cons r rs ih => exact ih (s.upsert r)
  exact hfold {} history

/-- Where no two rules share id and tenant, one of them at most is active and has a given id and tenant. -/
theorem filter_findActive (hs : (s.rules.map key).Nodup) (id tenant : String) :
    (s.rules.filter fun r => r.id = id && r.tenantId = tenant && r.isActive) = (s.findActive id tenant).toList := by
  have hsub : ((s.rules.filter fun r => key r = (id, tenant)).filter Rule.isActive) =
      s.rules.filter fun r => r.id = id && r.tenantId = tenant && r.isActive := by
    rw [List.filter_filter]
    refine List.filter_congr fun r _ => ?_
    simp [key, Bool.and_comm]
  have honly := Keyed.filter_eq_get? hs (id, tenant)
  rw [findActive, ← List.head?_filter, ← hsub, honly]
  cases Keyed.get? key s.rules (id, tenant) with
  | none => rfl
  | some r => cases hr : r.isActive <;> simp [hr]

theorem filter_activeOf (hs : (s.rules.map key).Nodup) (id tenant : String) :
    ((s.activeOf tenant).filter fun r => r.id = id) = (s.findActive id tenant).toList := by
  rw [← filter_findActive hs, activeOf, List.filter_filter]
  refine List.filter_congr fun r _ => ?_
  rw [Bool.and_assoc]

theorem ofUpserts_holds (history : List Rule) : (ofUpserts history).Holds history := by
  have hrules := rules_ofUpserts history
  have hdistinct : ((ofUpserts history).rules.map key).Nodup := hrules ▸ Keyed.nodup_putAll key history
  have hordered := hrules.trans (Keyed.putAll_eq history)
  refine ⟨hdistinct, hordered, fun k => ?_, fun r => Keyed.filter_put_ne _, fun tenant => ?_,
    filter_activeOf hdistinct⟩
  · rw [Keyed.filter_eq_get? hdistinct, hrules, Keyed.get?_putAll]
  · rw [activeOf, hordered, List.filter_filterMap]
    simp [Rule.isActive]

end RuleStore

variable {σ : Type}

structure Backend.ReadsRules (b : Backend σ) (store : σ → RuleStore) : Prop where
  find (id tenant : String) (s : σ) : b.findRule id tenant s = (.ok ((store s).findActive id tenant), s)
  active (tenant : String) (s : σ) : b.activeRules tenant s = (.ok ((store s).activeOf tenant), s)

theorem Memory.readsRules : Memory.backend.ReadsRules Memory.rules := ⟨fun _ _ _ => rfl, fun _ _ => rfl⟩

namespace Engine

/-- The state in which the rules are run that an event concerns: the event has been reported and measured. -/
def announce (e : Engine σ) (event : Event) (candidates : Nat) (s : σ) : σ :=
  (e.backend.publish (.gauge "rule.dispatch.candidates" candidates)
    (e.backend.report (dispatchEntry event candidates) s).2).2

variable {e : Engine σ} {store : σ → RuleStore} {s : σ} {id tenant : String}

/-- A run by name is the run of the rule that is found, or fails before anything is run. -/
theorem runRule_named (hb : e.backend.ReadsRules store) (asset : String) (kind : TriggerKind) (payload : Json) :
    e.runRule id asset tenant kind payload s =
      match (store s).findActive id tenant with
      | some rule => e.execute rule asset tenant kind payload s
      | none => record e.backend ⟨id, tenant, asset, kind, payload⟩ (pure (.error (.ruleNotFound id))) s := by
  have hnamed : e.runNamed id asset tenant payload s = (match (store s).findActive id tenant with
      | some rule => e.runLoaded rule asset tenant payload
      | none => pure (.error (.ruleNotFound id))) s := by
    simp only [runNamed, bind, StateT.bind, hb.find]
    cases (store s).findActive id tenant <;> rfl
  cases hfound : (store s).findActive id tenant with
  | none =>
    rw [hfound] at hnamed
    exact record_congr hnamed
  | some rule =>
    rw [hfound] at hnamed
    have hactive := List.find?_some hfound
    simp only [Bool.and_eq_true, decide_eq_true_iff] at hactive
    obtain ⟨⟨rfl, -⟩, -⟩ := hactive
    exact record_congr hnamed

/-- What an event by hand for a rule leaves of the active rules is the rule that is found by its id, if the event is
for assets of its type and fires one of its triggers. -/
theorem select_named {store : RuleStore} (hs : (store.rules.map RuleStore.key).Nodup) {event : Event}
    (hid : event.rule? = some id) :
    select event (store.activeOf event.asset.tenantId) =
      ((store.findActive id event.asset.tenantId).filter fun r => r.RunsOn event).toList := by
  have hruns : (store.rules.filter fun r => r.RunsOn event) =
      ((store.findActive id event.asset.tenantId).filter fun r => r.RunsOn event).toList := by
    rw [Option.toList_filter, ← RuleStore.filter_findActive hs, List.filter_filter]
    refine List.filter_congr fun r _ => ?_
    rw [Bool.eq_iff_iff, Bool.and_eq_true, decide_eq_true_iff]
    refine ⟨fun h => ⟨h, ?_⟩, And.left⟩
    simp [h.named id hid, h.tenant, Rule.isActive, h.active]
  have hperm := (candidates_of_store store event).perm
  rw [hruns] at hperm
  cases hfound : (store.findActive id event.asset.tenantId).filter fun r => r.RunsOn event with
  | none => simpa [hfound] using hperm
  | some rule => simpa [hfound] using hperm

/-- An event by hand for a rule brings about one run at most, that of the rule that is found by its id. -/
theorem dispatch_named (hb : e.backend.ReadsRules store) (hs : ((store s).rules.map RuleStore.key).Nodup)
    {event : Event} (hid : event.rule? = some id) :
    e.dispatch event s =
      match ((store s).findActive id event.asset.tenantId).filter fun r => r.RunsOn event with
      | some rule =>
        let announced := e.announce event 1 s
        let run := e.execute rule event.asset.assetId event.asset.tenantId event.kind
          (event.payload (e.backend.now announced)) announced
        (.ok [(id, run.1)], run.2)
      | none => (.ok [], e.announce event 0 s) := by
  have hdispatch := dispatch_of_ok (hb.active event.asset.tenantId s)
  rw [select_named hs hid] at hdispatch
  rw [hdispatch]
  cases hfound : ((store s).findActive id event.asset.tenantId).filter fun r => r.RunsOn event with
  | none => rfl
  | some rule =>
    obtain ⟨hmem, hruns⟩ := Option.filter_eq_some_iff.1 hfound
    obtain rfl : id = rule.id := (of_decide_eq_true hruns).named id hid
    rfl

/-- After any rules have been put into an empty store, it holds the last one for each id and tenant, and leaves others
alone when one more is put there.  A run by name and an event by hand that names a rule are then about the same rule:
both run what is found by the id, or nothing. -/
theorem upserts_name_rules (hb : e.backend.ReadsRules store) {history : List Rule}
    (hs : store s = RuleStore.ofUpserts history) :
    (store s).Holds history ∧
    ∀ id tenant,
      (∀ asset kind payload, e.runRule id asset tenant kind payload s =
        match (store s).findActive id tenant with
        | some rule => e.execute rule asset tenant kind payload s
        | none => record e.backend ⟨id, tenant, asset, kind, payload⟩ (pure (.error (.ruleNotFound id))) s) ∧
      ∀ event, event.asset.tenantId = tenant → event.rule? = some id →
        e.dispatch event s =
          match ((store s).findActive id tenant).filter fun r => r.RunsOn event with
          | some rule =>
            let announced := e.announce event 1 s
            let run := e.execute rule event.asset.assetId tenant event.kind
              (event.payload (e.backend.now announced)) announced
            (.ok [(id, run.1)], run.2)
          | none => (.ok [], e.announce event 0 s) := by
  have hholds : (store s).Holds history := hs ▸ RuleStore.ofUpserts_holds history
  refine ⟨hholds, fun id tenant => ⟨fun asset kind payload => runRule_named hb asset kind payload, ?_⟩⟩
  rintro event rfl hid
  exact dispatch_named hb hholds.distinct hid

/-- A rule that is put into a store, switched off, and put there again with another priority; with two others, of which
one has its id for another tenant. -/
def switched : List Rule :=
  [manual "first" "t" 1, manual "second" "t" 1, { manual "first" "t" 1 with status := .inactive },
    manual "first" "u" 1, manual "first" "t" 9]

def switchedStores : Memory where
  rules := RuleStore.ofUpserts switched

def firstByHand : Event := ⟨⟨"t", "a", "well"⟩, .manual (some "first") none⟩

theorem upserts_name_switched :
    Memory.backend.ReadsRules Memory.rules ∧ switchedStores.rules = RuleStore.ofUpserts switched ∧
    switchedStores.rules.rules = [manual "first" "t" 9, manual "second" "t" 1, manual "first" "u" 1] ∧
    switchedStores.rules.Holds switched ∧
    (Engine.mk Memory.backend {}).runRule "first" "a" "t" .manual .null switchedStores =
      (Engine.mk Memory.backend {}).execute (manual "first" "t" 9) "a" "t" .manual .null switchedStores ∧
    ∃ payload m, (Engine.mk Memory.backend {}).dispatch firstByHand switchedStores =
      (.ok [("first", ((Engine.mk Memory.backend {}).execute (manual "first" "t" 9) "a" "t" .manual payload m).1)],
        ((Engine.mk Memory.backend {}).execute (manual "first" "t" 9) "a" "t" .manual payload m).2) := by
  have hs : switchedStores.rules = RuleStore.ofUpserts switched := rfl
  obtain ⟨hholds, hnamed⟩ := upserts_name_rules (e := Engine.mk Memory.backend {}) Memory.readsRules hs
  obtain ⟨hrun, hdispatch⟩ := hnamed "first" "t"
  have hfound : switchedStores.rules.findActive "first" "t" = some (manual "first" "t" 9) := rfl
  have hruns : (some (manual "first" "t" 9)).filter (fun r => decide (r.RunsOn firstByHand)) =
      some (manual "first" "t" 9) := rfl
  have hrun := hrun "a" .manual .null
  have hdispatch := hdispatch firstByHand rfl rfl
  rw [hfound] at hrun hdispatch
  rw [hruns] at hdispatch
  exact ⟨Memory.readsRules, hs, rfl, hholds, hrun, _, _, hdispatch⟩

end Engine
end RuleFlow
