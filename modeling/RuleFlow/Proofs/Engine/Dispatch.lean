import RuleFlow.Proofs.Engine.Candidates
import RuleFlow.Proofs.Engine.FanOut
import RuleFlow.Proofs.Engine.Records
/-! # What the dispatch of an event comes to

Which rules are run because of an event, in which order, and what is recorded of them: `Engine.dispatch_candidates`. -/
namespace RuleFlow

variable {σ : Type}

/-- Whether a backend gives out the active rules of a rule store, unless it fails; and it changes nothing by that. -/
structure Backend.ServesRules (b : Backend σ) (store : σ → RuleStore) : Prop where
  active (tenant : String) (s : σ) : b.activeRules tenant s = (.ok ((store s).activeOf tenant), s) ∨
    ∃ cause, b.activeRules tenant s = (.error cause, s)

theorem Memory.servesRules : Memory.backend.ServesRules Memory.rules := ⟨fun _ _ => .inl rfl⟩

theorem Faults.servesRules {b : Backend σ} {store : σ → RuleStore} (hb : b.ServesRules store) (faults : Faults) :
    (faults.backend b).ServesRules fun s => store s.stores where
  active tenant s := by
    simp only [backend, guarded]
    split
    · exact .inr ⟨_, rfl⟩
    · rcases hb.active tenant s.stores with h | ⟨cause, h⟩
      · exact .inl (by simp [below, h])
      · exact .inr ⟨cause, by simp [below, h]⟩

theorem Recorded.servesRules {b : Backend σ} {store : σ → RuleStore} (hb : b.ServesRules store) :
    b.recorded.ServesRules fun s => store s.stores where
  active tenant s := by
    rcases hb.active tenant s.stores with h | ⟨cause, h⟩
    · exact .inl (by simp [Backend.recorded, below, h])
    · exact .inr ⟨cause, by simp [Backend.recorded, below, h]⟩

namespace Engine

variable {e : Engine σ} {store : σ → RuleStore} {log : σ → Option (List ExecutionRecord)} {rs : List ExecutionRecord}
  {s t : σ} {event : Event}

/-- Runs that are made one after the other are each recorded once. -/
theorem mapM_runCandidate_logs (hlog : e.backend.Logs log) (payload : Json) (rules : List Rule)
    (h : log s = some rs) :
    ((rules.mapM (e.runCandidate event payload) s).1.map (·.1) = rules.map (·.id)) ∧
      ∃ records : List ExecutionRecord,
        (records.map (·.subject) = rules.map fun r => (r.id, event.asset.tenantId, event.asset.assetId)) ∧
          log (rules.mapM (e.runCandidate event payload) s).2 = some (rs ++ records) := by
  induction rules generalizing s rs with
  | nil => exact ⟨rfl, [], rfl, by simpa [FanOut.mapM_nil_eq] using h⟩
  | cons rule rules ih =>
    obtain ⟨r, hsubject, hlogged⟩ :=
      execute_logs hlog rule event.asset.assetId event.asset.tenantId event.kind payload h
    obtain ⟨hids, records, hsubjects, hrest⟩ := ih hlogged
    rw [FanOut.mapM_cons_eq]
    refine ⟨congrArg (rule.id :: ·) hids, r :: records, ?_, ?_⟩
    · rw [List.map_cons, List.map_cons, hsubject, hsubjects]
    · rw [List.append_assoc] at hrest
      exact hrest

theorem dispatch_of_error {cause : StorageError}
    (h : e.backend.activeRules event.asset.tenantId s = (.error cause, t)) :
    e.dispatch event s = (.error (.storage cause), t) := by
  simp only [dispatch, applicable, bind, StateT.bind, h]
  rfl

theorem dispatch_of_ok {active : List Rule} (h : e.backend.activeRules event.asset.tenantId s = (.ok active, t)) :
    let candidates := select event active
    let reported := (e.backend.report (dispatchEntry event candidates.length) t).2
    let measured := (e.backend.publish (.gauge "rule.dispatch.candidates" candidates.length) reported).2
    let payload := event.payload (e.backend.now measured)
    e.dispatch event s = (.ok (candidates.mapM (e.runCandidate event payload) measured).1,
      (candidates.mapM (e.runCandidate event payload) measured).2) := by
  simp only [dispatch, applicable, FanOut.runAll_eq_mapM, bind, StateT.bind, h]
  rfl

/-- What the dispatch of an event comes to, whatever the stored rules are.  If the rules cannot be read, that is the
error, and nothing else has happened.  Else there is a result for each of the candidates, in their order, and each of
them has been recorded once.  For a rule that compiles it does not matter that its triggers are compiled alone. -/
theorem dispatch_candidates (hrules : e.backend.ServesRules store) (hlog : e.backend.Logs log) (event : Event)
    (hs : log s = some rs) :
    (∀ cause, (e.backend.activeRules event.asset.tenantId s).1 = .error cause →
      e.dispatch event s = (.error (.storage cause), s)) ∧
    (∀ found, (e.backend.activeRules event.asset.tenantId s).1 = .ok found →
      ∃ results s' candidates records, e.dispatch event s = (.ok results, s') ∧
        Candidates event (store s).rules candidates ∧ results.map (·.1) = candidates.map (·.id) ∧
        log s' = some (rs ++ records) ∧
        (records.map (·.subject)).Perm
          (results.map fun result => (result.1, event.asset.tenantId, event.asset.assetId))) ∧
    ∀ r g dropped, Graph.compile r = .ok (g, dropped) →
      (r.FiredBy event ↔ ∃ t ∈ g.triggers, t.fires event.kind event.key = true) := by
  refine ⟨fun cause h => ?_, fun found h => ?_, fun r g dropped h => firedBy_iff_triggers h⟩
  · rcases hrules.active event.asset.tenantId s with hok | ⟨cause', herror⟩
    · rw [hok] at h
      cases h
    · rw [herror] at h
      cases h
      exact dispatch_of_error herror
  · rcases hrules.active event.asset.tenantId s with hok | ⟨cause', herror⟩
    · have hkeeps := hlog.keeps rs
      have hreported := hkeeps.report (dispatchEntry event (select event found).length) hs
      obtain rfl : (store s).activeOf event.asset.tenantId = found := by
        rw [hok] at h
        exact Except.ok.inj h
      have hmeasured := hkeeps.publish (.gauge "rule.dispatch.candidates"
        (select event ((store s).activeOf event.asset.tenantId)).length) hreported
      obtain ⟨hids, records, hsubjects, hlogged⟩ := mapM_runCandidate_logs hlog _ (select event _) hmeasured
      refine ⟨_, _, _, records, dispatch_of_ok hok, candidates_of_store (store s) event, hids, hlogged, ?_⟩
      have hresults := congrArg (List.map fun id => (id, event.asset.tenantId, event.asset.assetId)) hids
      rw [List.map_map, List.map_map] at hresults
      rw [hsubjects]
      exact .of_eq hresults.symm
    · rw [herror] at h
      cases h

def manual (id tenant : String) (priority : UInt32) : Rule where
  id
  tenantId := tenant
  name := id
  description := none
  status := .active
  priority
  appliesToAssetTypes := ["well"]
  appliesToAssets := none
  nodes := [⟨"start", "manual", .origin, [], [], []⟩]
  connections := []
  settings := ⟨none, false⟩
  createdAt := none

def fourRules : Memory where
  rules := ⟨[manual "first" "t" 1, manual "urgent" "t" 7, manual "foreign" "u" 9, manual "second" "t" 1]⟩

def byHand : Event := ⟨⟨"t", "a", "well"⟩, .manual none none⟩

theorem candidates_fourRules :
    Candidates byHand fourRules.rules.rules [manual "urgent" "t" 7, manual "first" "t" 1, manual "second" "t" 1] := by
  have hruns : (fourRules.rules.rules.filter fun r => r.RunsOn byHand) =
      [manual "first" "t" 1, manual "urgent" "t" 7, manual "second" "t" 1] := by
    rfl
  constructor
  · rw [hruns]
    exact .swap _ _ _
  · decide
  · intro p
    have hand : (fourRules.rules.rules.filter fun r => r.RunsOn byHand ∧ r.priority = p) =
        (fourRules.rules.rules.filter fun r => r.RunsOn byHand).filter fun r => r.priority = p := by
      simp [List.filter_filter, and_comm]
    rw [hand, hruns]
    by_cases h : p = 7
    · subst h
      rfl
    · have hurgent : (manual "urgent" "t" 7).priority ≠ p := Ne.symm h
      simp [List.filter_cons, hurgent]

def logDown : Backend (Recorded (Counted Memory)) := (Faults.backend { logDown := true } Memory.backend).recorded

/-- The rules of the tenant are run, the urgent one first, and each is recorded once: in the log in memory, and also
where the log does not keep the records that it is handed. -/
theorem dispatch_fourRules :
    (∃ results s' records, (Engine.mk Memory.backend {}).dispatch byHand fourRules = (.ok results, s') ∧
      results.map (·.1) = ["urgent", "first", "second"] ∧ s'.log.memory? = some records ∧
      (records.map (·.subject)).Perm [("urgent", "t", "a"), ("first", "t", "a"), ("second", "t", "a")]) ∧
    ∃ results s' records, (Engine.mk logDown {}).dispatch byHand ⟨⟨fourRules, 0, 0⟩, []⟩ = (.ok results, s') ∧
      results.map (·.1) = ["urgent", "first", "second"] ∧ some s'.records = some records ∧
      (records.map (·.subject)).Perm [("urgent", "t", "a"), ("first", "t", "a"), ("second", "t", "a")] := by
  have hrun {σ : Type} {b : Backend σ} {store : σ → RuleStore} {log : σ → Option (List ExecutionRecord)} {s : σ}
      (hrules : b.ServesRules store) (hlog : b.Logs log) (hempty : log s = some []) (hstore : store s = fourRules.rules)
      (hup : (b.activeRules "t" s).1 = .ok ((store s).activeOf "t")) :
      ∃ results s' records, (Engine.mk b {}).dispatch byHand s = (.ok results, s') ∧
        results.map (·.1) = ["urgent", "first", "second"] ∧ log s' = some records ∧
        (records.map (·.subject)).Perm [("urgent", "t", "a"), ("first", "t", "a"), ("second", "t", "a")] := by
    obtain ⟨-, hok, -⟩ := dispatch_candidates (e := ⟨b, {}⟩) hrules hlog byHand hempty
    obtain ⟨results, s', candidates, records, hdispatch, hcandidates, hids, hlogged, hrecords⟩ := hok _ hup
    rw [hstore] at hcandidates
    obtain rfl := hcandidates.unique candidates_fourRules
    have hsubjects := congrArg (List.map fun id => (id, "t", "a")) hids
    rw [List.map_map] at hsubjects
    exact ⟨results, s', records, hdispatch, hids, hlogged, hrecords.trans (.of_eq hsubjects)⟩
  have hfaulty : (Faults.backend { logDown := true } Memory.backend).ServesRules fun s => s.stores.rules :=
    Faults.servesRules Memory.servesRules _
  exact ⟨hrun Memory.servesRules Memory.logs rfl rfl rfl,
    hrun (Recorded.servesRules hfaulty) (Backend.logs_recorded _) rfl rfl rfl⟩

end Engine

end RuleFlow
