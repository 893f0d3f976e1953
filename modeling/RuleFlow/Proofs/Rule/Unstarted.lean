import RuleFlow.Proofs.Rule.ValidRun
import RuleFlow.Proofs.Walk.Deadline
/-! # Runs that visit nothing

A run looks first whether its rule is meant for the asset, by type and then by name, and compiles the rule only then.
If it ends there, because the rule does not apply or cannot be walked, nothing has been visited, and the stores have
been asked for the asset and for nothing else.  Main statement: `run_unstarted`. -/
namespace RuleFlow.Rule

open Walk

/-- Whether a run has ended before its walk: the rule does not apply, does not compile, or has no trigger. -/
def Unstarted : Except RunError Outcome → Prop
  | .ok (.skipped _) => True
  | .error .missingTrigger => True
  | .error (.invalidNode _) => True
  | _ => False

variable {σ : Type} {b : Backend σ} {default : Nat} {rule : Rule} {asset tenant : String} {payload : Json} {s s' : σ}

/-- No walk ends like a run that has not come to one. -/
theorem not_unstarted_walk {g : Graph} {start : Nat} {ctx : Context} {w : World σ} :
    ¬Unstarted (outcome (rule.walk b default g start ctx w).result.1) := by
  rcases hr : (rule.walk b default g start ctx w).result with ⟨(id | e) | outputs, w'⟩
  · exact not_false
  · have hruntime := walk_visit_runtime hr
    cases e with
    | missingTrigger => cases hruntime
    | invalidNode cause => cases hruntime
    | _ => exact not_false
  · exact not_false

theorem calls_of_unstarted (h : Unstarted (rule.run b default asset tenant payload s).1) :
    rule.calls b default asset tenant payload s = [] := by
  rw [run_eq] at h
  unfold calls
  rcases hp : rule.prepared b default asset tenant payload s with ⟨e | ⟨reason | ⟨g, start, ctx⟩⟩, w⟩
  · rfl
  · rfl
  · simp only [hp, conclude_fst] at h
    exact absurd h not_unstarted_walk

/-- What it keeps to look up assets and to report is kept by a run that visits nothing. -/
theorem run_keeps_of_unstarted {I : σ → Prop} (hfind : ∀ s, I s → I (b.findAsset tenant asset s).2)
    (hreport : ∀ e s, I s → I (b.report e s).2) (h : Unstarted (rule.run b default asset tenant payload s).1)
    (hs : I s) : I (rule.run b default asset tenant payload s).2 := by
  have hprepared : (prepare b (some (rule.timeoutOr default)) rule asset tenant payload).Ends (.start s)
      (fun _ w => I w.stores) fun _ w => I w.stores := by
    refine (ends_prepare (J := fun _ w => I w.stores) (F := fun w => I w.stores) ?_ hs ?_ ?_ ?_).mono ?_ ?_
    · exact fun _ e w hw => hreport e w.stores hw
    · exact fun _ _ _ hr => kept_of_eq (hfind s hs) hr
    · exact fun _ _ _ hr => kept_of_eq (hfind s hs) hr
    · exact fun _ _ hw => hw
    · exact fun _ _ ⟨_, hw, _⟩ => hw
    · exact fun _ _ hw => hw.1
  rw [run_eq] at h ⊢
  rcases hp : rule.prepared b default asset tenant payload s with ⟨e | ⟨reason | ⟨g, start, ctx⟩⟩, w⟩
  · exact conclude_snd hreport (hprepared.of_error hp)
  · exact conclude_snd hreport (hprepared.of_ok hp)
  · simp only [hp, conclude_fst] at h
    exact absurd h not_unstarted_walk

theorem ends_prepare_found {limit : Limit} {w : World σ} {a : Asset}
    (hlimit : ∀ ms, limit = some ms → w.waited + b.readDelay w.stores ≤ ms)
    (hfind : b.findAsset tenant asset w.stores = (.ok (some a), s')) :
    (prepare b limit rule asset tenant payload).Ends w (fun p _ => p.Of rule asset payload a)
      (fun e _ => rule.skipReason? a asset = none ∧ Unwalkable rule e) := by
  unfold prepare
  rw [Action.ends_bind, Action.Ends, Action.run_readAsset_found hlimit hfind]
  dsimp only
  cases hr : rule.skipReason? a asset with
  | some reason =>
    simp only [Action.ends_bind, Action.ends_report, Action.ends_pure]
    exact hr
  | none =>
    rw [Action.ends_bind]
    refine (ends_compileRule (I := fun _ => True) (fun _ _ _ => trivial) trivial).mono ?_ ?_
    · rintro ⟨g, start⟩ w' ⟨-, hc, hs⟩
      exact ⟨hr, hc, hs, rfl⟩
    · exact fun e w' h => ⟨rfl, h.2⟩

variable {a : Asset}

/-- A run with its asset at hand is skipped, or finds fault with its rule, as the asset and the rule say, in this
order. -/
theorem run_of_found (payload : Json) (hfind : b.findAsset tenant asset s = (.ok (some a), s'))
    (htime : b.readDelay s ≤ rule.timeoutOr default) :
    (∀ reason, rule.skipReason? a asset = some reason →
      (rule.run b default asset tenant payload s).1 = .ok (.skipped reason)) ∧
    (rule.skipReason? a asset = none →
      (∀ reason, (rule.run b default asset tenant payload s).1 ≠ .ok (.skipped reason)) ∧
      ∀ e, Unwalkable rule e → (rule.run b default asset tenant payload s).1 = .error e) := by
  have hprepared : (prepare b (some (rule.timeoutOr default)) rule asset tenant payload).Ends (.start s)
      (fun p _ => p.Of rule asset payload a) (fun e _ => rule.skipReason? a asset = none ∧ Unwalkable rule e) := by
    refine ends_prepare_found ?_ hfind
    rintro ms ⟨⟩
    simpa [World.start] using htime
  rw [run_eq]
  rcases hp : rule.prepared b default asset tenant payload s with ⟨e | ⟨reason | ⟨g, start, ctx⟩⟩, w⟩ <;>
    simp only [conclude_fst]
  · obtain ⟨hnone, he⟩ := hprepared.of_error hp
    rw [hnone]
    exact ⟨nofun, fun _ => ⟨nofun, fun e' he' => congrArg _ (Unwalkable.unique he he')⟩⟩
  · have hskip : rule.skipReason? a asset = some reason := hprepared.of_ok hp
    rw [hskip]
    refine ⟨?_, nofun⟩
    rintro _ ⟨⟩
    rfl
  · obtain ⟨hnone, ⟨dropped, hc⟩, hs, -⟩ := hprepared.of_ok hp
    rw [hnone]
    refine ⟨nofun, fun _ => ⟨fun reason => ?_, fun e he => absurd he (not_unwalkable hc hs)⟩⟩
    rcases (rule.walk b default g start ctx w).result.1 with f | outputs <;> nofun

/-- A run that ends because its rule does not apply, does not compile or has no trigger has visited nothing; what
looking for the asset and reporting keep is as it was, and so in memory are the assets, the count of writes and the
alarms.  The type of the asset is looked at before the asset itself, and both before the rule is compiled. -/
theorem run_unstarted (b : Backend σ) (default : Nat) (rule : Rule) (asset tenant : String) (payload : Json) :
    (∀ s, Unstarted (rule.run b default asset tenant payload s).1 →
      rule.calls b default asset tenant payload s = [] ∧
      ∀ I : σ → Prop, (∀ s, I s → I (b.findAsset tenant asset s).2) → (∀ e s, I s → I (b.report e s).2) →
        I s → I (rule.run b default asset tenant payload s).2) ∧
    (∀ m : Memory, Unstarted (rule.run Memory.backend default asset tenant payload m).1 →
      (rule.run Memory.backend default asset tenant payload m).2.assets = m.assets ∧
      (rule.run Memory.backend default asset tenant payload m).2.alarms = m.alarms) ∧
    ∀ s s' a, b.findAsset tenant asset s = (.ok (some a), s') → b.readDelay s ≤ rule.timeoutOr default →
      let result := (rule.run b default asset tenant payload s).1
      (rule.appliesToAssetType a.typeId = false → result = .ok (.skipped .assetType)) ∧
      (rule.appliesToAssetType a.typeId = true → rule.appliesToAsset asset = false →
        result = .ok (.skipped .assetScope)) ∧
      (rule.appliesToAssetType a.typeId = true → rule.appliesToAsset asset = true →
        (∀ reason, result ≠ .ok (.skipped reason)) ∧
        (∀ cause, Graph.compile rule = .error cause → result = .error (.invalidNode cause)) ∧
        ∀ g dropped, Graph.compile rule = .ok (g, dropped) → g.trigger = none → result = .error .missingTrigger) := by
  refine ⟨fun s h => ⟨calls_of_unstarted h, fun I hfind hreport => run_keeps_of_unstarted hfind hreport h⟩,
    fun m h => ?_, fun s s' a hfind htime => ?_⟩
  · exact run_keeps_of_unstarted (I := fun t : Memory => t.assets = m.assets ∧ t.alarms = m.alarms) (fun _ ht => ht)
      (fun _ _ ht => ht) h ⟨rfl, rfl⟩
  · obtain ⟨hskipped, hcompiled⟩ := run_of_found payload hfind htime
    refine ⟨fun htype => hskipped _ ?_, fun htype hscope => hskipped _ ?_, fun htype hscope => ?_⟩
    · simp [skipReason?, htype]
    · simp [skipReason?, htype, hscope]
    · obtain ⟨hnever, herror⟩ := hcompiled (by simp [skipReason?, htype, hscope])
      exact ⟨hnever, fun cause hc => herror _ (.inl ⟨cause, hc, rfl⟩),
        fun g dropped hc hnone => herror _ (.inr ⟨g, dropped, hc, hnone, rfl⟩)⟩

def cracked : Rule := { diamond with nodes := diamond.nodes ++ [⟨"end", "teleport", .origin, [], [], []⟩] }

def misfit : Rule := { cracked with appliesToAssetTypes := ["pump"] }

/-- For assets of its type the rule is an error that leaves all as it was, and for others it is skipped. -/
theorem run_cracked :
    let cause : CompileError := .unknownNodeType "teleport" "end"
    Graph.compile cracked = .error cause ∧ Graph.compile misfit = .error cause ∧
    (cracked.run Memory.backend 30000 "a" "t" .null oneWell).1 = .error (.invalidNode cause) ∧
    cracked.calls Memory.backend 30000 "a" "t" .null oneWell = [] ∧
    (cracked.run Memory.backend 30000 "a" "t" .null oneWell).2.assets = oneWell.assets ∧
    (cracked.run Memory.backend 30000 "a" "t" .null oneWell).2.alarms = oneWell.alarms ∧
    (misfit.run Memory.backend 30000 "a" "t" .null oneWell).1 = .ok (.skipped .assetType) := by
  intro cause
  obtain ⟨hcalls, hkept, hchecks⟩ := run_unstarted Memory.backend 30000 cracked "a" "t" .null
  obtain ⟨-, -, hmisfit⟩ := run_unstarted Memory.backend 30000 misfit "a" "t" .null
  have hcause : Graph.compile cracked = .error cause := rfl
  have herror := ((hchecks oneWell oneWell _ rfl (Nat.zero_le _)).2.2 rfl rfl).2.1 cause hcause
  have hunstarted : Unstarted (cracked.run Memory.backend 30000 "a" "t" .null oneWell).1 := by
    rw [herror]
    trivial
  obtain ⟨hassets, halarms⟩ := hkept oneWell hunstarted
  exact ⟨hcause, rfl, herror, (hcalls oneWell hunstarted).1, hassets, halarms,
    (hmisfit oneWell oneWell _ rfl (Nat.zero_le _)).1 rfl⟩

end RuleFlow.Rule
