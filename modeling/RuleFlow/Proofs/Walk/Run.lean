import RuleFlow.Proofs.Walk.Actions
import RuleFlow.Proofs.Walk.Preorder
/-! # What a run is made of

A run prepares a walk, walks, and ends.  Main statements: `ends_prepare`, which says what a prepared walk is, and
`run_eq`, by which the end of a run is the end of its walk. -/
namespace RuleFlow

namespace Walk

variable {σ : Type} {w : World σ} {b : Backend σ} {rule : Rule}

theorem ends_reportDropped {I : World σ → Prop} {failed : RunError → World σ → Prop}
    (hreport : ∀ e w, I w → I { w with stores := (b.report e w.stores).2 }) (dropped : List DroppedConnection)
    (hI : I w) : (dropped.forM (reportDropped b rule.id)).Ends w (fun _ w' => I w') failed := by
  induction dropped generalizing w with
  | nil => exact hI
  | cons d rest ih =>
    simp only [List.forM, Action.ends_bind, reportDropped, Action.ends_report]
    exact ih (hreport _ w hI)

/-- A compiled rule is walked from its first trigger; what keeps it from being walked is an error of the rule. -/
theorem ends_compileRule {I : World σ → Prop}
    (hreport : ∀ e w, I w → I { w with stores := (b.report e w.stores).2 }) (hI : I w) :
    (compileRule b rule).Ends w
      (fun found w' => I w' ∧ (∃ dropped, Graph.compile rule = .ok (found.1, dropped)) ∧
        found.1.trigger = some found.2)
      (fun e w' => I w' ∧ ((∃ cause, Graph.compile rule = .error cause ∧ e = .invalidNode cause) ∨
        ∃ g dropped, Graph.compile rule = .ok (g, dropped) ∧ g.trigger = none ∧ e = .missingTrigger)) := by
  unfold compileRule
  cases hc : Graph.compile rule with
  | error cause => exact ⟨hI, .inl ⟨cause, rfl, rfl⟩⟩
  | ok found =>
    obtain ⟨g, dropped⟩ := found
    simp only [Action.ends_bind]
    refine (ends_reportDropped hreport dropped hI).mono ?_ fun _ _ h => h
    intro _ w' hI'
    cases hs : g.trigger with
    | none => exact ⟨hI', .inr ⟨g, dropped, rfl, hs, rfl⟩⟩
    | some start => exact ⟨hI', ⟨dropped, rfl⟩, hs⟩

def Prepared.Of (rule : Rule) (asset : String) (payload : Json) (a : Asset) : Prepared → Prop
  | .skipped reason => rule.skipReason? a asset = some reason
  | .ready g start ctx =>
    rule.skipReason? a asset = none ∧ (∃ dropped, Graph.compile rule = .ok (g, dropped)) ∧
      g.trigger = some start ∧ ctx = .of rule.id a payload

/-- Whether an error keeps a rule from being walked at all. -/
def Unwalkable (rule : Rule) (e : RunError) : Prop :=
  (∃ cause, Graph.compile rule = .error cause ∧ e = .invalidNode cause) ∨
    ∃ g dropped, Graph.compile rule = .ok (g, dropped) ∧ g.trigger = none ∧ e = .missingTrigger

/-- One error at most keeps a rule from being walked. -/
theorem Unwalkable.unique {e e' : RunError} (h : Unwalkable rule e) (h' : Unwalkable rule e') : e = e' := by
  rcases h with ⟨cause, hc, rfl⟩ | ⟨g, dropped, hc, -, rfl⟩
  · rcases h' with ⟨cause', hc', rfl⟩ | ⟨g, dropped, hc', -⟩
    · rw [hc] at hc'
      cases hc'
      rfl
    · rw [hc] at hc'
      cases hc'
  · rcases h' with ⟨cause, hc', -⟩ | ⟨_, _, -, -, rfl⟩
    · rw [hc] at hc'
      cases hc'
    · rfl

theorem not_unwalkable {e : RunError} {g : Graph} {start : Nat} {dropped : List DroppedConnection}
    (hc : Graph.compile rule = .ok (g, dropped)) (hs : g.trigger = some start) : ¬Unwalkable rule e := by
  rintro (⟨cause, hc', -⟩ | ⟨g', dropped', hc', hnone, -⟩)
  · rw [hc] at hc'
    cases hc'
  · rw [hc] at hc'
    cases hc'
    rw [hs] at hnone
    cases hnone

/-- A run is prepared from the asset that the store gives out.  `J` is what holds from then on, and `F` what holds if
the walk does not begin. -/
theorem ends_prepare {limit : Limit} {asset tenant : String} {payload : Json} {J : Asset → World σ → Prop}
    {F : World σ → Prop} (hreport : ∀ a e w, J a w → J a { w with stores := (b.report e w.stores).2 })
    (hlate : F w) (hfound : ∀ a s waited, b.findAsset tenant asset w.stores = (.ok (some a), s) →
      J a { w with stores := s, waited := waited })
    (hlost : ∀ r s waited, b.findAsset tenant asset w.stores = (r, s) → F { w with stores := s, waited := waited })
    (hkept : ∀ a w, J a w → F w) :
    (prepare b limit rule asset tenant payload).Ends w
      (fun p w' => ∃ a, J a w' ∧ p.Of rule asset payload a)
      (fun e w' => F w' ∧ (e.isConfigurationError = true → Unwalkable rule e)) := by
  unfold prepare
  rw [Action.ends_bind]
  refine Action.ends_readAsset ?_ ?_ ?_ ?_
  · exact fun ms _ _ => ⟨hlate, by simp [RunError.isConfigurationError]⟩
  · intro a s waited hfind
    have hJ := hfound a s waited hfind
    cases hr : rule.skipReason? a asset with
    | some reason =>
      simp only [Action.ends_bind, Action.ends_report, Action.ends_pure]
      exact ⟨a, hreport a _ _ hJ, hr⟩
    | none =>
      simp only [Action.ends_bind]
      refine (ends_compileRule (hreport a) hJ).mono ?_ ?_
      · rintro ⟨g, start⟩ w' ⟨hJ', hc, hs⟩
        exact ⟨a, hJ', hr, hc, hs, rfl⟩
      · exact fun e w' h => ⟨hkept a w' h.1, fun _ => h.2⟩
  · exact fun s waited hfind => ⟨hlost _ s waited hfind, by simp [RunError.isConfigurationError]⟩
  · exact fun e s waited hfind => ⟨hlost _ s waited hfind, by simp [RunError.isConfigurationError]⟩

/-- A prepared walk is one of the compiled rule, from its first trigger; and what keeps it from being prepared is no
fault of the rule, unless the rule cannot be walked at all. -/
theorem ends_prepare_of_rule {limit : Limit} {asset tenant : String} {payload : Json} :
    (prepare b limit rule asset tenant payload).Ends w (fun p _ => ∃ a, p.Of rule asset payload a)
      (fun e _ => e.isConfigurationError = true → Unwalkable rule e) := by
  refine (ends_prepare (J := fun _ _ => True) (F := fun _ => True) ?_ trivial ?_ ?_ ?_).mono ?_ ?_
  · exact fun _ _ _ _ => trivial
  · exact fun _ _ _ _ => trivial
  · exact fun _ _ _ _ => trivial
  · exact fun _ _ _ => trivial
  · exact fun _ _ ⟨a, _, h⟩ => ⟨a, h⟩
  · exact fun _ _ h => h.2

@[simp] theorem conclude_fst (b : Backend σ) (rule asset : String) (result : Except RunError Outcome) (w : World σ) :
    (conclude b rule asset result w).1 = result := by
  unfold conclude
  split <;> rfl

theorem conclude_snd {I : σ → Prop} (hreport : ∀ e s, I s → I (b.report e s).2) {id asset : String}
    {result : Except RunError Outcome} (hI : I w.stores) : I (conclude b id asset result w).2 := by
  unfold conclude
  split
  · exact hreport _ _ hI
  · exact hI

def outcome : Except (Failure RunError) Outputs → Except RunError Outcome
  | .ok o => .ok (.completed o)
  | .error f => .error f.error

theorem run_runWithin (b : Backend σ) (limit : Limit) (rule : Rule) (asset tenant : String) (payload : Json)
    (w : World σ) :
    (runWithin b limit rule asset tenant payload).run w =
      match (prepare b limit rule asset tenant payload).run w with
      | (.error e, w') => (.error e, w')
      | (.ok (.skipped reason), w') => (.ok (.skipped reason), w')
      | (.ok (.ready g start ctx), w') =>
        let result := (trace g (visitor b limit ctx rule.settings.branchOnFalse) (.initial start w')).result
        (outcome result.1, result.2) := by
  unfold runWithin
  simp only [bind, ExceptT.bind, ExceptT.run, ExceptT.mk, StateT.bind]
  rcases (prepare b limit rule asset tenant payload) w with ⟨e | ⟨reason | ⟨g, start, ctx⟩⟩, w'⟩
  · rfl
  · rfl
  · simp only [ExceptT.bindCont, bind, ExceptT.mk, StateT.bind, walkGraph, runFrom_eq_result]
    rcases (trace g (visitor b limit ctx rule.settings.branchOnFalse) (.initial start w')).result with ⟨f | o, w''⟩
    · rfl
    · rfl

end Walk

namespace Rule

open Walk

variable {σ : Type}

def prepared (b : Backend σ) (default : Nat) (rule : Rule) (asset tenant : String) (payload : Json) (stores : σ) :
    Except RunError Prepared × World σ :=
  (prepare b (some (rule.timeoutOr default)) rule asset tenant payload).run (.start stores)

def walk (b : Backend σ) (default : Nat) (rule : Rule) (g : Graph) (start : Nat) (ctx : Context) (w : World σ) :
    Trace (World σ) RunError :=
  trace g (visitor b (some (rule.timeoutOr default)) ctx rule.settings.branchOnFalse) (.initial start w)

def calls (b : Backend σ) (default : Nat) (rule : Rule) (asset tenant : String) (payload : Json) (stores : σ) :
    List (Call (World σ) RunError) :=
  match rule.prepared b default asset tenant payload stores with
  | (.ok (.ready g start ctx), w) => (rule.walk b default g start ctx w).calls
  | _ => []

/-- A run ends as its walk does, if it comes to one. -/
theorem run_eq (b : Backend σ) (default : Nat) (rule : Rule) (asset tenant : String) (payload : Json) (stores : σ) :
    rule.run b default asset tenant payload stores =
      match rule.prepared b default asset tenant payload stores with
      | (.error e, w) => conclude b rule.id asset (.error e) w
      | (.ok (.skipped reason), w) => conclude b rule.id asset (.ok (.skipped reason)) w
      | (.ok (.ready g start ctx), w) =>
        let result := (rule.walk b default g start ctx w).result
        conclude b rule.id asset (outcome result.1) result.2 := by
  simp only [Rule.run, run_runWithin, prepared]
  rcases (prepare b (some (rule.timeoutOr default)) rule asset tenant payload).run (.start stores) with
    ⟨e | ⟨reason | ⟨g, start, ctx⟩⟩, w⟩
  · rfl
  · rfl
  · rfl

end Rule

end RuleFlow
