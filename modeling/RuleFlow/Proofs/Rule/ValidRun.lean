import RuleFlow.Backend.Memory
import RuleFlow.Proofs.Rule.Validity
import RuleFlow.Proofs.Walk.Exploration
import RuleFlow.Proofs.Walk.Run
import RuleFlow.Proofs.Walk.Visits
/-! # Runs of valid rules

What the checks of a rule are good for.  Main statement: `run_of_valid`, by which a run of a valid rule that is active
finds no fault with the rule, whatever the backend does, and comes to an action unless a branch may be ended. -/
namespace RuleFlow.Rule

open Relation Walk

variable {σ : Type} {b : Backend σ} {default : Nat} {rule : Rule} {asset tenant : String} {payload : Json}
  {stores : σ} {g : Graph} {start : Nat} {ctx : Context} {w w' : World σ}

theorem compile_of_ready (h : rule.prepared b default asset tenant payload stores = (.ok (.ready g start ctx), w)) :
    (∃ dropped, Graph.compile rule = .ok (g, dropped)) ∧ g.trigger = some start := by
  obtain ⟨a, _, hc, hs, _⟩ := ends_prepare_of_rule.of_ok h
  exact ⟨hc, hs⟩

/-- A visit that fails finds no fault with the rule. -/
theorem walk_visit_runtime {e : RunError} (h : (rule.walk b default g start ctx w).result = (.error (.visit e), w')) :
    e.isConfigurationError = false := by
  obtain ⟨c, hmem, he⟩ := exists_call_of_failed h
  obtain ⟨_, _, _, hcall⟩ := exists_steps_of_mem_calls hmem
  obtain ⟨_, _, _, hanswer⟩ := call?_spec hcall
  have hends : (visitNode b (some (rule.timeoutOr default)) ctx rule.settings.branchOnFalse c.node c.outputs).Ends
      c.world (fun _ _ => True) (fun e _ => e.isConfigurationError = false) := visitNode_runtime
  exact hends.of_error (Prod.ext (hanswer.symm.trans he) rfl)

/-- A walk without cycles finds no fault with the rule. -/
theorem walk_runtime {f : Failure RunError} (hacyclic : ∀ p, ¬ g.OnCycle p)
    (h : (rule.walk b default g start ctx w).result = (.error f, w')) : f.error.isConfigurationError = false := by
  cases f with
  | cycle id =>
    rw [walk, trace_initial] at h
    obtain ⟨q, _, hq⟩ := onCycle_of_cycle (by simp) h
    exact absurd hq (hacyclic q)
  | visit e => exact walk_visit_runtime h

/-- A walk that completes, with no branch ended, has visited what can be reached. -/
theorem exists_call_of_reachable (hg : g.Closed) (hs : start < g.size) (hb : rule.settings.branchOnFalse = false)
    {o : Outputs} (h : (rule.walk b default g start ctx w).result = (.ok o, w')) {p : Nat} {n : Node}
    (hn : g.node? p = some n) (hp : ReflTransGen g.Edge start p) :
    ∃ c ∈ (rule.walk b default g start ctx w).calls, c.node = n ∧ ∃ x, c.answer = .ok x := by
  have hh (n : Node) (x : Json) :
      (visitor b (some (rule.timeoutOr default)) ctx rule.settings.branchOnFalse).halts n x = false := by
    rw [hb]
    exact halts_false n x
  obtain ⟨c, hmem, rfl⟩ := (exists_call_iff_reachable hg hh hs h).2 hp
  have hnode := (node?_of_mem_calls hmem).symm.trans hn
  exact ⟨c, hmem, Option.some.inj hnode, (outputs_of_completed (congrArg Prod.fst h)).1 c hmem⟩

/-- A run of a valid rule that is active finds no fault with the rule: whatever the stores, the clock and the
receivers do, it does not end in an error of configuration.  If it completes, and no condition may end a branch, an
action has been done. -/
theorem run_of_valid (hv : rule.validate = .ok ()) (ha : rule.isActive = true) (b : Backend σ) (default : Nat)
    (asset tenant : String) (payload : Json) (stores : σ) :
    (∀ e, (rule.run b default asset tenant payload stores).1 = .error e → e.isConfigurationError = false) ∧
    (rule.settings.branchOnFalse = false →
      ∀ o, (rule.run b default asset tenant payload stores).1 = .ok (.completed o) →
        ∃ c ∈ rule.calls b default asset tenant payload stores, c.node.role = .action ∧ ∃ x, c.answer = .ok x) := by
  obtain ⟨g, dropped, start, hc, hs, hacyclic, p, n, hn, hrole, hreach⟩ := compile_of_validate hv ha
  rw [run_eq, calls]
  rcases hp : rule.prepared b default asset tenant payload stores with ⟨e | ⟨reason | ⟨g', start', ctx⟩⟩, w⟩
  · simp only [conclude_fst]
    refine ⟨fun e' he => ?_, fun _ o ho => nomatch ho⟩
    obtain rfl : e = e' := by simpa using he
    by_contra hconf
    rcases ends_prepare_of_rule.of_error hp (by simpa using hconf) with ⟨cause, hcause, _⟩ | ⟨g', d, hc', hnone, _⟩
    · rw [hc] at hcause
      cases hcause
    · obtain ⟨rfl, _⟩ : g = g' ∧ _ := by simpa [hc] using hc'
      rw [hs] at hnone
      cases hnone
  · simp only [conclude_fst]
    exact ⟨fun e he => (nomatch he), fun _ o ho => nomatch ho⟩
  · obtain ⟨⟨d, hc'⟩, hs'⟩ := compile_of_ready hp
    obtain ⟨rfl, _⟩ : g = g' ∧ _ := by simpa [hc] using hc'
    obtain rfl : start = start' := by simpa [hs] using hs'
    simp only [conclude_fst]
    rcases hr : (rule.walk b default g start ctx w).result with ⟨f | o, w'⟩
    · refine ⟨fun e he => ?_, fun _ o ho => nomatch ho⟩
      obtain rfl : f.error = e := by simpa [outcome] using he
      exact walk_runtime hacyclic hr
    · refine ⟨fun e he => (nomatch he), fun hb _ _ => ?_⟩
      obtain ⟨c, hmem, rfl, hx⟩ :=
        exists_call_of_reachable (Graph.compile_closed hc) (Graph.trigger_lt hs) hb hr hn hreach
      exact ⟨c, hmem, hrole, hx⟩

theorem validate_diamond : diamond.validate = .ok () := by
  have hc : Graph.compile diamond = .ok (diamondGraph, []) := rfl
  have hg : diamondGraph.Closed := Graph.compile_closed hc
  have haction : reachesAction diamondGraph 0 = true :=
    (reachesAction_iff hg (by decide)).2 ⟨1, _, rfl, rfl, .single (by decide : 1 ∈ diamondGraph.next 0)⟩
  exact validate_eq_ok_iff.2 ⟨rfl, rfl, diamondGraph, [], hc, rfl, (Graph.findCycle_eq_none_iff hg).2 diamond_acyclic,
    fun _ => validateActive_eq_ok_iff.2 ⟨0, rfl, haction⟩⟩

def oneWell : Memory where
  assets := .ofList [⟨"a", "t", "well", "", "", [], [], []⟩]

def isCompleted (result : Except RunError Outcome) : Bool :=
  match result with
  | .ok (.completed _) => true
  | _ => false

/-- A run of the diamond on that asset completes, so that an action has been done. -/
theorem run_diamond :
    diamond.validate = .ok () ∧ diamond.isActive = true ∧ diamond.settings.branchOnFalse = false ∧
    ∃ o, (diamond.run Memory.backend 30000 "a" "t" .null oneWell).1 = .ok (.completed o) ∧
      ∃ c ∈ diamond.calls Memory.backend 30000 "a" "t" .null oneWell, c.node.role = .action ∧
        ∃ x, c.answer = .ok x := by
  have hcompletes : isCompleted (diamond.run Memory.backend 30000 "a" "t" .null oneWell).1 = true := by
    decide +kernel
  have hrun := run_of_valid validate_diamond rfl Memory.backend 30000 "a" "t" .null oneWell
  rcases hr : (diamond.run Memory.backend 30000 "a" "t" .null oneWell).1 with e | ⟨o | reason⟩
  · simp [hr, isCompleted] at hcompletes
  · exact ⟨validate_diamond, rfl, rfl, o, rfl, hrun.2 rfl o hr⟩
  · simp [hr, isCompleted] at hcompletes

end RuleFlow.Rule
