import RuleFlow.Validation
import RuleFlow.Proofs.Graph.Reachability
import RuleFlow.Proofs.Graph.Cycles
/-! # What valid rules are

Main statements: `validate_eq_ok_iff`, which lists the checks that a rule has passed, and `reachesAction_iff`. -/
namespace RuleFlow.Rule

open Relation

variable {r : Rule} {g : Graph}

theorem validateActive_eq_ok_iff :
    validateActive g = .ok () ↔ ∃ start, g.trigger = some start ∧ reachesAction g start = true := by
  unfold validateActive
  cases hs : g.trigger with
  | none => simp
  | some start => cases ha : reachesAction g start <;> simp [ha]

theorem validate_eq_ok_iff : r.validate = .ok () ↔
    duplicate? [] r.nodes = none ∧ r.dangling? = none ∧
    ∃ g dropped, Graph.compile r = .ok (g, dropped) ∧ malformed? g.nodes = none ∧ g.findCycle = none ∧
      (r.isActive = true → validateActive g = .ok ()) := by
  unfold validate
  cases duplicate? [] r.nodes with
  | some node => simp [bind, Except.bind]
  | none =>
    cases r.dangling? with
    | some d => simp [bind, Except.bind]
    | none =>
      cases Graph.compile r with
      | error e => simp [bind, Except.bind]
      | ok found =>
        obtain ⟨g, dropped⟩ := found
        cases hm : malformed? g.nodes with
        | some m => simp [bind, Except.bind, hm]
        | none =>
          cases hf : g.findCycle with
          | some node => simp [bind, Except.bind, hm, hf]
          | none => cases ha : r.isActive <;> simp [bind, Except.bind, hm, hf, pure, Except.pure]

theorem reachesAction_iff (hg : g.Closed) {start : Nat} (hs : start < g.size) :
    reachesAction g start = true ↔
      ∃ p n, g.node? p = some n ∧ n.role = .action ∧ ReflTransGen g.Edge start p := by
  simp only [reachesAction, List.any_eq_true, Bool.and_eq_true, decide_eq_true_eq]
  constructor
  · rintro ⟨⟨n, reached⟩, hmem, rfl, hrole⟩
    obtain ⟨p, hp⟩ := List.getElem?_of_mem hmem
    obtain ⟨hn, hmark⟩ := List.getElem?_zip_eq_some.1 hp
    exact ⟨p, n, hn, hrole, (Graph.reachableFrom_getElem? hg hs).1 hmark⟩
  · rintro ⟨p, n, hn, hrole, hreach⟩
    have hmark := (Graph.reachableFrom_getElem? hg hs).2 hreach
    exact ⟨(n, true), List.mem_of_getElem? (List.getElem?_zip_eq_some.2 ⟨hn, hmark⟩), rfl, hrole⟩

/-- What a valid rule that is active is compiled to: it has no cycle, and an action is reachable from its trigger. -/
theorem compile_of_validate (hv : r.validate = .ok ()) (ha : r.isActive = true) :
    ∃ g dropped start, Graph.compile r = .ok (g, dropped) ∧ g.trigger = some start ∧ (∀ p, ¬ g.OnCycle p) ∧
      ∃ p n, g.node? p = some n ∧ n.role = .action ∧ ReflTransGen g.Edge start p := by
  obtain ⟨_, _, g, dropped, hc, _, hf, hactive⟩ := validate_eq_ok_iff.1 hv
  obtain ⟨start, hs, haction⟩ := validateActive_eq_ok_iff.1 (hactive ha)
  have hg := Graph.compile_closed hc
  exact ⟨g, dropped, start, hc, hs, (Graph.findCycle_eq_none_iff hg).1 hf,
    (reachesAction_iff hg (Graph.trigger_lt hs)).1 haction⟩

end RuleFlow.Rule
