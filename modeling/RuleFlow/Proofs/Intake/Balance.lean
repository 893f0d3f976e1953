import RuleFlow.Proofs.Intake.Consumed
/-! # The books balance

The consumer, the engine and the recording of runs publish their figures at different moments.  Over all the events that
have been handled, and whatever has come of them, the figures tell the same: `consume_balance`. -/
namespace RuleFlow

variable {σ : Type}

structure Figures where
  /-- The counters of events. -/
  events : Nat := 0
  /-- The sum of the rules that were run for events. -/
  rules : Nat := 0
  /-- The sum of those of them that have failed. -/
  failures : Nat := 0
  /-- The sum of the candidates of dispatches. -/
  candidates : Nat := 0
  /-- The counters of runs. -/
  executions : Nat := 0
  /-- Those of them that tell of a failure. -/
  failedRuns : Nat := 0
  /-- The durations of runs. -/
  timings : Nat := 0
  /-- The records that were handed over. -/
  records : Nat := 0
  /-- Those of them that tell of a failure. -/
  failedRecords : Nat := 0
  deriving DecidableEq

def Metric.select (kind : Kind) (key : String) (ms : List Metric) : List Metric :=
  ms.filter fun m => m.kind = kind ∧ m.key = key

def Metric.total (ms : List Metric) : Nat := (ms.map (·.value.toNat)).sum

namespace Figures

def of (ms : List Metric) (rs : List ExecutionRecord) : Figures where
  events := (Metric.select .counter "rule.event" ms).length
  rules := Metric.total (Metric.select .counter "rule.event.rules" ms)
  failures := Metric.total (Metric.select .counter "rule.event.failures" ms)
  candidates := Metric.total (Metric.select .gauge "rule.dispatch.candidates" ms)
  executions := (Metric.select .counter "rule.execution" ms).length
  failedRuns := (Metric.select .counter "rule.execution" ms).countP fun m => ("outcome", "failure") ∈ m.tags
  timings := (Metric.select .timing "rule.execution.duration" ms).length
  records := rs.length
  failedRecords := rs.countP (!·.success)

def add (f g : Figures) : Figures where
  events := f.events + g.events
  rules := f.rules + g.rules
  failures := f.failures + g.failures
  candidates := f.candidates + g.candidates
  executions := f.executions + g.executions
  failedRuns := f.failedRuns + g.failedRuns
  timings := f.timings + g.timings
  records := f.records + g.records
  failedRecords := f.failedRecords + g.failedRecords

instance : Add Figures := ⟨add⟩

theorem add_def (f g : Figures) : f + g = f.add g := rfl

theorem add_zero (f : Figures) : f + {} = f := rfl

theorem add_assoc (f g h : Figures) : f + g + h = f + (g + h) := by
  simp only [add_def, add, Nat.add_assoc]

theorem of_append (ms ns : List Metric) (rs ss : List ExecutionRecord) :
    of (ms ++ ns) (rs ++ ss) = of ms rs + of ns ss := by
  simp only [add_def, add, of, Metric.select, Metric.total, List.filter_append, List.map_append, List.sum_append,
    List.length_append, List.countP_append]

/-- The figures of runs with some results, before the event is settled. -/
def ofRuns (results : List (String × RunResult)) : Figures where
  executions := results.length
  failedRuns := results.countP (!·.2.success)
  timings := results.length
  records := results.length
  failedRecords := results.countP (!·.2.success)

theorem ofRuns_cons (result : String × RunResult) (results : List (String × RunResult)) :
    ofRuns (result :: results) = ofRuns [result] + ofRuns results := by
  simp only [add_def, add, ofRuns, ← List.countP_append, ← List.length_append, List.singleton_append, Nat.add_zero]

def due (events : Nat) (results : List (String × RunResult)) : Figures where
  events
  rules := results.length
  failures := results.countP (!·.2.success)
  candidates := results.length
  executions := results.length
  failedRuns := results.countP (!·.2.success)
  timings := results.length
  records := results.length
  failedRecords := results.countP (!·.2.success)

theorem due_append (m n : Nat) (xs ys : List (String × RunResult)) :
    due (m + n) (xs ++ ys) = due m xs + due n ys := by
  simp only [add_def, add, due, List.length_append, List.countP_append]

end Figures

def Watched.figures (s : Watched σ) : Figures :=
  .of (s.effects.filterMap Effect.metric?) (s.effects.filterMap Effect.record?)

theorem Watched.figures_below {α : Type} (effects : List Effect) (f : StateM σ α) (s : Watched σ) :
    (below effects f s).2.figures =
      s.figures + .of (effects.filterMap Effect.metric?) (effects.filterMap Effect.record?) := by
  simp only [figures, below, List.filterMap_append, Figures.of_append]

theorem Watched.figures_publish (b : Backend σ) (m : Metric) (s : Watched σ) :
    (b.watched.publish m s).2.figures = s.figures + .of [m] [] := figures_below _ _ s

theorem Watched.figures_report (b : Backend σ) (entry : Journal.Entry) (s : Watched σ) :
    (b.watched.report entry s).2.figures = s.figures := figures_below _ _ s

theorem Watched.figures_activeRules (b : Backend σ) (tenant : String) (s : Watched σ) :
    (b.watched.activeRules tenant s).2.figures = s.figures := figures_below _ _ s

theorem Figures.of_metricsOf (result : RunResult) (ms : UInt64) (id : String) {r : ExecutionRecord}
    (h : r.success = result.success) :
    of (Engine.metricsOf result.tag ms) [r] = ofRuns [(id, result)] := by
  have htag : "failure" = result.tag ↔ result.success = false := by
    unfold RunResult.tag
    cases result.success with
    | false => simp
    | true => cases result.isSkipped <;> simp
  simp [of, ofRuns, Metric.select, Metric.total, Engine.metricsOf, Metric.increment, Metric.timing, htag, h]

theorem Figures.of_gauge {n : Nat} (h : n < UInt64.size) :
    of [.gauge "rule.dispatch.candidates" n] [] = { candidates := n } := by
  simp [of, Metric.select, Metric.total, Metric.gauge, UInt64.toNat_ofNat_of_lt' h]

theorem Figures.of_rules {n : Nat} (h : n < UInt64.size) : of [.count "rule.event.rules" n] [] = { rules := n } := by
  simp [of, Metric.select, Metric.total, Metric.count, UInt64.toNat_ofNat_of_lt' h]

theorem Figures.of_failures {n : Nat} (h : n < UInt64.size) :
    of [.count "rule.event.failures" n] [] = { failures := n } := by
  simp [of, Metric.select, Metric.total, Metric.count, UInt64.toNat_ofNat_of_lt' h]

namespace Engine

variable (b : Backend σ) (settings : Settings) (event : Event) (payload : Json)

/-- A run is counted, timed and recorded once, and all tell whether it has failed. -/
theorem figures_runCandidate (rule : Rule) (s : Watched σ) :
    let e : Engine (Watched σ) := ⟨b.watched, settings⟩
    (e.runCandidate event payload rule s).2.figures =
      s.figures + .ofRuns [(e.runCandidate event payload rule s).1] := by
  intro e
  let q : Request := .given rule event.asset.assetId event.asset.tenantId event.kind payload
  obtain ⟨hanswer, hafter⟩ :=
    q.alike_answer (b.alike_watched_after s.effects) settings s ⟨s.stores, []⟩ (by rw [List.append_nil])
  have hmetrics := q.metrics_answer b settings s.stores
  have hrecords := q.records_answer b settings s.stores
  have hsuccess : (q.record e ⟨s.stores, []⟩).success = (q.answer e ⟨s.stores, []⟩).1.success := by
    rw [q.answer_fst]
    rfl
  change (q.answer e s).2.figures = s.figures + .ofRuns [(rule.id, (q.answer e s).1)]
  rw [hafter, hanswer, Watched.figures, List.filterMap_append, List.filterMap_append, Figures.of_append, hmetrics,
    hrecords, Figures.of_metricsOf _ _ rule.id hsuccess]
  rfl

theorem figures_mapM (rules : List Rule) (s : Watched σ) :
    let run := Engine.runCandidate ⟨b.watched, settings⟩ event payload
    (rules.mapM run s).2.figures = s.figures + .ofRuns (rules.mapM run s).1 := by
  intro run
  induction rules generalizing s with
  | nil => rfl
  | cons rule rules ih =>
    rw [FanOut.mapM_cons_eq, Figures.ofRuns_cons, ih, figures_runCandidate, Figures.add_assoc]

variable {b settings event}

theorem figures_dispatch_of_error {cause : RunError} {s t : Watched σ}
    (h : Engine.dispatch ⟨b.watched, settings⟩ event s = (.error cause, t)) : t.figures = s.figures := by
  have hactive := Watched.figures_activeRules b event.asset.tenantId s
  rcases hfound : b.watched.activeRules event.asset.tenantId s with ⟨cause' | active, u⟩
  · rw [hfound] at hactive
    rw [dispatch_of_error hfound] at h
    obtain ⟨-, rfl⟩ := Prod.mk.inj h
    exact hactive
  · rw [dispatch_of_ok hfound] at h
    cases (Prod.mk.inj h).1

theorem figures_dispatch_of_ok {results : List (String × RunResult)} (hsize : results.length < UInt64.size)
    {s t : Watched σ} (h : Engine.dispatch ⟨b.watched, settings⟩ event s = (.ok results, t)) :
    t.figures = s.figures + ({ candidates := results.length } + .ofRuns results) := by
  have hactive := Watched.figures_activeRules b event.asset.tenantId s
  rcases hfound : b.watched.activeRules event.asset.tenantId s with ⟨cause' | active, u⟩
  · rw [dispatch_of_error hfound] at h
    cases (Prod.mk.inj h).1
  · rw [hfound] at hactive
    rw [dispatch_of_ok hfound] at h
    obtain ⟨hresults, rfl⟩ := Prod.mk.inj h
    have hlength : (select event active).length = results.length := by
      rw [← Except.ok.inj hresults, FanOut.length_mapM]
    rw [figures_mapM, Except.ok.inj hresults, Watched.figures_publish, Watched.figures_report, hactive, hlength,
      Figures.of_gauge hsize, Figures.add_assoc]

end Engine

def Handled.results (h : Handled) : List (String × RunResult) :=
  match h.answer with
  | .ok results => results
  | .error _ => []

namespace Consumer

variable {b : Backend σ} {settings : Engine.Settings}

theorem figures_settle (event : Event) {results : List (String × RunResult)} (h : results.length < UInt64.size)
    (s : Watched σ) :
    (settle b.watched event results s).2.figures =
      s.figures + { rules := results.length, failures := results.countP (!·.2.success) } := by
  have hsize : results.countP (!·.2.success) < UInt64.size := Nat.lt_of_le_of_lt List.countP_le_length h
  unfold settle
  by_cases hfailed : 0 < results.countP (!·.2.success)
  · simp only [if_pos hfailed, bind, StateT.bind]
    change (b.watched.report _ (b.watched.report _ (b.watched.publish _ (b.watched.publish _ s).2).2).2).2.figures = _
    rw [Watched.figures_report, Watched.figures_report, Watched.figures_publish, Watched.figures_publish,
      Figures.of_rules h, Figures.of_failures hsize, Figures.add_assoc]
    simp only [Figures.add_def, Figures.add, Nat.add_zero, Nat.zero_add]
  · simp only [if_neg hfailed, bind, StateT.bind]
    change (b.watched.report _ (b.watched.publish _ s).2).2.figures = _
    rw [Watched.figures_report, Watched.figures_publish, Figures.of_rules h, Nat.eq_zero_of_not_pos hfailed]

/-- What an event adds to the figures is due to the results of its runs. -/
theorem figures_handle (books : Books) (event : Event) (s : Watched σ) :
    let e : Engine (Watched σ) := ⟨b.watched, settings⟩
    (handled e event s).results.length < UInt64.size →
      (handle e books event s).2.figures = s.figures + .due 1 (handled e event s).results := by
  intro e hsize
  have hcounted : (counted e event s).figures = s.figures + { events := 1 } := Watched.figures_publish b _ s
  rcases h : e.dispatch event (counted e event s) with ⟨cause | results, w⟩
  · rw [handle_of_error books h, Watched.figures_report, Engine.figures_dispatch_of_error h, hcounted, handled, h]
    rfl
  · have hresults : (handled e event s).results = results := by
      rw [handled, h]
      rfl
    rw [hresults] at hsize ⊢
    rw [handle_of_ok books h, figures_settle event hsize, Engine.figures_dispatch_of_ok hsize h, hcounted]
    simp only [Figures.add_def, Figures.add, Figures.due, Figures.ofRuns, Nat.add_zero, Nat.zero_add]

end Consumer

theorem Consumer.length_results {e : Engine σ} {event : Event} {s t : σ} {active : List Rule}
    (h : e.backend.activeRules event.asset.tenantId (counted e event s) = (.ok active, t)) :
    (handled e event s).results.length = (Engine.select event active).length := by
  rw [handled, Engine.dispatch_of_ok h, Handled.results, FanOut.length_mapM]

/-- The figures are due to the results of all runs. -/
theorem Handles.figures {b : Backend σ} {settings : Engine.Settings} {handed : List Handled}
    {s t : Books × Watched σ} (h : Handles ⟨b.watched, settings⟩ handed s t)
    (hsize : ∀ x ∈ handed, x.results.length < UInt64.size) :
    t.2.figures = s.2.figures + .due handed.length (handed.flatMap Handled.results) := by
  induction h with
  | refl s => rfl
  | report entry h ih => exact (Watched.figures_report b entry _).trans (ih hsize)
  | @handle handed s books world event h ih =>
    obtain ⟨hbefore, hlast⟩ := List.forall_mem_append.1 hsize
    rw [Consumer.figures_handle books event world (hlast _ (List.mem_singleton_self _)), ih hbefore, Figures.add_assoc,
      ← Figures.due_append, List.flatMap_append, List.flatMap_singleton, List.length_append, List.length_singleton]

/-- Whether the books and the figures tell the same of what has been handled: `rules` is the number of runs, `failures`
that of those that have failed. -/
structure Balance (handed : List Handled) (books : Books) (f : Figures) : Prop where
  processed : books.processed = handed.length
  events : f.events = handed.length
  failed : books.failed = handed.countP Handled.isFailed
  rules : f.rules = (handed.flatMap Handled.results).length
  candidates : f.candidates = f.rules
  executions : f.executions = f.rules
  timings : f.timings = f.rules
  records : f.records = f.rules
  failures : f.failures = (handed.flatMap Handled.results).countP (!·.2.success)
  failedRuns : f.failedRuns = f.failures
  failedRecords : f.failedRecords = f.failures

theorem Handles.balance {b : Backend σ} {settings : Engine.Settings} {handed : List Handled} {stores : σ}
    {t : Books × Watched σ} (h : Handles ⟨b.watched, settings⟩ handed ({}, ⟨stores, []⟩) t)
    (hsize : ∀ x ∈ handed, x.results.length < UInt64.size) : Balance handed t.1 t.2.figures := by
  have hfigures : t.2.figures = .due handed.length (handed.flatMap Handled.results) := by
    rw [h.figures hsize]
    simp [Figures.add_def, Figures.add, Figures.due, Watched.figures, Figures.of, Metric.select, Metric.total]
  have hprocessed := h.processed_eq
  have hfailed := h.failed_eq
  rw [Nat.zero_add] at hprocessed hfailed
  rw [hfigures]
  exact ⟨hprocessed, rfl, hfailed, rfl, rfl, rfl, rfl, rfl, rfl, rfl, rfl⟩

/-- Whatever the stores do and whatever comes of the events, the books and the figures that the consumer, the engine and
the recording of runs have published tell the same, at any time between two events and when all have been consumed.
Lengths are published as words of 64 bits, and no dispatch has as many results as there are such words. -/
theorem consume_balance (b : Backend σ) (settings : Engine.Settings) (stores : σ) :
    let e : Engine (Watched σ) := ⟨b.watched, settings⟩
    (∀ handed books world, Handles e handed ({}, ⟨stores, []⟩) (books, world) →
      (∀ x ∈ handed, x.results.length < UInt64.size) → Balance handed books world.figures) ∧
    ∀ events,
      let after := e.consume events false ⟨stores, []⟩
      Engine.consume ⟨b, settings⟩ events false stores = (after.1, after.2.stores) ∧
      ∃ handed, handed.map (·.event) = events ∧ Handles e handed ({}, ⟨stores, []⟩) after ∧
        ((∀ x ∈ handed, x.results.length < UInt64.size) → Balance handed after.1 after.2.figures) := by
  intro e
  refine ⟨fun handed books world h => h.balance, fun events => ?_⟩
  obtain ⟨hbooks, hstores⟩ := Consumer.alike_consume b.alike_watched settings events ⟨stores, []⟩ stores rfl
  obtain ⟨handed, hevents, hhandles⟩ := Consumer.handles_consume e events ⟨stores, []⟩
  exact ⟨Prod.ext hbooks.symm hstores.symm, handed, hevents, hhandles, hhandles.balance⟩

def logLost : Backend (Counted Memory) := Faults.backend { logDown := true } Memory.backend

/-- Three rules are run by hand.  Each of them is counted, timed and handed over once, though no record is kept. -/
theorem balance_byHand :
    let s : Watched (Counted Memory) := ⟨⟨Engine.fourRules, 0, 0⟩, []⟩
    let after := Consumer.handle ⟨logLost.watched, {}⟩ {} Engine.byHand s
    after.1.processed = 1 ∧ after.2.figures.events = 1 ∧ after.2.figures.rules = 3 ∧ after.2.figures.candidates = 3 ∧
      after.2.figures.executions = 3 ∧ after.2.figures.timings = 3 ∧ after.2.figures.records = 3 ∧
      after.2.figures.failedRuns = after.2.figures.failures ∧
      after.2.figures.failedRecords = after.2.figures.failures := by
  intro s after
  have hselected : Engine.select Engine.byHand (Engine.fourRules.rules.activeOf "t") = _ :=
    (Engine.candidates_of_store Engine.fourRules.rules Engine.byHand).unique Engine.candidates_fourRules
  have hlength : (Consumer.handled ⟨logLost.watched, {}⟩ Engine.byHand s).results.length = 3 :=
    (Consumer.length_results rfl).trans (congrArg List.length hselected)
  have hbalance : Balance [Consumer.handled ⟨logLost.watched, {}⟩ Engine.byHand s] after.1 after.2.figures := by
    refine (consume_balance logLost {} ⟨Engine.fourRules, 0, 0⟩).1 _ _ _ ((Handles.refl _).handle Engine.byHand) ?_
    intro x hx
    rw [List.mem_singleton.1 hx, hlength]
    decide
  have hrules : after.2.figures.rules = 3 := by
    rw [hbalance.rules, List.flatMap_singleton, hlength]
  exact ⟨hbalance.processed, hbalance.events, hrules, hbalance.candidates.trans hrules,
    hbalance.executions.trans hrules, hbalance.timings.trans hrules, hbalance.records.trans hrules, hbalance.failedRuns,
    hbalance.failedRecords⟩

end RuleFlow
