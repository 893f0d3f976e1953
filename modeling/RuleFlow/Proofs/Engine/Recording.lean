import RuleFlow.Proofs.Backend.Watched
import RuleFlow.Proofs.Engine.FanOut
import RuleFlow.Proofs.Engine.Records
import RuleFlow.Proofs.Walk.Alike
/-! # What is told of a run

A run that the engine is asked for is told of in three ways: to its caller, in one execution record, and in two metrics.
All of them are read off the same end, and none depends on whether the record can be kept: `Engine.run_accounted`, for
every backend and both ways to ask for a run. -/
namespace RuleFlow

variable {σ σ' : Type}

section Walks

open Walk

variable {b : Backend σ} {default : Nat} {rule : Rule} {asset tenant : String} {payload : Json} {s : σ}

/-- The outputs of a run that completes are the answers of its visits, stored one after the other. -/
theorem Rule.outputs_of_run {o : Outputs}
    (h : (rule.run b default asset tenant payload s).1 = .ok (.completed o)) :
    (∀ c ∈ rule.calls b default asset tenant payload s, ∃ x, c.answer = .ok x) ∧
      o = (rule.calls b default asset tenant payload s).foldl Call.store [] := by
  rw [run_eq] at h
  rw [calls]
  revert h
  rcases rule.prepared b default asset tenant payload s with ⟨e | ⟨reason | ⟨g, start, ctx⟩⟩, w⟩
  · intro h
    rw [conclude_fst] at h
    cases h
  · intro h
    rw [conclude_fst] at h
    cases h
  · intro h
    dsimp only at h ⊢
    rw [conclude_fst] at h
    apply outputs_of_completed
    change (rule.walk b default g start ctx w).result.1 = .ok o
    rcases hr : (rule.walk b default g start ctx w).result.1 with f | o'
    · rw [hr] at h
      cases h
    · rw [hr] at h
      cases h
      rfl

end Walks

namespace RunResult

variable {ending : Except RunError Outcome}

theorem isSome_error_iff : (ofEnd ending).error.isSome = true ↔ (ofEnd ending).success = false := by
  rcases ending with e | ⟨o | reason⟩ <;> simp [ofEnd]

theorem isSome_result_iff : (ofEnd ending).result.isSome = true ↔ (ofEnd ending).success = true := by
  rcases ending with e | ⟨o | reason⟩ <;> simp [ofEnd]

theorem isSkipped_iff : (ofEnd ending).isSkipped = true ↔ ∃ reason, ending = .ok (.skipped reason) := by
  rcases ending with e | ⟨o | reason⟩
  · simp [ofEnd, isSkipped]
  · simp [ofEnd, isSkipped, Json.ofMembers, Json.Object.get?_ofList, List.lookup_cons]
  · simp [ofEnd, isSkipped, Json.ofMembers, Json.Object.get?_ofList]

end RunResult

namespace Engine

section Alike

variable {b : Backend σ} {b' : Backend σ'} {R : σ → σ' → Prop} (hb : b.Alike b' R)
include hb

theorem alike_reportOption (e : Option Journal.Entry) : Alike R Eq (reportOption b e) (reportOption b' e) := by
  cases e with
  | none => exact .pure rfl
  | some e => exact hb.report e

theorem alike_keep (r : ExecutionRecord) : Alike R Eq (keep b r) (keep b' r) := by
  refine (hb.insertRecord r).bind_eq fun answer => ?_
  cases answer with
  | ok _ => exact .pure rfl
  | error e => exact hb.report _

theorem alike_record (inv : Invocation) {run : StateM σ (Except RunError Outcome)}
    {run' : StateM σ' (Except RunError Outcome)} (hrun : Alike R Eq run run') :
    Alike R Eq (record b inv run) (record b' inv run') := by
  unfold record
  refine Alike.get.bind fun s s' hs => ?_
  rw [hb.now hs]
  refine hrun.bind_eq fun ending => ?_
  refine Alike.get.bind fun t t' ht => ?_
  rw [hb.now ht]
  refine hb.freshId.bind_eq fun id => ?_
  refine (alike_reportOption hb _).bind_eq fun _ => ?_
  refine Alike.bind_eq ((hb.publish _).bind_eq fun _ => hb.publish _) fun _ => ?_
  exact (alike_keep hb _).bind_eq fun _ => .pure rfl

theorem alike_execute (settings : Settings) (rule : Rule) (asset tenant : String) (kind : TriggerKind)
    (payload : Json) :
    Alike R Eq (execute ⟨b, settings⟩ rule asset tenant kind payload)
      (execute ⟨b', settings⟩ rule asset tenant kind payload) :=
  alike_record hb _ (rule.alike_run_self hb settings.timeoutMs asset tenant payload)

theorem alike_runRule (settings : Settings) (rule asset tenant : String) (kind : TriggerKind) (payload : Json) :
    Alike R Eq (runRule ⟨b, settings⟩ rule asset tenant kind payload)
      (runRule ⟨b', settings⟩ rule asset tenant kind payload) := by
  apply alike_record hb
  refine (hb.findRule rule tenant).bind_eq fun found => ?_
  rcases found with cause | _ | r
  · exact .pure rfl
  · exact .pure rfl
  · exact r.alike_run_self hb settings.timeoutMs asset tenant payload

theorem alike_dispatch (settings : Settings) (event : Event) :
    Alike R Eq (dispatch ⟨b, settings⟩ event) (dispatch ⟨b', settings⟩ event) := by
  have happlicable : Alike R Eq (applicable ⟨b, settings⟩ event.asset.tenantId event.asset.typeId)
      (applicable ⟨b', settings⟩ event.asset.tenantId event.asset.typeId) := by
    refine (hb.activeRules _).bind_eq fun rules => ?_
    cases rules <;> exact .pure rfl
  refine happlicable.bind_eq fun rules => ?_
  cases rules with
  | error cause => exact .pure rfl
  | ok rules =>
    refine (hb.report _).bind_eq fun _ => (hb.publish _).bind_eq fun _ => Alike.get.bind fun s s' hs => ?_
    dsimp only
    rw [hb.now hs, FanOut.runAll_eq_mapM, FanOut.runAll_eq_mapM]
    refine (Alike.mapM (fun rule => ?_) _).bind_eq fun _ => .pure rfl
    exact (alike_execute hb settings rule _ _ _ _).bind_eq fun _ => .pure rfl

end Alike

end Engine

def Backend.unpublished (b : Backend σ) : Backend (Watched σ) := { b.watched with publish := fun _ => pure () }

def Watched.OfRun (s : Watched σ) : Prop := ∀ e ∈ s.effects, e.ofRun = true

theorem Watched.OfRun.below {α : Type} {effects : List Effect} (h : ∀ e ∈ effects, e.ofRun = true) (f : StateM σ α)
    {s : Watched σ} (hs : s.OfRun) : (Watched.below effects f s).2.OfRun :=
  Watched.forall_below h f hs

theorem Backend.keeps_ofRun (b : Backend σ) : b.unpublished.Keeps Watched.OfRun where
  findRule _ _ _ h := h.below (by simp) _
  activeRules _ _ h := h.below (by simp) _
  findAsset _ _ _ h := h.below (by simp) _
  updateAsset _ _ _ _ h := h.below (by simp [Effect.ofRun]) _
  replaceComputed _ _ _ _ h := h.below (by simp [Effect.ofRun]) _
  raise _ _ h := h.below (by simp [Effect.ofRun]) _
  publish _ _ h := h
  report _ _ h := h.below (by simp [Effect.ofRun]) _
  freshId h := h.below (by simp) _

theorem Rule.run_ofRun (b : Backend σ) (default : Nat) (rule : Rule) (asset tenant : String) (payload : Json)
    {s : Watched σ} (h : s.OfRun) : (rule.run b.watched default asset tenant payload s).2.OfRun :=
  rule.run_keeps b.keeps_ofRun default asset tenant payload h

namespace Engine

/-- A run that the engine is asked for: of an active rule by its id, or of a rule as given. -/
inductive Request
  | named (rule asset tenant : String) (kind : TriggerKind) (payload : Json)
  | given (rule : Rule) (asset tenant : String) (kind : TriggerKind) (payload : Json)

namespace Request

def invocation : Request → Invocation
  | .named rule asset tenant kind payload => ⟨rule, tenant, asset, kind, payload⟩
  | .given rule asset tenant kind payload => ⟨rule.id, tenant, asset, kind, payload⟩

def answer (e : Engine σ) : Request → StateM σ RunResult
  | .named rule asset tenant kind payload => e.runRule rule asset tenant kind payload
  | .given rule asset tenant kind payload => e.execute rule asset tenant kind payload

def ending (e : Engine σ) : Request → StateM σ (Except RunError Outcome)
  | .named rule asset tenant _ payload => e.runNamed rule asset tenant payload
  | .given rule asset tenant _ payload => e.runLoaded rule asset tenant payload

def calls (e : Engine σ) (s : σ) : Request → List (Walk.Call (Walk.World σ) RunError)
  | .named rule asset tenant _ payload =>
    match e.backend.findRule rule tenant s with
    | (.ok (some r), s') => r.calls e.backend e.settings.timeoutMs asset tenant payload s'
    | _ => []
  | .given rule asset tenant _ payload => rule.calls e.backend e.settings.timeoutMs asset tenant payload s

variable {b : Backend σ} {settings : Settings} {q : Request}

theorem answer_eq (e : Engine σ) (q : Request) : q.answer e = record e.backend q.invocation (q.ending e) := by
  cases q <;> rfl

theorem ending_ofRun (b : Backend σ) (settings : Settings) (q : Request) {s : Watched σ} (h : s.OfRun) :
    (q.ending ⟨b.watched, settings⟩ s).2.OfRun := by
  cases q with
  | given rule asset tenant kind payload => exact rule.run_ofRun b settings.timeoutMs asset tenant payload h
  | named rule asset tenant kind payload =>
    have hfound : (b.watched.findRule rule tenant s).2.OfRun := h.below (by simp) _
    simp only [ending, runNamed, bind, StateT.bind]
    revert hfound
    rcases b.watched.findRule rule tenant s with ⟨cause | _ | r, s'⟩
    · exact id
    · exact id
    · exact r.run_ofRun b settings.timeoutMs asset tenant payload

theorem outputs_of_ending {e : Engine σ} {s : σ} {o : Outputs} (h : (q.ending e s).1 = .ok (.completed o)) :
    (∀ c ∈ q.calls e s, ∃ x, c.answer = .ok x) ∧ o = (q.calls e s).foldl Walk.Call.store [] := by
  cases q with
  | given rule asset tenant kind payload => exact Rule.outputs_of_run h
  | named rule asset tenant kind payload =>
    simp only [ending, runNamed, bind, StateT.bind] at h
    simp only [calls]
    revert h
    rcases e.backend.findRule rule tenant s with ⟨cause | _ | r, s'⟩
    · intro h
      cases h
    · intro h
      cases h
    · exact Rule.outputs_of_run

end Request

def recordOf (b : Backend σ) (inv : Invocation) (run : StateM σ (Except RunError Outcome)) (s : σ) : ExecutionRecord :=
  .ofRun (b.freshId (run s).2).1 inv (b.now s) (b.now (run s).2) (run s).1

theorem effects_reportOption (b : Backend σ) (e : Option Journal.Entry) (s : Watched σ) :
    (reportOption b.watched e s).2.effects = s.effects ++ e.toList.map Effect.entry := by
  cases e with
  | none => exact (List.append_nil _).symm
  | some e => rfl

/-- A record is handed over once; that it is lost may be reported. -/
theorem effects_keep (b : Backend σ) (r : ExecutionRecord) (s : Watched σ) :
    ∃ lost : Option StorageError, (keep b.watched r s).2.effects =
      s.effects ++ .record r :: (lost.map (lostEntry r)).toList.map Effect.entry := by
  cases hi : (b.insertRecord r s.stores).1 with
  | error e =>
    refine ⟨some e, ?_⟩
    simp only [keep, bind, StateT.bind, Backend.watched, Watched.below, hi]
    exact List.append_assoc s.effects [Effect.record r] [Effect.entry (lostEntry r e)]
  | ok a =>
    refine ⟨none, ?_⟩
    simp only [keep, bind, StateT.bind, Backend.watched, Watched.below, hi]
    rfl

def metricsOf (tag : String) (ms : UInt64) : List Metric :=
  [.increment "rule.execution" [("outcome", tag)], .timing "rule.execution.duration" ms [("outcome", tag)]]

/-- What is asked of a backend to report, measure and record the end of a run.  That the record is lost may be
reported after that. -/
def endEffects (before : Option Journal.Entry) (ms : List Metric) (r : ExecutionRecord) (lost : Option StorageError) :
    List Effect :=
  before.toList.map .entry ++ (ms.map .metric ++ .record r :: (lost.map (lostEntry r)).toList.map .entry)

section

variable (before : Option Journal.Entry) (ms : List Metric) (r : ExecutionRecord) (lost : Option StorageError)

theorem filterMap_record?_endEffects : (endEffects before ms r lost).filterMap Effect.record? = [r] := by
  have hentries (e : Option Journal.Entry) : (e.toList.map Effect.entry).filterMap Effect.record? = [] := by
    cases e <;> rfl
  have hmetrics : (ms.map Effect.metric).filterMap Effect.record? = [] := by
    simp [Function.comp_def, Effect.record?]
  rw [endEffects, List.filterMap_append, List.filterMap_append, hentries, hmetrics]
  exact congrArg (r :: ·) (hentries _)

theorem filterMap_metric?_endEffects : (endEffects before ms r lost).filterMap Effect.metric? = ms := by
  have hentries (e : Option Journal.Entry) : (e.toList.map Effect.entry).filterMap Effect.metric? = [] := by
    cases e <;> rfl
  have hmetrics : (ms.map Effect.metric).filterMap Effect.metric? = ms := by
    simp [Function.comp_def, Effect.metric?]
  rw [endEffects, List.filterMap_append, List.filterMap_append, hentries, hmetrics]
  exact (congrArg (ms ++ ·) (hentries _)).trans (List.append_nil ms)

/-- The loss of a record cannot be told from outside. -/
theorem filter_isOutward_endEffects :
    (endEffects before ms r lost).filter Effect.isOutward = (endEffects before ms r none).filter Effect.isOutward := by
  have hlost : ((lost.map (lostEntry r)).toList.map Effect.entry).filter Effect.isOutward = [] := by
    cases lost <;> rfl
  simp only [endEffects, List.filter_append, List.filter_cons, hlost]
  rfl

end

theorem effects_record (b : Backend σ) (inv : Invocation) (run : StateM (Watched σ) (Except RunError Outcome))
    (s : Watched σ) :
    let r := recordOf b.watched inv run s
    ∃ lost, (record b.watched inv run s).2.effects = (run s).2.effects ++
      endEffects (endReport inv (run s).1) (metricsOf (outcomeTag (run s).1) r.durationMs) r lost := by
  intro r
  let reported := (reportOption b.watched (endReport inv (run s).1) (b.watched.freshId (run s).2).2).2
  have hreported : reported.effects = (run s).2.effects ++ (endReport inv (run s).1).toList.map Effect.entry :=
    (effects_reportOption b _ _).trans (congrArg (· ++ _) (List.append_nil _))
  let published := (publishRun b.watched (outcomeTag (run s).1) r.durationMs reported).2
  have hpublished : published.effects =
      reported.effects ++ (metricsOf (outcomeTag (run s).1) r.durationMs).map Effect.metric :=
    List.append_assoc reported.effects [_] [_]
  obtain ⟨lost, hlost⟩ := effects_keep b r published
  refine ⟨lost, hlost.trans ?_⟩
  rw [hpublished, hreported, List.append_assoc, List.append_assoc]
  rfl

end Engine

def RunResult.tag (r : RunResult) : String :=
  if r.success then if r.isSkipped then "skipped" else "success" else "failure"

theorem outcomeTag_eq (ending : Except RunError Outcome) : outcomeTag ending = (RunResult.ofEnd ending).tag := by
  have hskipped : (RunResult.ofEnd ending).isSkipped = true ↔ ∃ reason, ending = .ok (.skipped reason) :=
    RunResult.isSkipped_iff
  rcases ending with e | ⟨o | reason⟩
  · rfl
  · have hnot : (RunResult.ofEnd (.ok (.completed o))).isSkipped = false := by simpa using hskipped
    rw [RunResult.tag, hnot]
    rfl
  · rw [RunResult.tag, hskipped.2 ⟨reason, rfl⟩]
    rfl

namespace ExecutionRecord

/-- Whether a record is that of an invocation and tells what the result of the run tells. -/
structure Agrees (r : ExecutionRecord) (inv : Invocation) (answer : RunResult) : Prop where
  subject : r.subject = (inv.ruleId, inv.tenantId, inv.assetId)
  trigger : r.triggerType = inv.kind.name ∧ r.triggerData = inv.payload
  success : r.success = answer.success
  result : r.result = answer.result
  error : r.error = answer.error

/-- Whether the actions of a record are the outputs of a walk, in the order in which its nodes were first visited, and
whether the result tells the same outputs. -/
structure Lists (r : ExecutionRecord) (o : Outputs) (calls : List (Walk.Call τ ε)) (result : RunResult) : Prop where
  outputs : r.actions.map (fun a => (a.nodeId, a.output)) = o
  order : r.actions.map (·.nodeId) = (calls.map (·.node.id)).eraseDups
  nodup : (r.actions.map (·.nodeId)).Nodup
  told : ∃ members told, result.result = some (.object members) ∧
    Json.Object.get? members "outputs" = some (.object told) ∧
    ∀ id, Json.Object.get? told id = (r.actions.find? fun a => a.nodeId = id).map (·.output)

theorem agrees_ofRun (id : String) (inv : Invocation) (startedAt completedAt : Instant)
    (ending : Except RunError Outcome) :
    (ofRun id inv startedAt completedAt ending).Agrees inv (.ofEnd ending) := ⟨rfl, ⟨rfl, rfl⟩, rfl, rfl, rfl⟩

theorem find?_ofOutputs (o : Outputs) (id : String) :
    ((ExecutedAction.ofOutputs o).find? fun a => a.nodeId = id).map (·.output) = o.lookup id := by
  induction o with
  | nil => rfl
  | cons m rest ih =>
    obtain ⟨node, x⟩ := m
    change ((⟨node, x⟩ :: ExecutedAction.ofOutputs rest).find? fun a => a.nodeId = id).map (·.output) = _
    rw [List.find?_cons, List.lookup_cons]
    by_cases h : node = id
    · simp [h]
    · simpa [h, beq_false_of_ne (Ne.symm h)] using ih

theorem lists_ofRun {τ ε : Type} {calls : List (Walk.Call τ ε)} {o : Outputs}
    (hall : ∀ c ∈ calls, ∃ x, c.answer = .ok x) (ho : o = calls.foldl Walk.Call.store []) (id : String)
    (inv : Invocation) (startedAt completedAt : Instant) :
    (ofRun id inv startedAt completedAt (.ok (.completed o))).Lists o calls (.ofEnd (.ok (.completed o))) := by
  have hactions : (ofRun id inv startedAt completedAt (.ok (.completed o))).actions = ExecutedAction.ofOutputs o := rfl
  have hkeys : o.keys = (calls.map (·.node.id)).eraseDups := ho ▸ Walk.keys_store hall
  have horder : (ExecutedAction.ofOutputs o).map (·.nodeId) = o.keys := List.map_map
  have hnodup : o.keys.Nodup := hkeys ▸ nodup_eraseDups _
  refine ⟨?_, ?_, ?_, ?_⟩
  · rw [hactions, ExecutedAction.ofOutputs, List.map_map]
    exact List.map_id o
  · rw [hactions, horder, hkeys]
  · rwa [hactions, horder]
  · refine ⟨_, Json.Object.ofList o, rfl, ?_, fun id => ?_⟩
    · rw [Json.Object.get?_ofList (by simp)]
      rfl
    · rw [hactions, find?_ofOutputs, Json.Object.get?_ofList hnodup]

end ExecutionRecord

namespace Engine

theorem filterMap_of_ofRun {α : Type} {f : Effect → Option α} (hf : ∀ e, e.ofRun = true → f e = none)
    {effects : List Effect} (h : ∀ e ∈ effects, e.ofRun = true) : effects.filterMap f = [] := by
  rw [List.filterMap_eq_nil_iff]
  exact fun e he => hf e (h e he)

theorem record?_of_ofRun {e : Effect} (h : e.ofRun = true) : e.record? = none := by
  cases e with
  | record r => cases h
  | _ => rfl

theorem metric?_of_ofRun {e : Effect} (h : e.ofRun = true) : e.metric? = none := by
  cases e with
  | metric m => cases h
  | _ => rfl

namespace Request

theorem alike_answer {b : Backend σ} {b' : Backend σ'} {R : σ → σ' → Prop} (hb : b.Alike b' R)
    (settings : Settings) (q : Request) : Alike R Eq (q.answer ⟨b, settings⟩) (q.answer ⟨b', settings⟩) := by
  cases q with
  | named rule asset tenant kind payload => exact alike_runRule hb settings rule asset tenant kind payload
  | given rule asset tenant kind payload => exact alike_execute hb settings rule asset tenant kind payload

def record (e : Engine σ) (q : Request) (s : σ) : ExecutionRecord := recordOf e.backend q.invocation (q.ending e) s

theorem answer_fst (e : Engine σ) (q : Request) (s : σ) : (q.answer e s).1 = .ofEnd (q.ending e s).1 :=
  congrArg Prod.fst (congrFun (q.answer_eq e) s)

theorem outcomeTag_ending (e : Engine σ) (q : Request) (s : σ) :
    outcomeTag (q.ending e s).1 = (q.answer e s).1.tag := by
  rw [outcomeTag_eq, answer_fst]

/-- The record of a walk that completes lists its outputs. -/
theorem lists_record {e : Engine σ} {q : Request} {s : σ} {o : Outputs} (h : (q.ending e s).1 = .ok (.completed o)) :
    (q.record e s).Lists o (q.calls e s) (q.answer e s).1 := by
  obtain ⟨hall, hstored⟩ := outputs_of_ending h
  rw [answer_fst, record, recordOf, h]
  exact ExecutionRecord.lists_ofRun hall hstored _ _ _ _

/-- The record of any other run lists nothing. -/
theorem actions_record {e : Engine σ} {q : Request} {s : σ} (h : ∀ o, (q.ending e s).1 ≠ .ok (.completed o)) :
    (q.record e s).actions = [] := by
  change ExecutedAction.ofEnd (q.ending e s).1 = []
  rcases hending : (q.ending e s).1 with cause | ⟨o | reason⟩
  · rfl
  · exact absurd hending (h o)
  · rfl

section Watched

variable (b : Backend σ) (settings : Settings) (q : Request) (s : σ)

/-- What is asked of the backend for the run, and then for its end. -/
theorem effects_answer :
    let e : Engine (Watched σ) := ⟨b.watched, settings⟩
    ∃ lost, (q.answer e ⟨s, []⟩).2.effects = (q.ending e ⟨s, []⟩).2.effects ++
      endEffects (endReport q.invocation (q.ending e ⟨s, []⟩).1)
        (metricsOf (q.answer e ⟨s, []⟩).1.tag (q.record e ⟨s, []⟩).durationMs) (q.record e ⟨s, []⟩) lost := by
  intro e
  obtain ⟨lost, h⟩ := effects_record b q.invocation (q.ending e) ⟨s, []⟩
  rw [← outcomeTag_ending, congrFun (q.answer_eq e) ⟨s, []⟩]
  exact ⟨lost, h⟩

theorem ofRun_ending :
    ∀ x ∈ (q.ending (⟨b.watched, settings⟩ : Engine (Watched σ)) ⟨s, []⟩).2.effects, x.ofRun = true :=
  q.ending_ofRun b settings (List.forall_mem_nil _)

theorem records_answer :
    let e : Engine (Watched σ) := ⟨b.watched, settings⟩
    (q.answer e ⟨s, []⟩).2.effects.filterMap Effect.record? = [q.record e ⟨s, []⟩] := by
  intro e
  obtain ⟨lost, h⟩ := q.effects_answer b settings s
  rw [h, List.filterMap_append, filterMap_of_ofRun (fun _ => record?_of_ofRun) (q.ofRun_ending b settings s),
    filterMap_record?_endEffects, List.nil_append]

theorem metrics_answer :
    let e : Engine (Watched σ) := ⟨b.watched, settings⟩
    (q.answer e ⟨s, []⟩).2.effects.filterMap Effect.metric? =
      metricsOf (q.answer e ⟨s, []⟩).1.tag (q.record e ⟨s, []⟩).durationMs := by
  intro e
  obtain ⟨lost, h⟩ := q.effects_answer b settings s
  rw [h, List.filterMap_append, filterMap_of_ofRun (fun _ => metric?_of_ofRun) (q.ofRun_ending b settings s),
    filterMap_metric?_endEffects, List.nil_append]

/-- How records are kept makes no difference to what is answered, nor to what can be told from outside. -/
theorem answer_insertRecord (insert : ExecutionRecord → Ask σ Unit) :
    let e : Engine (Watched σ) := ⟨b.watched, settings⟩
    let e' : Engine (Watched σ) := ⟨{ b with insertRecord := insert }.watched, settings⟩
    (q.answer e' ⟨s, []⟩).1 = (q.answer e ⟨s, []⟩).1 ∧
      (q.answer e' ⟨s, []⟩).2.effects.filter Effect.isOutward =
        (q.answer e ⟨s, []⟩).2.effects.filter Effect.isOutward := by
  intro e e'
  have hending : q.ending e' = q.ending e := by cases q <;> rfl
  have hanswer : (q.answer e' ⟨s, []⟩).1 = (q.answer e ⟨s, []⟩).1 := by rw [answer_fst, answer_fst, hending]
  have hrecord : q.record e' ⟨s, []⟩ = q.record e ⟨s, []⟩ :=
    congrArg (recordOf b.watched q.invocation · ⟨s, []⟩) hending
  obtain ⟨lost, h⟩ := q.effects_answer b settings s
  obtain ⟨lost', h'⟩ := q.effects_answer { b with insertRecord := insert } settings s
  refine ⟨hanswer, ?_⟩
  rw [h, h', hending, hanswer, hrecord, List.filter_append, List.filter_append, filter_isOutward_endEffects _ _ _ lost,
    filter_isOutward_endEffects _ _ _ lost']

end Watched

end Request

/-- However a run ends and whatever its backend does, one execution record is handed over and two metrics are published,
and they tell the same as the result.  A record lists the outputs of a walk that completes, in the order in which its
nodes were first visited, and nothing of any other run.  Neither the result nor anything that can be told from outside
depends on whether the record can be kept. -/
theorem run_accounted (b : Backend σ) (settings : Settings) (q : Request) (s : σ) :
    let e : Engine (Watched σ) := ⟨b.watched, settings⟩
    let ending := (q.ending e ⟨s, []⟩).1
    let result := (q.answer e ⟨s, []⟩).1
    let effects := (q.answer e ⟨s, []⟩).2.effects
    q.answer ⟨b, settings⟩ s = (result, (q.answer e ⟨s, []⟩).2.stores) ∧
    (∃ r : ExecutionRecord, effects.filterMap Effect.record? = [r] ∧ r.Agrees q.invocation result ∧
      (result.error.isSome = true ↔ result.success = false) ∧ (result.result.isSome = true ↔ result.success = true) ∧
      (result.isSkipped = true ↔ ∃ reason, ending = .ok (.skipped reason)) ∧
      (∀ o, ending = .ok (.completed o) → r.Lists o (q.calls e ⟨s, []⟩) result) ∧
      ((∀ o, ending ≠ .ok (.completed o)) → r.actions = []) ∧
      effects.filterMap Effect.metric? =
        [.increment "rule.execution" [("outcome", result.tag)],
          .timing "rule.execution.duration" r.durationMs [("outcome", result.tag)]]) ∧
    ∀ insert : ExecutionRecord → Ask σ Unit,
      let e' : Engine (Watched σ) := ⟨{ b with insertRecord := insert }.watched, settings⟩
      (q.answer e' ⟨s, []⟩).1 = result ∧
        (q.answer e' ⟨s, []⟩).2.effects.filter Effect.isOutward = effects.filter Effect.isOutward := by
  intro e ending result effects
  have hresult : result = .ofEnd ending := q.answer_fst e ⟨s, []⟩
  have hwatched := q.alike_answer b.alike_watched settings ⟨s, []⟩ s rfl
  refine ⟨Prod.ext hwatched.1.symm hwatched.2.symm, ⟨q.record e ⟨s, []⟩, q.records_answer b settings s, ?_, ?_, ?_, ?_,
    fun _ => q.lists_record, q.actions_record, q.metrics_answer b settings s⟩, q.answer_insertRecord b settings s⟩
  · rw [hresult]
    exact ExecutionRecord.agrees_ofRun _ _ _ _ _
  · rw [hresult]
    exact RunResult.isSome_error_iff
  · rw [hresult]
    exact RunResult.isSome_result_iff
  · rw [hresult]
    exact RunResult.isSkipped_iff

end Engine

end RuleFlow
