import RuleFlow.Backend.Faults
import RuleFlow.Backend.Memory
import RuleFlow.Engine.Basic
import RuleFlow.Proofs.Walk.Keeps
/-! # One record for each run

The engine hands over one execution record for each run, for the rule, the tenant and the asset of the run, however the
run ends: `Engine.record_logs`.  What is handed over is read off a log of the stores, to which nothing but
`insertRecord` adds.  The log of the stores in memory is such a log; and every backend can be made to write down what
it is handed, also where its own log fails. -/
namespace RuleFlow

variable {σ : Type}

def ExecutionRecord.subject (r : ExecutionRecord) : String × String × String := (r.ruleId, r.tenantId, r.assetId)

/-- Whether a log of the stores holds the execution records that a backend has been handed. -/
structure Backend.Logs (b : Backend σ) (log : σ → Option (List ExecutionRecord)) : Prop where
  keeps (rs : List ExecutionRecord) : b.Keeps fun s => log s = some rs
  insertRecord (r : ExecutionRecord) {s : σ} {rs : List ExecutionRecord} (h : log s = some rs) :
    log (b.insertRecord r s).2 = some (rs ++ [r])

def ExecutionLog.memory? : ExecutionLog → Option (List ExecutionRecord)
  | .memory rs => some rs
  | _ => none

theorem Memory.log_reportAll (m : Memory) (entries : List Journal.Entry) : (m.reportAll entries).log = m.log := by
  unfold reportAll
  induction entries generalizing m with
  | nil => rfl
  | cons e rest ih => exact ih (m.report e)

theorem Memory.logs : Memory.backend.Logs fun m => m.log.memory? where
  keeps rs :=
    { findRule := fun _ _ _ h => h
      activeRules := fun _ _ h => h
      findAsset := fun _ _ _ h => h
      updateAsset := fun _ _ _ _ h => h
      replaceComputed := fun _ _ _ _ h => h
      raise := fun _ _ h => (congrArg ExecutionLog.memory? (log_reportAll _ _)).trans h
      publish := fun _ _ h => h
      report := fun _ _ h => h
      freshId := fun h => h }
  insertRecord r s rs h := by
    obtain ⟨_, _, log, _, _, _, _, _⟩ := s
    cases log with
    | memory rs' =>
      obtain rfl : rs' = rs := Option.some.inj h
      rfl
    | _ => cases h

/-- Stores with the records that have been handed over, whether they could be kept or not. -/
structure Recorded (σ : Type) where
  stores : σ
  records : List ExecutionRecord

def Recorded.below {α : Type} (f : StateM σ α) : StateM (Recorded σ) α := fun s =>
  let (a, stores) := f s.stores
  (a, { s with stores })

def Backend.recorded (b : Backend σ) : Backend (Recorded σ) where
  findRule rule tenant := Recorded.below (b.findRule rule tenant)
  activeRules tenant := Recorded.below (b.activeRules tenant)
  readDelay s := b.readDelay s.stores
  workTime s := b.workTime s.stores
  findAsset tenant asset := Recorded.below (b.findAsset tenant asset)
  updateAsset tenant asset change := Recorded.below (b.updateAsset tenant asset change)
  replaceComputed tenant asset values := Recorded.below (b.replaceComputed tenant asset values)
  raise alarm := Recorded.below (b.raise alarm)
  insertRecord r := fun s => Recorded.below (b.insertRecord r) { s with records := s.records ++ [r] }
  publish metric := Recorded.below (b.publish metric)
  report e := Recorded.below (b.report e)
  now s := b.now s.stores
  freshId := Recorded.below b.freshId

theorem Backend.logs_recorded (b : Backend σ) : b.recorded.Logs fun s => some s.records where
  keeps _ := ⟨fun _ _ _ h => h, fun _ _ h => h, fun _ _ _ h => h, fun _ _ _ _ h => h, fun _ _ _ _ h => h,
    fun _ _ h => h, fun _ _ h => h, fun _ _ h => h, fun h => h⟩
  insertRecord r s rs h := by
    obtain rfl : s.records = rs := Option.some.inj h
    rfl

namespace Engine

variable {b : Backend σ} {log : σ → Option (List ExecutionRecord)} {rs : List ExecutionRecord} {s : σ}

theorem record_logs (hb : b.Logs log) (inv : Invocation) {run : StateM σ (Except RunError Outcome)}
    (hrun : log (run s).2 = some rs) :
    ∃ r : ExecutionRecord, r.subject = (inv.ruleId, inv.tenantId, inv.assetId) ∧
      log (record b inv run s).2 = some (rs ++ [r]) := by
  have hkeeps := hb.keeps rs
  let ending := (run s).1
  let s₁ := (run s).2
  let r := ExecutionRecord.ofRun (b.freshId s₁).1 inv (b.now s) (b.now s₁) ending
  have hfresh : log (b.freshId s₁).2 = some rs := hkeeps.freshId hrun
  have hreport : log (reportOption b (endReport inv ending) (b.freshId s₁).2).2 = some rs := by
    cases endReport inv ending with
    | none => exact hfresh
    | some e => exact hkeeps.report e hfresh
  let s₂ := (reportOption b (endReport inv ending) (b.freshId s₁).2).2
  have hpublish : log (publishRun b (outcomeTag ending) r.durationMs s₂).2 = some rs :=
    hkeeps.publish _ (hkeeps.publish _ hreport)
  let s₃ := (publishRun b (outcomeTag ending) r.durationMs s₂).2
  have hinsert : log (b.insertRecord r s₃).2 = some (rs ++ [r]) := hb.insertRecord r hpublish
  have hkeep : log (keep b r s₃).2 = some (rs ++ [r]) := by
    have hsplit : (keep b r s₃).2 = match b.insertRecord r s₃ with
        | (.ok _, s') => s'
        | (.error e, s') => (b.report (lostEntry r e) s').2 := by
      simp only [keep, bind, StateT.bind]
      rcases b.insertRecord r s₃ with ⟨_ | _, _⟩ <;> rfl
    rw [hsplit]
    rcases hi : b.insertRecord r s₃ with ⟨e | _, s'⟩
    · rw [hi] at hinsert
      exact (hb.keeps _).report _ hinsert
    · rw [hi] at hinsert
      exact hinsert
  exact ⟨r, rfl, hkeep⟩

theorem execute_logs {e : Engine σ} (hb : e.backend.Logs log) (rule : Rule) (asset tenant : String)
    (kind : TriggerKind) (payload : Json) (h : log s = some rs) :
    ∃ r : ExecutionRecord, r.subject = (rule.id, tenant, asset) ∧
      log (e.execute rule asset tenant kind payload s).2 = some (rs ++ [r]) :=
  record_logs hb ⟨rule.id, tenant, asset, kind, payload⟩
    (rule.run_keeps (hb.keeps rs) e.settings.timeoutMs asset tenant payload h)

end Engine

end RuleFlow
