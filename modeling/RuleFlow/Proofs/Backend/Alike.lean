import RuleFlow.Backend.Faults
import RuleFlow.Backend.Memory
import RuleFlow.Proofs.Agreement
/-! # Backends that answer alike

Two backends are alike if from related states they give the same answers and come to related states.  A backend sets its
journal apart if it is alike to itself from all states that look the same, and what the engine reports changes nothing
that is looked at.  Main statements: the backend in memory is of this kind, looked at without the entries of the engine,
and so is every backend of this kind that is made to fail. -/
namespace RuleFlow

variable {σ σ' ν : Type}

/-- Whether two backends give the same answers from related states, and leave related states. -/
structure Backend.Alike (b : Backend σ) (b' : Backend σ') (R : σ → σ' → Prop) : Prop where
  findRule (rule tenant : String) : RuleFlow.Alike R Eq (b.findRule rule tenant) (b'.findRule rule tenant)
  activeRules (tenant : String) : RuleFlow.Alike R Eq (b.activeRules tenant) (b'.activeRules tenant)
  readDelay {s : σ} {s' : σ'} (h : R s s') : b.readDelay s = b'.readDelay s'
  workTime {s : σ} {s' : σ'} (h : R s s') : b.workTime s = b'.workTime s'
  findAsset (tenant asset : String) : RuleFlow.Alike R Eq (b.findAsset tenant asset) (b'.findAsset tenant asset)
  updateAsset (tenant asset : String) (change : AssetUpdate) :
    RuleFlow.Alike R Eq (b.updateAsset tenant asset change) (b'.updateAsset tenant asset change)
  replaceComputed (tenant asset : String) (values : Json.Object) :
    RuleFlow.Alike R Eq (b.replaceComputed tenant asset values) (b'.replaceComputed tenant asset values)
  raise (alarm : Alarm) : RuleFlow.Alike R Eq (b.raise alarm) (b'.raise alarm)
  insertRecord (r : ExecutionRecord) : RuleFlow.Alike R Eq (b.insertRecord r) (b'.insertRecord r)
  publish (metric : Metric) : RuleFlow.Alike R Eq (b.publish metric) (b'.publish metric)
  report (e : Journal.Entry) : RuleFlow.Alike R Eq (b.report e) (b'.report e)
  now {s : σ} {s' : σ'} (h : R s s') : b.now s = b'.now s'
  freshId : RuleFlow.Alike R Eq b.freshId b'.freshId

abbrev SameView (view : σ → ν) (s s' : σ) : Prop := view s = view s'

/-- Whether all that a backend answers and does can be told from what is looked at, and nothing of that is changed by
the reports of the engine. -/
structure Backend.JournalApart (b : Backend σ) (view : σ → ν) : Prop where
  alike : b.Alike b (SameView view)
  report (e : Journal.Entry) (he : e.part = .engine) (s : σ) : view (b.report e s).2 = view s

namespace Memory

def outward (m : Memory) : Memory := { m with journal := m.journal.filter (·.part ≠ .engine) }

theorem outward_report (m : Memory) (e : Journal.Entry) :
    (m.report e).outward = if e.part = .engine then m.outward else m.outward.report e := by
  unfold report outward
  split <;> simp_all

theorem outward_reportAll {m m' : Memory} (h : m.outward = m'.outward) (entries : List Journal.Entry) :
    (m.reportAll entries).outward = (m'.reportAll entries).outward := by
  unfold reportAll
  induction entries generalizing m m' with
  | nil => exact h
  | cons e rest ih =>
    apply ih
    rw [outward_report, outward_report, h]

theorem outward_eq_iff {m m' : Memory} : m.outward = m'.outward ↔
    ∃ journal, journal.filter (·.part ≠ .engine) = m.journal.filter (·.part ≠ .engine) ∧
      m' = { m with journal } := by
  obtain ⟨rules, assets, log, alarms, metrics, journal, clock, serial⟩ := m
  obtain ⟨rules', assets', log', alarms', metrics', journal', clock', serial'⟩ := m'
  simp only [outward, mk.injEq]
  constructor
  · rintro ⟨rfl, rfl, rfl, rfl, rfl, hj, rfl, rfl⟩
    exact ⟨journal', hj.symm, rfl, rfl, rfl, rfl, rfl, rfl, rfl, rfl⟩
  · rintro ⟨_, hj, rfl, rfl, rfl, rfl, rfl, rfl, rfl, rfl⟩
    exact ⟨rfl, rfl, rfl, rfl, rfl, hj.symm, rfl, rfl⟩

/-- An operation that does not look at the journal, and after which it is told from what was there before, does the same
to stores that look the same. -/
theorem alike_of_journal {α : Type} {f : StateM Memory α}
    (hf : ∀ m journal, journal.filter (·.part ≠ .engine) = m.journal.filter (·.part ≠ .engine) →
      (f m).1 = (f { m with journal }).1 ∧ (f m).2.outward = (f { m with journal }).2.outward) :
    Alike (SameView outward) Eq f f := by
  intro m m' h
  obtain ⟨journal, hj, rfl⟩ := outward_eq_iff.1 h
  exact hf m journal hj

theorem outward_congr {m : Memory} {journal : Array Journal.Entry}
    (hj : journal.filter (·.part ≠ .engine) = m.journal.filter (·.part ≠ .engine)) :
    m.outward = { m with journal }.outward :=
  outward_eq_iff.2 ⟨journal, hj, rfl⟩

theorem alike : backend.Alike backend (SameView outward) where
  findRule _ _ := alike_of_journal fun _ _ hj => ⟨rfl, outward_congr hj⟩
  activeRules _ := alike_of_journal fun _ _ hj => ⟨rfl, outward_congr hj⟩
  readDelay _ := rfl
  workTime _ := rfl
  findAsset _ _ := alike_of_journal fun _ _ hj => ⟨rfl, outward_congr hj⟩
  updateAsset _ _ _ := alike_of_journal fun _ _ hj => ⟨rfl, outward_congr hj⟩
  replaceComputed _ _ _ := alike_of_journal fun _ _ hj => ⟨rfl, outward_congr hj⟩
  raise alarm := alike_of_journal fun m journal hj => by
    have h : ({ m with alarms := (m.alarms.raise alarm).1 } : Memory).outward =
        { m with alarms := (m.alarms.raise alarm).1, journal }.outward := outward_congr hj
    exact ⟨rfl, outward_reportAll h _⟩
  insertRecord r := alike_of_journal fun m journal hj => by
    have h : ({ m with log := (m.log.insert r).2.1 } : Memory).outward =
        { m with log := (m.log.insert r).2.1, journal }.outward := outward_congr hj
    exact ⟨rfl, outward_reportAll h _⟩
  publish _ := alike_of_journal fun _ _ hj => ⟨rfl, outward_congr hj⟩
  report e := alike_of_journal fun m journal hj => ⟨rfl, outward_reportAll (outward_congr hj) [e]⟩
  now {m m'} h := by
    obtain ⟨journal, -, rfl⟩ := outward_eq_iff.1 h
    rfl
  freshId := alike_of_journal fun _ _ hj => ⟨rfl, outward_congr hj⟩

theorem journalApart : backend.JournalApart outward where
  alike := alike
  report e he m := by
    change (m.report e).outward = m.outward
    rw [outward_report, if_pos he]

end Memory

namespace Faults

variable {ν : Type} {b : Backend σ} {view : σ → ν}

def look (view : σ → ν) (s : Counted σ) : Counted ν := ⟨view s.stores, s.reads, s.writes⟩

theorem alike_below {α : Type} {f : StateM σ α} (h : Alike (SameView view) Eq f f) :
    Alike (SameView (look view)) Eq (below f) (below f) := by
  rintro ⟨s, reads, writes⟩ ⟨s', reads', writes'⟩ hs
  obtain ⟨hview, rfl, rfl⟩ : view s = view s' ∧ reads = reads' ∧ writes = writes' := Counted.mk.inj hs
  obtain ⟨hanswer, hafter⟩ := h s s' hview
  exact ⟨hanswer, congrArg (Counted.mk · reads writes) hafter⟩

theorem alike_guarded {α : Type} (down : Bool) (details : String) {f : Ask σ α} (h : Alike (SameView view) Eq f f) :
    Alike (SameView (look view)) Eq (guarded down details f) (guarded down details f) := by
  unfold guarded
  split
  · exact fun _ _ hs => ⟨rfl, hs⟩
  · exact alike_below h

theorem alike_read (faults : Faults) {α : Type} {f : Ask σ α} (h : Alike (SameView view) Eq f f) :
    Alike (SameView (look view)) Eq (faults.read f) (faults.read f) := by
  rintro ⟨s, reads, writes⟩ ⟨s', reads', writes'⟩ hs
  obtain ⟨hview, rfl, rfl⟩ : view s = view s' ∧ reads = reads' ∧ writes = writes' := Counted.mk.inj hs
  have hlook : look view ⟨s, reads + 1, writes⟩ = look view ⟨s', reads + 1, writes⟩ :=
    congrArg (Counted.mk · (reads + 1) writes) hview
  unfold read
  split
  · exact ⟨rfl, hlook⟩
  · exact alike_below h _ _ hlook

theorem alike_write (faults : Faults) {α : Type} {f : Ask σ α} (h : Alike (SameView view) Eq f f) :
    Alike (SameView (look view)) Eq (faults.write f) (faults.write f) := by
  rintro ⟨s, reads, writes⟩ ⟨s', reads', writes'⟩ hs
  obtain ⟨hview, rfl, rfl⟩ : view s = view s' ∧ reads = reads' ∧ writes = writes' := Counted.mk.inj hs
  have hlook : look view ⟨s, reads, writes + 1⟩ = look view ⟨s', reads, writes + 1⟩ :=
    congrArg (Counted.mk · reads (writes + 1)) hview
  unfold write
  split
  · exact ⟨rfl, hlook⟩
  · exact alike_below h _ _ hlook

theorem view_eq_of_look {s s' : Counted σ} (h : SameView (look view) s s') : view s.stores = view s'.stores :=
  congrArg Counted.stores h

theorem alike (faults : Faults) (hb : b.Alike b (SameView view)) :
    (faults.backend b).Alike (faults.backend b) (SameView (look view)) where
  findRule _ _ := alike_guarded _ _ (hb.findRule _ _)
  activeRules _ := alike_guarded _ _ (hb.activeRules _)
  readDelay h := congrArg (faults.readDelay + ·) (hb.readDelay (view_eq_of_look h))
  workTime h := hb.workTime (view_eq_of_look h)
  findAsset _ _ := alike_read _ (hb.findAsset _ _)
  updateAsset _ _ _ := alike_write _ (hb.updateAsset _ _ _)
  replaceComputed _ _ _ := alike_write _ (hb.replaceComputed _ _ _)
  raise _ := alike_guarded _ _ (hb.raise _)
  insertRecord _ := alike_guarded _ _ (hb.insertRecord _)
  publish _ := alike_below (hb.publish _)
  report _ := alike_below (hb.report _)
  now h := hb.now (view_eq_of_look h)
  freshId := alike_below hb.freshId

theorem journalApart (faults : Faults) (hb : b.JournalApart view) :
    (faults.backend b).JournalApart (look view) where
  alike := faults.alike hb.alike
  report e he s := congrArg (Counted.mk · s.reads s.writes) (hb.report e he s.stores)

end Faults

end RuleFlow
