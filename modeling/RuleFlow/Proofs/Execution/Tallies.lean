import Mathlib.Data.List.Induction
import RuleFlow.Proofs.Execution.Listing
/-! # Statistics record by record

The records of a rule are gone through once, while five figures are kept.  What holds of the figures after some records
is kept by one record more, and so they tell of all records, in whatever order these come.  Main statement:
`ofRecords_tallied`. -/
namespace RuleFlow.ExecutionStats

structure Tally where
  total : Nat := 0
  succeeded : Nat := 0
  failed : Nat := 0
  duration : UInt64 := 0
  last : Option Instant := none

namespace Tally

/-- Takes one more record into account, if its duration can be added.  The end of its run is kept if it is later than
the one that is kept. -/
def add? (s : Tally) (r : ExecutionRecord) : Option Tally := do
  let duration ← ExecutionStats.add? s.duration r.durationMs
  return {
    total := s.total + 1
    succeeded := if r.success then s.succeeded + 1 else s.succeeded
    failed := if r.success then s.failed else s.failed + 1
    duration
    last :=
      match s.last with
      | none => some r.completedAt
      | some t => if r.completedAt.le t then some t else some r.completedAt }

def ofRecords? (records : List ExecutionRecord) : Option Tally := records.foldlM add? {}

def stats (s : Tally) : ExecutionStats where
  total := s.total
  succeeded := s.succeeded
  failed := s.failed
  averageDurationMs := if 0 < s.total then s.duration.toFloat / s.total.toFloat else 0.0
  lastExecutedAt := s.last

end Tally

/-- Whether an instant is the latest end of some runs; there is none if there are no runs. -/
def IsLatest (records : List ExecutionRecord) : Option Instant → Prop
  | none => records = []
  | some t => (∃ r ∈ records, r.completedAt = t) ∧ ∀ r ∈ records, r.completedAt.le t = true

structure Tally.Tells (s : Tally) (records : List ExecutionRecord) : Prop where
  total : s.total = records.length
  succeeded : s.succeeded = records.countP (·.success)
  failed : s.failed = records.countP (!·.success)
  duration : totalDuration? records = some s.duration
  last : records.foldl later none = s.last

variable {records : List ExecutionRecord} {r : ExecutionRecord} {s : Tally}

theorem isLatest_concat {last : Option Instant} (h : IsLatest records last) (r : ExecutionRecord) :
    IsLatest (records ++ [r]) (later last r) := by
  cases last with
  | none =>
    obtain rfl : records = [] := h
    refine ⟨⟨r, List.mem_cons_self, rfl⟩, fun other hother => ?_⟩
    obtain rfl := List.mem_singleton.1 hother
    exact (Instant.le_total _ _).elim id id
  | some t =>
    obtain ⟨⟨latest, hlatest, rfl⟩, hall⟩ := h
    have hbound (t : Instant) (hold : latest.completedAt.le t = true) (hnew : r.completedAt.le t = true) :
        ∀ other ∈ records ++ [r], other.completedAt.le t = true := by
      intro other hother
      rcases List.mem_append.1 hother with hold' | hnew'
      · exact Instant.le_trans (hall other hold') hold
      · obtain rfl := List.mem_singleton.1 hnew'
        exact hnew
    rcases Instant.le_total latest.completedAt r.completedAt with hle | hle
    · rw [later, Instant.max_eq_right hle]
      exact ⟨⟨r, by simp, rfl⟩, hbound _ hle ((Instant.le_total _ _).elim id id)⟩
    · rw [later, Instant.max_eq_left hle]
      exact ⟨⟨latest, by simp [hlatest], rfl⟩, hbound _ ((Instant.le_total _ _).elim id id) hle⟩

/-- To keep the end of a run only if it is later is to keep the later one. -/
theorem Tally.last_add? {s' : Tally} (h : s.add? r = some s') : s'.last = later s.last r := by
  obtain ⟨_, -, heq⟩ := Option.bind_eq_some_iff.1 h
  obtain rfl := Option.some.inj heq
  dsimp only
  cases s.last with
  | none => rfl
  | some t =>
    change (if r.completedAt.le t then some t else some r.completedAt) = some (t.max r.completedAt)
    split
    · next hle => rw [Instant.max_eq_left hle]
    · next hlt => rw [Instant.max_eq_right ((Instant.le_total _ _).resolve_right hlt)]

theorem totalDuration?_concat (records : List ExecutionRecord) (r : ExecutionRecord) :
    totalDuration? (records ++ [r]) = (totalDuration? records).bind fun total => add? total r.durationMs := by
  rw [totalDuration?, List.foldlM_append]
  exact Option.bind_congr fun total _ => bind_pure _

theorem Tally.Tells.add? (h : s.Tells records) {s' : Tally} (hadd : s.add? r = some s') :
    s'.Tells (records ++ [r]) := by
  have hlast := Tally.last_add? hadd
  obtain ⟨duration, hduration, heq⟩ := Option.bind_eq_some_iff.1 hadd
  obtain rfl := Option.some.inj heq
  refine ⟨?_, ?_, ?_, ?_, ?_⟩
  · rw [List.length_append, List.length_singleton, ← h.total]
  · rw [List.countP_append, List.countP_singleton, ← h.succeeded]
    split <;> rfl
  · rw [List.countP_append, List.countP_singleton, ← h.failed]
    cases r.success <;> rfl
  · rw [totalDuration?_concat, h.duration]
    exact hduration
  · rw [List.foldl_append, h.last]
    exact hlast.symm

/-- The figures are kept until a duration cannot be added. -/
theorem Tally.Tells.foldlM (h : s.Tells records) (more : List ExecutionRecord) :
    match more.foldlM Tally.add? s with
    | some s' => s'.Tells (records ++ more)
    | none => totalDuration? (records ++ more) = none := by
  induction more generalizing s records with
  | nil => simpa using h
  | cons r rest ih =>
    rw [List.foldlM_cons, List.append_cons]
    cases hadd : s.add? r with
    | some s' => exact ih (h.add? hadd)
    | none =>
      have hnone : ExecutionStats.add? s.duration r.durationMs = none := by
        cases hsum : ExecutionStats.add? s.duration r.durationMs with
        | none => rfl
        | some duration =>
          rw [Tally.add?, hsum] at hadd
          cases hadd
      rw [totalDuration?, List.foldlM_append, ← totalDuration?, totalDuration?_concat, h.duration]
      exact congrArg (Option.bind · _) hnone

/-- The latest end of some runs is kept from the first run on. -/
theorem isLatest_foldl (records : List ExecutionRecord) : IsLatest records (records.foldl later none) := by
  induction records using List.reverseRecOn with
  | nil => rfl
  | append_singleton records r ih =>
    rw [List.foldl_append]
    exact isLatest_concat ih r

theorem IsLatest.unique {a b : Option Instant} (ha : IsLatest records a) (hb : IsLatest records b) : a = b := by
  cases a with
  | none =>
    obtain rfl : records = [] := ha
    cases b with
    | none => rfl
    | some t =>
      obtain ⟨⟨r, hr, -⟩, -⟩ := hb
      cases hr
  | some t =>
    obtain ⟨⟨r, hr, rfl⟩, hall⟩ := ha
    cases b with
    | none =>
      obtain rfl : records = [] := hb
      cases hr
    | some t' =>
      obtain ⟨⟨r', hr', rfl⟩, hall'⟩ := hb
      exact congrArg some (Instant.le_antisymm (hall' r hr) (hall r' hr'))

/-- The statistics of records are the figures that are left when all have been gone through. -/
theorem stats_ofRecords? (records : List ExecutionRecord) :
    (Tally.ofRecords? records).map Tally.stats = ofRecords? records := by
  have hstart : Tally.Tells {} [] := ⟨rfl, rfl, rfl, rfl, rfl⟩
  have htells := hstart.foldlM records
  rw [List.nil_append] at htells
  rw [Tally.ofRecords?]
  cases hs : records.foldlM Tally.add? {} with
  | none =>
    rw [hs] at htells
    rw [ofRecords?, htells]
    rfl
  | some s =>
    rw [hs] at htells
    have haverage : (if 0 < records.length then s.duration.toFloat / records.length.toFloat else 0.0) =
        averageDuration s.duration records.length := by
      cases records with
      | nil => rfl
      | cons r rest => rw [if_pos (by simp), averageDuration, if_neg (by simp)]
    rw [Option.map_some, Tally.stats, ofRecords?, htells.duration, htells.total, htells.succeeded, htells.failed,
      haverage, ← htells.last]
    rfl

/-- Statistics are those of one passage through the records, which comes to its end just if the durations can be added
up.  They count all records and those of each kind, and they have the latest end of all runs, if there are runs.  In
another order the same records have the same statistics. -/
theorem ofRecords_tallied (records : List ExecutionRecord) :
    ofRecords? records = (Tally.ofRecords? records).map Tally.stats ∧
    (ofRecords? records = none ↔ 2 ^ 64 ≤ exactDuration records) ∧
    (∀ s, ofRecords? records = some s →
      s.total = records.length ∧ s.total = s.succeeded + s.failed ∧
      s.succeeded = (records.filter (·.success)).length ∧
      (s.lastExecutedAt = none ↔ records = []) ∧
      ∀ t, s.lastExecutedAt = some t ↔
        (∃ r ∈ records, r.completedAt = t) ∧ ∀ r ∈ records, r.completedAt.le t = true) ∧
    ∀ others, others.Perm records → ofRecords? others = ofRecords? records := by
  refine ⟨(stats_ofRecords? records).symm, ofRecords?_eq_none_iff, fun s hs => ?_, fun others => ofRecords?_perm⟩
  obtain ⟨duration, -, heq⟩ := Option.bind_eq_some_iff.1 hs
  obtain rfl := Option.some.inj heq
  have hunique {last : Option Instant} : records.foldl later none = last ↔ IsLatest records last :=
    ⟨fun h => h ▸ isLatest_foldl records, (isLatest_foldl records).unique⟩
  have hsum : records.length = records.countP (·.success) + records.countP (!·.success) := by
    simpa using List.length_eq_countP_add_countP ExecutionRecord.success
  exact ⟨rfl, hsum, List.countP_eq_length_filter, hunique, fun t => hunique⟩

def ended (seconds : Int) (success : Bool) : ExecutionRecord :=
  ⟨"e", "r", "t", "well", "manual", .null, ⟨0, 0⟩, ⟨seconds, 0⟩, 1000, success, none, none, []⟩

/-- The later of two runs is found whether it comes first or last. -/
theorem ofRecords_two_orders :
    let early := ended 1 false
    let late := ended 61 true
    [late, early].Perm [early, late] ∧ ofRecords? [late, early] = ofRecords? [early, late] ∧
    ∃ s, ofRecords? [late, early] = some s ∧ s.succeeded = 1 ∧ s.failed = 1 ∧ s.lastExecutedAt = some ⟨61, 0⟩ := by
  intro early late
  obtain ⟨-, hnone, htells, hperm⟩ := ofRecords_tallied [early, late]
  have hswap : [late, early].Perm [early, late] := .swap early late []
  have hsame := hperm _ hswap
  obtain ⟨s, hs⟩ := Option.ne_none_iff_exists'.1 (mt hnone.1 (by decide))
  obtain ⟨htotal, hsum, hsucceeded, -, hlast⟩ := htells s hs
  have hone : s.succeeded = 1 := hsucceeded
  have hfailed : s.failed = 1 := by
    rw [htotal, hone] at hsum
    exact (Nat.add_left_cancel hsum).symm
  refine ⟨hswap, hsame, s, hsame.trans hs, hone, hfailed, ?_⟩
  rw [hlast]
  exact ⟨⟨late, by simp, rfl⟩, by decide⟩

end RuleFlow.ExecutionStats
