import Mathlib.Algebra.Ring.Nat
import RuleFlow.Execution.Stats
/-! # Sums of durations

Each word that is added may be one too many, but it is so only if the sum of all is too large: the words are added up
just if their exact sum is a word, and then they give it.  Main statement: `totalDuration?_eq`. -/
namespace RuleFlow.ExecutionStats

variable {records : List ExecutionRecord}

/-- The sum of the durations, of any size. -/
def exactDuration (records : List ExecutionRecord) : Nat := (records.map (·.durationMs.toNat)).sum

theorem foldlM_add? (records : List ExecutionRecord) (start : UInt64) :
    records.foldlM (fun total r => add? total r.durationMs) start =
      if start.toNat + exactDuration records < UInt64.size then some (.ofNat (start.toNat + exactDuration records))
      else none := by
  induction records generalizing start with
  | nil =>
    have hstart : start.toNat + exactDuration [] = start.toNat := rfl
    rw [hstart, if_pos start.toNat_lt, UInt64.ofNat_toNat]
    rfl
  | cons r rest ih =>
    have hsum : exactDuration (r :: rest) = r.durationMs.toNat + exactDuration rest := List.sum_cons
    rw [List.foldlM_cons, add?, hsum, ← Nat.add_assoc]
    by_cases hnext : start.toNat + r.durationMs.toNat < UInt64.size
    · have hword : (start + r.durationMs).toNat = start.toNat + r.durationMs.toNat := by
        rw [UInt64.toNat_add, Nat.mod_eq_of_lt hnext]
      rw [if_pos hnext, ← hword]
      exact ih _
    · -- what is added later makes the sum no smaller
      rw [if_neg hnext, if_neg (by omega)]
      rfl

theorem totalDuration?_eq (records : List ExecutionRecord) :
    totalDuration? records =
      if exactDuration records < UInt64.size then some (.ofNat (exactDuration records)) else none := by
  rw [totalDuration?, foldlM_add?, UInt64.toNat_zero, Nat.zero_add]

theorem toNat_of_totalDuration? {total : UInt64} (h : totalDuration? records = some total) :
    total.toNat = exactDuration records := by
  rw [totalDuration?_eq] at h
  split at h
  · next hlt =>
    obtain rfl := Option.some.inj h
    exact UInt64.toNat_ofNat_of_lt hlt
  · cases h

theorem ofRecords?_eq_none_iff : ofRecords? records = none ↔ UInt64.size ≤ exactDuration records := by
  have hnone : ofRecords? records = none ↔ totalDuration? records = none := by
    unfold ofRecords?
    cases totalDuration? records <;> simp
  rw [hnone, totalDuration?_eq, ← Nat.not_lt]
  split <;> simp_all

end RuleFlow.ExecutionStats
