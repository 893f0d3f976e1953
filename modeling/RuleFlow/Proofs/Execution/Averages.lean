import RuleFlow.Proofs.Execution.Durations
import RuleFlow.Proofs.Number.Integers
/-! # Average durations

The average is taken of the exact sum of the durations; where that is too large for a word of 64 bits, there is none.
Main statement: `average_of_records`. -/
namespace RuleFlow.ExecutionStats

open Binary64 (Denotes nearest)
open Float.Model (UnpackedFloat Format)

theorem denotes_toFloat (n : UInt64) : Denotes n.toFloat.toModel.unpack (nearest n.toNat) := by
  have h := Binary64.denotes_unpacked_ofNat n.toNat_lt
  rw [Binary64.nearest_natCast]
  change Denotes (Float.Model.pack (UnpackedFloat.ofNat Format.binary64 n.toNat)).unpack _
  rwa [h.unpack_pack]

/-- There is an average just if the sum of the durations is a word.  Then it is the quotient of the floats of the exact
sum and of the number of records, and zero if there are no records. -/
theorem average_of_records (records : List ExecutionRecord) :
    (ofRecords? records = none ↔ 2 ^ 64 ≤ exactDuration records) ∧
    ∀ s, ofRecords? records = some s →
      (records = [] → s.averageDurationMs = 0.0) ∧
      (records ≠ [] → ∃ x y : Float, s.averageDurationMs = x / y ∧
        Denotes x.toModel.unpack (nearest (exactDuration records)) ∧
        (records.length < 2 ^ 64 → Denotes y.toModel.unpack (nearest records.length))) := by
  refine ⟨ofRecords?_eq_none_iff, fun s hs => ?_⟩
  obtain ⟨total, htotal, heq⟩ := Option.bind_eq_some_iff.1 hs
  obtain rfl := Option.some.inj heq
  refine ⟨fun hnone => if_pos (by rw [hnone, List.length_nil]), fun hsome => ?_⟩
  refine ⟨total.toFloat, records.length.toFloat, if_neg (by simpa using hsome), ?_, fun hlength => ?_⟩
  · rw [← toNat_of_totalDuration? htotal]
    exact denotes_toFloat total
  · rw [Binary64.nearest_natCast]
    exact Binary64.denotes_ofNat hlength

def lasting (durationMs : UInt64) : ExecutionRecord :=
  ⟨"e", "r", "t", "well", "manual", .null, ⟨0, 0⟩, ⟨0, 0⟩, durationMs, true, none, none, []⟩

/-- A run as long as a word can tell and one of a millisecond take 2^64 together, of which there is no average, though
2^63 is one. -/
theorem average_of_overflow :
    let records := [lasting 18446744073709551615, lasting 1]
    exactDuration records = 2 ^ 64 ∧ exactDuration records / records.length = 9223372036854775808 ∧
    totalDuration? records = none ∧ ofRecords? records = none := by
  intro records
  exact ⟨by decide, by decide, by decide, ofRecords?_eq_none_iff.2 (by decide)⟩

/-- The average of two runs. -/
theorem average_of_two : ∃ s, ofRecords? [lasting 3, lasting 4] = some s ∧
    ∃ x y : Float, s.averageDurationMs = x / y ∧ Denotes x.toModel.unpack (nearest (7 : Nat)) ∧
      Denotes y.toModel.unpack (nearest (2 : Nat)) := by
  obtain ⟨hnone, haverage⟩ := average_of_records [lasting 3, lasting 4]
  obtain ⟨s, hs⟩ := Option.ne_none_iff_exists'.1 (mt hnone.1 (by decide))
  obtain ⟨x, y, hquotient, hsum, hcount⟩ := (haverage s hs).2 (by simp)
  exact ⟨s, hs, x, y, hquotient, hsum, hcount (by decide)⟩

end RuleFlow.ExecutionStats
