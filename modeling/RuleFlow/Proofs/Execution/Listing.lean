import Mathlib.Data.List.Nodup
import Mathlib.Data.String.Basic
import RuleFlow.Execution.Log
import RuleFlow.Proofs.Execution.Durations
/-! # The order of listing and statistics

Records are listed by the ends of their runs and then by their ids, which leaves one order for records with different
ids.  Statistics are the same in every order. -/
namespace RuleFlow

namespace Instant

theorem le_iff {a b : Instant} : a.le b = true ↔ a.seconds < b.seconds ∨ a.seconds = b.seconds ∧ a.nanos ≤ b.nanos := by
  simp [le]

theorem le_total (a b : Instant) : a.le b = true ∨ b.le a = true := by
  rw [le_iff, le_iff]
  omega

theorem le_trans {a b c : Instant} (hab : a.le b = true) (hbc : b.le c = true) : a.le c = true := by
  rw [le_iff] at *
  omega

theorem le_antisymm {a b : Instant} (hab : a.le b = true) (hba : b.le a = true) : a = b := by
  rw [le_iff] at *
  obtain ⟨s, n⟩ := a
  obtain ⟨s', n'⟩ := b
  dsimp only at hab hba
  obtain rfl : s = s' := by omega
  obtain rfl : n = n' := by omega
  rfl

theorem max_eq_right {a b : Instant} (h : a.le b = true) : a.max b = b := if_pos h

theorem max_eq_left {a b : Instant} (h : b.le a = true) : a.max b = a := by
  unfold max
  split
  · exact le_antisymm h ‹_›
  · rfl

theorem max_comm (a b : Instant) : a.max b = b.max a := by
  rcases le_total a b with h | h
  · rw [max_eq_right h, max_eq_left h]
  · rw [max_eq_left h, max_eq_right h]

theorem max_right_comm (a b c : Instant) : (a.max b).max c = (a.max c).max b := by
  have hdrop {b c : Instant} (h : b.le c = true) : (a.max b).max c = a.max c ∧ (a.max c).max b = a.max c := by
    rcases le_total a b with hab | hba
    · rw [max_eq_right hab, max_eq_right h, max_eq_right (le_trans hab h), max_eq_left h]
      exact ⟨rfl, rfl⟩
    · rw [max_eq_left hba]
      rcases le_total a c with hac | hca
      · rw [max_eq_right hac, max_eq_left h]
        exact ⟨rfl, rfl⟩
      · rw [max_eq_left hca, max_eq_left hba]
        exact ⟨rfl, rfl⟩
  rcases le_total b c with h | h
  · exact (hdrop h).1.trans (hdrop h).2.symm
  · exact (hdrop h).2.trans (hdrop h).1.symm

end Instant

namespace ExecutionStats

theorem later_right_comm (last : Option Instant) (r s : ExecutionRecord) :
    later (later last r) s = later (later last s) r := by
  cases last with
  | none => exact congrArg some (Instant.max_comm r.completedAt s.completedAt)
  | some t => exact congrArg some (Instant.max_right_comm t r.completedAt s.completedAt)

/-- Statistics do not depend on the order of the records. -/
theorem ofRecords?_perm {rs ss : List ExecutionRecord} (h : rs.Perm ss) : ofRecords? rs = ofRecords? ss := by
  have hexact : exactDuration rs = exactDuration ss := (h.map _).sum_nat
  have hduration : totalDuration? rs = totalDuration? ss := by rw [totalDuration?_eq, totalDuration?_eq, hexact]
  have hlast : rs.foldl later none = ss.foldl later none := by
    exact h.foldl_eq' (fun r _ s _ last => later_right_comm last r s) none
  simp only [ofRecords?, hduration, hlast, h.length_eq, h.countP_eq]

end ExecutionStats

namespace ExecutionLog

variable {r s t : ExecutionRecord}

theorem listedBefore_iff :
    listedBefore r s = true ↔
      s.completedAt.le r.completedAt = true ∧ (r.completedAt = s.completedAt → s.id ≤ r.id) := by
  unfold listedBefore
  split
  · rename_i h
    simp [h, Instant.le_iff]
  · rename_i h
    simp [h]

theorem listedBefore_total (r s : ExecutionRecord) : (listedBefore r s || listedBefore s r) = true := by
  rw [Bool.or_eq_true, listedBefore_iff, listedBefore_iff]
  by_cases h : r.completedAt = s.completedAt
  · rw [h]
    rcases le_total s.id r.id with hid | hid
    · exact .inl ⟨(Instant.le_total _ _).elim id id, fun _ => hid⟩
    · exact .inr ⟨(Instant.le_total _ _).elim id id, fun _ => hid⟩
  · rcases Instant.le_total s.completedAt r.completedAt with hle | hle
    · exact .inl ⟨hle, fun heq => absurd heq h⟩
    · exact .inr ⟨hle, fun heq => absurd heq.symm h⟩

theorem listedBefore_antisymm (hrs : listedBefore r s = true) (hsr : listedBefore s r = true) :
    r.completedAt = s.completedAt ∧ r.id = s.id := by
  rw [listedBefore_iff] at hrs hsr
  have htime := Instant.le_antisymm hsr.1 hrs.1
  exact ⟨htime, le_antisymm (hsr.2 htime.symm) (hrs.2 htime)⟩

theorem listedBefore_trans (hrs : listedBefore r s = true) (hst : listedBefore s t = true) :
    listedBefore r t = true := by
  rw [listedBefore_iff] at *
  refine ⟨Instant.le_trans hst.1 hrs.1, fun heq => ?_⟩
  have hsr : s.completedAt = r.completedAt := Instant.le_antisymm hrs.1 (heq ▸ hst.1)
  exact (hst.2 (hsr.trans heq)).trans (hrs.2 hsr.symm)

/-- Records with different ids are listed in one order only. -/
theorem eq_of_listed {xs ys : List ExecutionRecord} (h : xs.Perm ys) (hids : (xs.map (·.id)).Nodup)
    (hx : xs.Pairwise fun r s => listedBefore r s = true) (hy : ys.Pairwise fun r s => listedBefore r s = true) :
    xs = ys := by
  refine h.eq_of_pairwise (fun r s hr hs hrs hsr => ?_) hx hy
  exact List.inj_on_of_nodup_map hids hr (h.mem_iff.2 hs) (listedBefore_antisymm hrs hsr).2

end ExecutionLog

end RuleFlow
