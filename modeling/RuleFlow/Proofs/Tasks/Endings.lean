import Mathlib.Data.List.Basic
import RuleFlow.Tasks.Timeline
/-! # How tasks end

Tasks of both kinds are started under one token at any time, their work comes to its end in any order, well or not, and
the token may be cancelled from outside.  Whatever the order, the token is cancelled by that or by a task that failed,
and each task ends once and is reported once.  Main statements: `step_cases`, which says all that can happen, and
`follows_of_follow`, what every run keeps. -/
namespace RuleFlow

/-- What is reported of a task: its start, and its end if it has ended. -/
def Task.entries (t : Task) : List Journal.Entry := t.startEntry :: (t.ending.map t.endEntry).toList

namespace TaskGroup

inductive Step
  | spawn (name : String) (kind : Task.Kind) (work : Task.Work)
  | move (m : Move)
  deriving DecidableEq, Repr

def Step.ended? : Step → Option (Nat × Task.Ending)
  | .spawn .. => none
  | .move (.complete i ok) => some (i, if ok then .finished else .failed)
  | .move (.stop i) => some (i, .stopped)
  | .move .cancel => none

def ended (steps : List Step) : List (Nat × Task.Ending) := steps.filterMap Step.ended?

def endingsOf (i : Nat) (steps : List Step) : List Task.Ending := ((ended steps).filter (·.1 = i)).map (·.2)

def step (g : TaskGroup) : Step → Option TaskGroup
  | .spawn name kind work => some (g.spawn { name, kind, work })
  | .move m => g.move m

def follow (g : TaskGroup) (steps : List Step) : Option TaskGroup := steps.foldlM step g

variable {g u : TaskGroup} {s : Step} {steps : List Step} {i : Nat} {t : Task} {ending : Task.Ending}

theorem follow_cons (g : TaskGroup) (s : Step) (steps : List Step) :
    g.follow (s :: steps) = (g.step s).bind (follow · steps) := rfl

theorem follow_append (g : TaskGroup) (steps more : List Step) :
    g.follow (steps ++ more) = (g.follow steps).bind (follow · more) := List.foldlM_append

/-- Whether a task that has not ended may end so: it is stopped by the token alone, and only if it is cancellable; by
itself it ends with work of its own at any time, and with work that waits for the token after that is cancelled. -/
def MayEnd (g : TaskGroup) (t : Task) : Task.Ending → Prop
  | .stopped => t.kind = .cancellable ∧ g.cancelled = true
  | _ => t.work = .own ∨ g.cancelled = true

/-- A step starts a task, cancels the token, or brings a task to an end that it may come to. -/
theorem step_cases (h : g.step s = some u) :
    (∃ name kind work, s = .spawn name kind work ∧ u = g.spawn { name, kind, work }) ∨
    (s = .move .cancel ∧ u = { g with cancelled := true }) ∨
    ∃ i t ending, s.ended? = some (i, ending) ∧ g.tasks[i]? = some t ∧ t.ending = none ∧ g.MayEnd t ending ∧
      u = g.finish i t ending := by
  match s with
  | .spawn name kind work => exact .inl ⟨name, kind, work, rfl, (Option.some.inj h).symm⟩
  | .move .cancel => exact .inr (.inl ⟨rfl, (Option.some.inj h).symm⟩)
  | .move (.complete i ok) =>
    simp only [step, move] at h
    split at h
    · rename_i t ht
      split at h
      · rename_i hmay
        have hends : g.MayEnd t (if ok then .finished else .failed) := by
          cases ok <;> exact hmay.2
        exact .inr (.inr ⟨i, t, _, rfl, ht, hmay.1, hends, (Option.some.inj h).symm⟩)
      · cases h
    · cases h
  | .move (.stop i) =>
    simp only [step, move] at h
    split at h
    · rename_i t ht
      split at h
      · rename_i hmay
        exact .inr (.inr ⟨i, t, .stopped, rfl, ht, hmay.1, hmay.2, (Option.some.inj h).symm⟩)
      · cases h
    · cases h

theorem tasks_finish (ht : g.tasks[i]? = some t) (ending : Task.Ending) :
    ∃ front back, g.tasks = front ++ t :: back ∧
      (g.finish i t ending).tasks = front ++ { t with ending := some ending } :: back := by
  obtain ⟨hi, rfl⟩ := List.getElem?_eq_some_iff.1 ht
  refine ⟨g.tasks.take i, g.tasks.drop (i + 1), ?_, ?_⟩
  · rw [List.getElem_cons_drop, List.take_append_drop]
  · rw [finish, List.set_eq_take_append_cons_drop, if_pos hi]

theorem unfinished_finish (ht : g.tasks[i]? = some t) (hopen : t.ending = none) (ending : Task.Ending) :
    (g.finish i t ending).unfinished + 1 = g.unfinished := by
  obtain ⟨front, back, htasks, hafter⟩ := tasks_finish ht ending
  rw [unfinished, unfinished, htasks, hafter]
  simp [hopen, Nat.add_assoc]

/-- What holds of a group after some steps from the beginning. -/
structure Follows (steps : List Step) (g : TaskGroup) : Prop where
  /-- The token is cancelled from outside, or by a task that has failed. -/
  cancelled_iff : g.cancelled = true ↔ .move .cancel ∈ steps ∨ ∃ t ∈ g.tasks, t.ending = some .failed
  /-- A task has come to its end once if it has ended, and else it has not. -/
  endings : ∀ i, endingsOf i steps = (g.tasks[i]?.bind Task.ending).toList
  /-- The start of each task is reported once, and so is its end if it has ended, and nothing else. -/
  journal : g.journal.Perm (g.tasks.flatMap Task.entries)

theorem follows_nil : Follows [] {} where
  cancelled_iff := by simp
  endings _ := rfl
  journal := .refl _

theorem ended_concat (steps : List Step) (s : Step) : ended (steps ++ [s]) = ended steps ++ s.ended?.toList := by
  rw [ended, List.filterMap_append]
  cases hs : s.ended? <;> simp [ended, hs]

theorem endingsOf_concat (i : Nat) (steps : List Step) (s : Step) : endingsOf i (steps ++ [s]) =
    endingsOf i steps ++ (s.ended?.toList.filter (·.1 = i)).map (·.2) := by
  rw [endingsOf, ended_concat, List.filter_append, List.map_append, endingsOf]

namespace Follows

theorem spawn (hg : Follows steps g) (name : String) (kind : Task.Kind) (work : Task.Work) :
    Follows (steps ++ [.spawn name kind work]) (g.spawn { name, kind, work }) where
  cancelled_iff := by simp [TaskGroup.spawn, hg.cancelled_iff]
  endings i := by
    rw [endingsOf_concat, hg.endings, TaskGroup.spawn, List.getElem?_append]
    split
    · exact List.append_nil _
    · rename_i hi
      rw [List.getElem?_eq_none (Nat.le_of_not_lt hi)]
      cases i - g.tasks.length <;> rfl
  journal := by
    rw [TaskGroup.spawn, List.flatMap_append]
    exact hg.journal.append_right _

theorem cancel (hg : Follows steps g) : Follows (steps ++ [.move .cancel]) { g with cancelled := true } where
  cancelled_iff := by simp
  endings i := by
    rw [endingsOf_concat, hg.endings]
    exact List.append_nil _
  journal := hg.journal

theorem finish (hg : Follows steps g) (hs : s.ended? = some (i, ending)) (ht : g.tasks[i]? = some t)
    (hopen : t.ending = none) : Follows (steps ++ [s]) (g.finish i t ending) := by
  obtain ⟨front, back, htasks, hafter⟩ := tasks_finish ht ending
  refine ⟨?_, fun j => ?_, ?_⟩
  · have hcancel : s ≠ .move .cancel := by
      rintro rfl
      cases hs
    have hfailed : (∃ a ∈ (g.finish i t ending).tasks, a.ending = some .failed) ↔
        (∃ a ∈ g.tasks, a.ending = some .failed) ∨ ending = .failed := by
      simp only [hafter, htasks, List.mem_append, List.mem_cons, or_and_right, exists_or, exists_eq_left, hopen,
        reduceCtorEq, false_or, Option.some.injEq]
      exact (or_congr_right or_comm).trans or_assoc.symm
    rw [hfailed, TaskGroup.finish, Bool.or_eq_true, decide_eq_true_eq, hg.cancelled_iff, List.mem_append,
      List.mem_singleton, or_assoc, or_iff_left hcancel.symm]
  · rw [endingsOf_concat, hg.endings, hs, TaskGroup.finish, List.getElem?_set]
    obtain ⟨hi, rfl⟩ := List.getElem?_eq_some_iff.1 ht
    by_cases hj : i = j
    · subst hj
      simp [hi, hopen]
    · simp [hj]
  · have hentries : t.entries = [t.startEntry] := by rw [Task.entries, hopen]; rfl
    rw [hafter, List.flatMap_append, List.flatMap_cons]
    refine (hg.journal.append_right [t.endEntry ending]).trans ?_
    rw [htasks, List.flatMap_append, List.flatMap_cons, hentries, List.append_assoc, List.append_assoc]
    exact (List.perm_append_comm.append_left _).append_left _

theorem step (hg : Follows steps g) (h : g.step s = some u) : Follows (steps ++ [s]) u := by
  rcases step_cases h with ⟨name, kind, work, rfl, rfl⟩ | ⟨rfl, rfl⟩ | ⟨i, t, ending, hs, ht, hopen, -, rfl⟩
  · exact hg.spawn name kind work
  · exact hg.cancel
  · exact hg.finish hs ht hopen

theorem follow {more : List Step} (hg : Follows steps g) (h : g.follow more = some u) : Follows (steps ++ more) u := by
  induction more generalizing steps g with
  | nil =>
    obtain rfl : g = u := Option.some.inj h
    rwa [List.append_nil]
  | cons s more ih =>
    obtain ⟨v, hv, hrest⟩ := Option.bind_eq_some_iff.1 (follow_cons g s more ▸ h)
    rw [List.append_cons]
    exact ih (hg.step hv) hrest

end Follows

theorem follows_of_follow (h : follow {} steps = some g) : Follows steps g := follows_nil.follow h

end TaskGroup

end RuleFlow
