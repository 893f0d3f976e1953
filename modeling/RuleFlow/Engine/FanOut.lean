/-! # Fan-out

Jobs that run at once, at most so many of them, started in their order.  A job takes a permit when it starts and gives
it back when it ends, which may be while others run; in the end the results stand in the order of the jobs, whatever
the order in which they came. -/
namespace RuleFlow

/-- The state of a fan-out: the permits that are free, the numbered jobs that are not started, those that run, and the
results so far, the latest last. -/
structure FanOut (ι ρ : Type) where
  permits : Nat
  waiting : List (Nat × ι)
  running : List (Nat × ι)
  finished : List (Nat × ρ)

/-- What may happen next: the first waiting job starts, or a running job ends with a result. -/
inductive FanOut.Move (ρ : Type)
  | start
  | finish (job : Nat) (result : ρ)

namespace FanOut

variable {ι ρ : Type}

/-- The jobs with their numbers, none of them started; at least one may run. -/
def ofJobs (limit : Nat) (jobs : List ι) : FanOut ι ρ :=
  ⟨max 1 limit, (List.range jobs.length).zip jobs, [], []⟩

def start (s : FanOut ι ρ) : Option (FanOut ι ρ) :=
  match s.waiting, s.permits with
  | job :: rest, free + 1 => some { s with permits := free, waiting := rest, running := s.running ++ [job] }
  | _, _ => none

def finish (s : FanOut ι ρ) (number : Nat) (result : ρ) : Option (FanOut ι ρ) :=
  match s.running.find? fun job => job.1 = number with
  | none => none
  | some _ =>
    some
      { s with
        permits := s.permits + 1
        running := s.running.eraseP fun job => job.1 = number
        finished := s.finished ++ [(number, result)] }

def move (s : FanOut ι ρ) : Move ρ → Option (FanOut ι ρ)
  | .start => s.start
  | .finish number result => s.finish number result

def results (s : FanOut ι ρ) : List ρ := (s.finished.mergeSort fun a b => a.1 ≤ b.1).map (·.2)

/-- The moves that are left: every waiting job starts and ends, every running job ends. -/
def movesLeft (s : FanOut ι ρ) : Nat := 2 * s.waiting.length + s.running.length

/-- The end of a running job is one move. -/
theorem movesLeft_finish {s t : FanOut ι ρ} {number : Nat} {result : ρ} (h : s.finish number result = some t) :
    t.movesLeft + 1 = s.movesLeft := by
  unfold finish at h
  split at h
  · simp at h
  · rename_i job hjob
    injection h with h
    subst h
    have hmem := List.mem_of_find?_eq_some hjob
    have hlen := List.length_eraseP_of_mem hmem (List.find?_some hjob)
    have hpos := List.length_pos_of_mem hmem
    simp only [movesLeft, hlen]
    omega

theorem movesLeft_start {s t : FanOut ι ρ} (h : s.start = some t) : t.movesLeft + 1 = s.movesLeft := by
  unfold start at h
  split at h
  · rename_i job rest free hw _
    injection h with h
    subst h
    simp only [movesLeft, hw, List.length_append, List.length_cons, List.length_nil]
    omega
  · simp at h

def drive (run : ι → StateM σ ρ) (s : FanOut ι ρ) (world : σ) : FanOut ι ρ × σ :=
  match s.running with
  | job :: _ =>
    let (result, world) := run job.2 world
    match _h : s.finish job.1 result with
    | some t => drive run t world
    | none => (s, world)
  | [] =>
    match _h : s.start with
    | some t => drive run t world
    | none => (s, world)
  termination_by s.movesLeft
  decreasing_by
    · have := movesLeft_finish ‹_›; omega
    · have := movesLeft_start ‹_›; omega

/-- Runs all jobs and gives their results in the order of the jobs. -/
def runAll (limit : Nat) (jobs : List ι) (run : ι → StateM σ ρ) : StateM σ (List ρ) := do
  let s ← drive run (ofJobs limit jobs)
  return s.results

end FanOut

end RuleFlow
