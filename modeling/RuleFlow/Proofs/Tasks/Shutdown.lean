import RuleFlow.Proofs.Tasks.Endings
/-! # No task is left behind

Once the token is cancelled, cancellable tasks are stopped and tasks that wait for the token are released, until at most
work of their own of managed tasks is left.  Main statement: `follow_shuts_down`.  The runs on a timeline are runs of
this kind: `reaches_runPlans`. -/
namespace RuleFlow.TaskGroup

variable {g u : TaskGroup} {steps : List Step} {t : Task}

/-- Whether a move is one that the token brings about: it stops a task, or releases one that waits for it. -/
def Release (g : TaskGroup) : Move → Prop
  | .stop _ => True
  | .complete i _ => ∃ t, g.tasks[i]? = some t ∧ t.work = .token
  | .cancel => False

/-- Whether the token can bring about nothing more.  Work of their own of tasks may still come to its end, but it may
also go on forever. -/
def Settled (g : TaskGroup) : Prop := ∀ m, g.Release m → g.move m = none

/-- A group in which nothing can happen but that the token is cancelled once more has settled. -/
theorem settled_of_stuck (h : ∀ m, m ≠ .cancel → g.move m = none) : g.Settled := by
  intro m hm
  refine h m ?_
  rintro rfl
  exact hm

/-- When the token is cancelled and the group has settled, all that the token stops or releases has ended. -/
theorem Settled.exists_ending (hg : g.Settled) (hcancelled : g.cancelled = true) (ht : t ∈ g.tasks)
    (hkind : t.kind = .cancellable ∨ t.work = .token) : ∃ ending, t.ending = some ending := by
  obtain ⟨i, hi⟩ := List.getElem?_of_mem ht
  refine Option.ne_none_iff_exists'.1 fun hopen => ?_
  rcases hkind with hkind | hwork
  · have hstop : g.move (.stop i) = some (g.finish i t .stopped) := by
      simp only [move, hi]
      exact if_pos ⟨hopen, hkind, hcancelled⟩
    cases hstop.symm.trans (hg _ trivial)
  · have hrelease : g.move (.complete i true) = some (g.finish i t .finished) := by
      simp only [move, hi]
      exact if_pos ⟨hopen, .inr hcancelled⟩
    cases hrelease.symm.trans (hg _ ⟨t, hi, hwork⟩)

theorem settled_of_ended (h : ∀ t ∈ g.tasks, t.kind = .cancellable ∨ t.work = .token → t.ending.isSome) :
    g.Settled := by
  intro m hm
  match m, hm with
  | .complete i ok, ⟨t, ht, hwork⟩ =>
    have hended := h t (List.mem_of_getElem? ht) (.inr hwork)
    simp only [move, ht]
    exact if_neg fun hmay => Option.isSome_iff_ne_none.1 hended hmay.1
  | .stop i, _ =>
    cases ht : g.tasks[i]? with
    | none => simp only [move, ht]
    | some t =>
      simp only [move, ht]
      exact if_neg fun hmay =>
        Option.isSome_iff_ne_none.1 (h t (List.mem_of_getElem? ht) (.inl hmay.2.1)) hmay.1

/-- A move that is more than a cancellation brings a task to its end, which leaves one less. -/
theorem unfinished_move {m : Move} (h : g.move m = some u) (hm : m ≠ .cancel) :
    u.unfinished + 1 = g.unfinished ∧ (g.cancelled = true → u.cancelled = true) := by
  rcases step_cases (s := .move m) h with ⟨_, _, _, hspawn, -⟩ | ⟨hcancel, -⟩ | ⟨i, t, ending, -, ht, hopen, -, rfl⟩
  · cases hspawn
  · cases hcancel
    exact absurd rfl hm
  · exact ⟨unfinished_finish ht hopen ending, fun hcancelled => by rw [finish, hcancelled, Bool.true_or]⟩

/-- A group whose token is cancelled can settle, in no more moves than there are tasks that have not ended. -/
theorem exists_settled (hcancelled : g.cancelled = true) :
    ∃ (moves : List Move) (u : TaskGroup), g.follow (moves.map .move) = some u ∧ u.Settled ∧
      moves.length ≤ g.unfinished := by
  induction hn : g.unfinished using Nat.strongRecOn generalizing g with
  | ind n ih =>
    by_cases hsettled : g.Settled
    · exact ⟨[], g, rfl, hsettled, Nat.zero_le _⟩
    · simp only [Settled, not_forall] at hsettled
      obtain ⟨m, hm, hmove⟩ := hsettled
      obtain ⟨v, hv⟩ := Option.ne_none_iff_exists'.1 hmove
      have hne : m ≠ .cancel := by
        rintro rfl
        exact hm
      obtain ⟨hleft, hkept⟩ := unfinished_move hv hne
      obtain ⟨moves, u, hu, hsettles, hlength⟩ := ih v.unfinished (by omega) (hkept hcancelled) rfl
      refine ⟨m :: moves, u, ?_, hsettles, by rw [List.length_cons]; omega⟩
      rw [List.map_cons, follow_cons, step, hv]
      exact hu

def Reaches (g u : TaskGroup) : Prop := ∃ steps, g.follow steps = some u

namespace Reaches

theorem refl (g : TaskGroup) : g.Reaches g := ⟨[], rfl⟩

theorem trans {v : TaskGroup} (h : g.Reaches u) (h' : u.Reaches v) : g.Reaches v := by
  obtain ⟨steps, hu⟩ := h
  obtain ⟨more, hv⟩ := h'
  exact ⟨steps ++ more, by rw [follow_append, hu]; exact hv⟩

theorem step {s : Step} (h : g.step s = some u) : g.Reaches u := ⟨[s], by rw [follow_cons, h]; rfl⟩

theorem foldl {α : Type} {f : TaskGroup → α → TaskGroup} (h : ∀ (g : TaskGroup) a, g.Reaches (f g a)) (as : List α)
    (g : TaskGroup) : g.Reaches (as.foldl f g) := by
  induction as generalizing g with
  | nil => exact refl g
  | cons a as ih => exact (h g a).trans (ih (f g a))

theorem attempt (g : TaskGroup) (m : Option Move) : g.Reaches (g.attempt m) := by
  unfold TaskGroup.attempt
  cases hm : m.bind g.move with
  | none => exact refl g
  | some u =>
    obtain ⟨m, rfl, hu⟩ := Option.bind_eq_some_iff.1 hm
    exact step (s := .move m) hu

theorem attemptAll (g : TaskGroup) (ms : List (Option Move)) : g.Reaches (g.attemptAll ms) := foldl attempt ms g

theorem advance (plans : List (Nat × Task.Plan)) (cancelAt : Option Nat) (g : TaskGroup) (now : Nat) :
    g.Reaches (advance plans cancelAt g now) := by
  unfold TaskGroup.advance
  generalize (if cancelAt = some now then some Move.cancel else none) = outside
  have hended := (attempt g outside).trans
    (attemptAll _ ((plans.filter fun p => p.2.after = now).map fun p => p.2.end? p.1))
  dsimp only
  split
  · exact hended.trans (attemptAll _ _)
  · exact hended

end Reaches

/-- What tasks come to whose work takes a known time is one of the ways in which things may go. -/
theorem reaches_runPlans (plans : List Task.Plan) (cancelAt : Option Nat) :
    ({} : TaskGroup).Reaches (runPlans plans cancelAt) := by
  have hspawn (g : TaskGroup) (p : Task.Plan) : g.Reaches (g.spawn p.task) :=
    .step (s := .spawn p.task.name p.task.kind p.task.work) rfl
  exact (Reaches.foldl hspawn plans {}).trans (Reaches.foldl (Reaches.advance _ cancelAt) _ _)

/-- Whatever tasks are started, and in whatever order their work comes to its end and the token is cancelled from
outside: the token is cancelled just if it was cancelled from outside or a task has failed.  A task ends once at most,
and in the journal there stand its start and its one end and nothing else; it is stopped only if it is cancellable, and
only after the token was cancelled.  When the token is cancelled and no more can happen than that work of their own of
tasks comes to its end, all cancellable tasks and all that wait for the token have ended; and every group whose token is
cancelled can come to that, in a move at most for each task that has not ended. -/
theorem follow_shuts_down (h : follow {} steps = some g) :
    (g.cancelled = true ↔ .move .cancel ∈ steps ∨ ∃ t ∈ g.tasks, t.ending = some .failed) ∧
    (∀ i, endingsOf i steps = (g.tasks[i]?.bind Task.ending).toList) ∧
    g.journal.Perm (g.tasks.flatMap Task.entries) ∧
    (∀ front i back, steps = front ++ .move (.stop i) :: back →
      ∃ u t, follow {} front = some u ∧ u.cancelled = true ∧ u.tasks[i]? = some t ∧ t.kind = .cancellable) ∧
    (g.cancelled = true → g.Settled → ∀ t ∈ g.tasks, t.kind = .cancellable ∨ t.work = .token →
      ∃ ending, t.ending = some ending) ∧
    (g.cancelled = true →
      ∃ (moves : List Move) (u : TaskGroup), g.follow (moves.map .move) = some u ∧ u.Settled ∧
        moves.length ≤ g.unfinished) := by
  have hg := follows_of_follow h
  refine ⟨hg.cancelled_iff, hg.endings, hg.journal, ?_, fun hcancelled hsettled t ht hkind =>
    hsettled.exists_ending hcancelled ht hkind, exists_settled⟩
  rintro front i back rfl
  obtain ⟨u, hu, hrest⟩ := Option.bind_eq_some_iff.1 (follow_append _ front _ ▸ h)
  obtain ⟨v, hv, -⟩ := Option.bind_eq_some_iff.1 hrest
  rcases step_cases hv with ⟨_, _, _, hspawn, -⟩ | ⟨hcancel, -⟩ | ⟨j, t, ending, hends, ht, -, hmay, -⟩
  · cases hspawn
  · cases hcancel
  · cases hends
    exact ⟨u, t, hu, hmay.2, ht, hmay.1⟩

/-- A run in which a task fails, while another never ends its work, a cancellable one is stopped and one that waits for
the token is released. -/
def failing : List Step :=
  [.spawn "worker" .managed .own, .spawn "idler" .managed .own, .spawn "watcher" .cancellable .own,
    .spawn "server" .managed .token, .move (.complete 0 false), .move (.complete 3 true), .move (.stop 2)]

/-- No one cancels the token from outside, but the failure of one task does; then all end but the one that neither can
be stopped nor waits for the token. -/
theorem follow_failing : ∃ g, follow {} failing = some g ∧ g.cancelled = true ∧ Step.move .cancel ∉ failing ∧
    endingsOf 2 failing = [.stopped] ∧ endingsOf 1 failing = [] ∧ g.journal.length = 7 ∧ g.Settled ∧
    ∀ t ∈ g.tasks, t.kind = .cancellable ∨ t.work = .token → ∃ ending, t.ending = some ending := by
  refine ⟨_, rfl, ?_⟩
  have hfollow : follow {} failing = some ((follow {} failing).get rfl) := rfl
  obtain ⟨htoken, hendings, hjournal, -, hended, -⟩ := follow_shuts_down hfollow
  have hcancelled := htoken.2 (.inr ⟨_, List.mem_cons_self, rfl⟩)
  have hsettled : ((follow {} failing).get rfl).Settled := settled_of_ended (by decide)
  exact ⟨hcancelled, by decide, hendings 2, hendings 1, hjournal.length_eq, hsettled, hended hcancelled hsettled⟩

end RuleFlow.TaskGroup
