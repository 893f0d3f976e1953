import RuleFlow.Proofs.Engine.Dispatch
import RuleFlow.Proofs.Engine.Recording
import RuleFlow.Proofs.Intake.Handled
/-! # Consumption as a sequence

Where no further events come, the consumer handles those in the queue one after the other: `consume_eq`.  So it does the
same on all backends that are alike, and all that it has done is a history of what has been handled. -/
namespace RuleFlow

variable {σ σ' : Type}

namespace Intake

variable {e : Engine σ} {s t : Intake σ}

theorem run_of_consume (hread : s.read e = none) (hconsume : s.consume e = some t) : s.run e = t.run e := by
  conv => lhs; rw [run]
  split
  · rename_i u h
    rw [hread] at h
    cases h
  · split
    · rename_i u h
      rw [hconsume] at h
      cases h
      rfl
    · rename_i h
      rw [hconsume] at h
      cases h

theorem run_of_stuck (hread : s.read e = none) (hconsume : s.consume e = none) : s.run e = s := by
  rw [run]
  split
  · rename_i u h
    rw [hread] at h
    cases h
  · split
    · rename_i u h
      rw [hconsume] at h
      cases h
    · rfl

end Intake

namespace Consumer

variable {e : Engine σ}

def handleAll (e : Engine σ) (books : Books) (events : List Event) : StateM σ Books := events.foldlM (handle e) books

def wind (b : Backend σ) (books : Books) : StateM σ Books := do
  b.report closedEntry
  b.report (stoppedEntry books)
  return books

theorem run_queue (capacity : Nat) (events : List Event) (books : Books) (world : σ) :
    let s := Intake.run e { capacity, queue := events, reading := false, books, world }
    (s.books, s.world) = (handleAll e books events >>= wind e.backend) world := by
  induction events generalizing books world with
  | nil =>
    have hend : Intake.run e { capacity, queue := [], reading := false, books, world } =
        Intake.close e { capacity, queue := [], reading := false, books, world } closedEntry :=
      (Intake.run_of_consume rfl rfl).trans (Intake.run_of_stuck rfl rfl)
    rw [hend]
    rfl
  | cons event events ih =>
    have hhandled : Intake.run e { capacity, queue := event :: events, reading := false, books, world } =
        Intake.run e { capacity, queue := events, reading := false,
                       books := (handle e books event world).1, world := (handle e books event world).2 } :=
      Intake.run_of_consume rfl rfl
    rw [hhandled]
    exact ih _ _

/-- The consumer reports its start, handles the events and reports its end. -/
theorem consume_eq (e : Engine σ) (events : List Event) :
    e.consume events false = (do
      e.backend.report startedEntry
      let books ← handleAll e {} events
      wind e.backend books) :=
  funext fun world => run_queue events.length events {} (e.backend.report startedEntry world).2

theorem handles_handleAll {s : Books × σ} {handed : List Handled} {books : Books} {world : σ}
    (h : Handles e handed s (books, world)) (events : List Event) :
    ∃ more, more.map (·.event) = events ∧ Handles e (handed ++ more) s (handleAll e books events world) := by
  induction events generalizing handed books world with
  | nil => exact ⟨[], rfl, by rwa [List.append_nil]⟩
  | cons event events ih =>
    obtain ⟨more, hevents, hmore⟩ := ih (h.handle event)
    rw [List.append_assoc] at hmore
    exact ⟨handled e event world :: more, congrArg (event :: ·) hevents, hmore⟩

/-- All that the consumer has done is to hand over the events, in their order. -/
theorem handles_consume (e : Engine σ) (events : List Event) (world : σ) :
    ∃ handed, handed.map (·.event) = events ∧ Handles e handed ({}, world) (e.consume events false world) := by
  rw [consume_eq]
  obtain ⟨handed, hevents, hhandles⟩ := handles_handleAll ((Handles.refl ({}, world)).report startedEntry) events
  exact ⟨handed, hevents, (hhandles.report closedEntry).report (stoppedEntry _)⟩

end Consumer

section Alike

variable {b : Backend σ} {b' : Backend σ'} {R : σ → σ' → Prop} (hb : b.Alike b' R) (settings : Engine.Settings)
include hb

namespace Consumer

theorem alike_settle (event : Event) (results : List (String × RunResult)) :
    Alike R Eq (settle b event results) (settle b' event results) := by
  unfold settle
  refine (hb.publish _).bind_eq fun _ => .ite ((hb.publish _).bind_eq fun _ => ?_) ?_
  all_goals exact (hb.report _).bind_eq fun _ => .ite (hb.report _) (.pure rfl)

theorem alike_handle (books : Books) (event : Event) :
    Alike R Eq (handle ⟨b, settings⟩ books event) (handle ⟨b', settings⟩ books event) := by
  refine (hb.publish _).bind_eq fun _ => (Engine.alike_dispatch hb settings event).bind_eq fun answer => ?_
  cases answer with
  | error cause => exact (hb.report _).bind_eq fun _ => .pure rfl
  | ok results => exact (alike_settle hb event results).bind_eq fun _ => .pure rfl

theorem alike_consume (events : List Event) :
    Alike R Eq (Engine.consume ⟨b, settings⟩ events false) (Engine.consume ⟨b', settings⟩ events false) := by
  rw [consume_eq, consume_eq]
  refine (hb.report _).bind_eq fun _ => ?_
  refine (Alike.foldlM (alike_handle hb settings) _ events).bind_eq fun books => ?_
  exact (hb.report _).bind_eq fun _ => (hb.report _).bind_eq fun _ => .pure rfl

end Consumer

end Alike

end RuleFlow
