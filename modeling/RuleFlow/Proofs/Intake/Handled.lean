import RuleFlow.Intake
/-! # What has been handled

A history of the consumer: the events that have been handed to the engine one after another, each with the answer of the
engine.  Between two of them nothing happens to the stores but that something is reported. -/
namespace RuleFlow

variable {σ : Type}

structure Handled where
  event : Event
  answer : Except RunError (List (String × RunResult))

def Handled.isFailed (h : Handled) : Bool := !h.answer.isOk

namespace Consumer

/-- The stores when an event is handed to the engine: it has been counted before. -/
def counted (e : Engine σ) (event : Event) (world : σ) : σ :=
  (e.backend.publish (.increment "rule.event" [("trigger", event.kind.name)]) world).2

/-- An event with the answer that the engine gives to it. -/
def handled (e : Engine σ) (event : Event) (world : σ) : Handled :=
  ⟨event, (e.dispatch event (counted e event world)).1⟩

variable {e : Engine σ} {event : Event} {world w : σ}

theorem handle_eq (e : Engine σ) (books : Books) (event : Event) (world : σ) :
    handle e books event world =
      match e.dispatch event (counted e event world) with
      | (.ok results, w) => ({ books with processed := books.processed + 1 }, (settle e.backend event results w).2)
      | (.error cause, w) =>
        (⟨books.processed + 1, books.failed + 1⟩,
          (e.backend.report (entry .error "Failed to dispatch event"
            (eventFields event ++ [("error", .string cause.message)])) w).2) := by
  rcases hcounted : e.backend.publish (.increment "rule.event" [("trigger", event.kind.name)]) world with ⟨⟨⟩, w⟩
  simp only [handle, counted, bind, StateT.bind, hcounted]
  rcases e.dispatch event w with ⟨cause | results, w'⟩ <;> rfl

theorem handle_of_ok (books : Books) {results : List (String × RunResult)}
    (h : e.dispatch event (counted e event world) = (.ok results, w)) :
    handle e books event world =
      ({ books with processed := books.processed + 1 }, (settle e.backend event results w).2) := by
  rw [handle_eq, h]

theorem handle_of_error (books : Books) {cause : RunError}
    (h : e.dispatch event (counted e event world) = (.error cause, w)) :
    handle e books event world = (⟨books.processed + 1, books.failed + 1⟩,
      (e.backend.report (entry .error "Failed to dispatch event"
        (eventFields event ++ [("error", .string cause.message)])) w).2) := by
  rw [handle_eq, h]

/-- The books after an event: it has been processed, and it has failed if the engine has answered with an error. -/
theorem handle_books (e : Engine σ) (books : Books) (event : Event) (world : σ) :
    (handle e books event world).1 =
      ⟨books.processed + 1, books.failed + (handled e event world).isFailed.toNat⟩ := by
  rcases h : e.dispatch event (counted e event world) with ⟨cause | results, w⟩
  · rw [handle_of_error books h, handled, h]
    rfl
  · rw [handle_of_ok books h, handled, h]
    rfl

end Consumer

/-- `Handles e handed s t`: from `s`, the books and the stores, one comes to `t` by handing the events of `handed` to
the engine in this order, with these answers. -/
inductive Handles (e : Engine σ) : List Handled → Books × σ → Books × σ → Prop
  | refl (s : Books × σ) : Handles e [] s s
  | report {handed : List Handled} {s : Books × σ} {books : Books} {world : σ} (entry : Journal.Entry)
      (h : Handles e handed s (books, world)) : Handles e handed s (books, (e.backend.report entry world).2)
  | handle {handed : List Handled} {s : Books × σ} {books : Books} {world : σ} (event : Event)
      (h : Handles e handed s (books, world)) :
      Handles e (handed ++ [Consumer.handled e event world]) s (Consumer.handle e books event world)

namespace Handles

variable {e : Engine σ} {handed : List Handled} {s t : Books × σ}

theorem processed_eq (h : Handles e handed s t) : t.1.processed = s.1.processed + handed.length := by
  induction h with
  | refl s => rfl
  | report entry h ih => exact ih
  | handle event h ih =>
    rw [Consumer.handle_books, List.length_append, ← Nat.add_assoc, ← ih]
    rfl

theorem failed_eq (h : Handles e handed s t) : t.1.failed = s.1.failed + handed.countP Handled.isFailed := by
  induction h with
  | refl s => rfl
  | report entry h ih => exact ih
  | handle event h ih =>
    rw [Consumer.handle_books, List.countP_append, ← Nat.add_assoc, ← ih, List.countP_singleton, ← Bool.cond_eq_ite]
    rfl

end Handles

end RuleFlow
