import RuleFlow.Engine.Consumer
import RuleFlow.Json.Reader
/-! # The intake of events

A reader takes lines from the input and puts the events in them into a queue of bounded size; a consumer takes events
from the queue and hands them to the engine.  Both make one step at a time, in any order; a reader waits while the
queue is full, a consumer while it is empty.  Blank lines are skipped, and lines that hold no event are reported. -/
namespace RuleFlow

def Event.parse (line : String) : Option Event := (Document.parse line).bind Event.decoder.run

/-- The state of the intake.  `open` tells whether further lines may come, `held` is an event that has no place in the
queue yet, `reading` and `consuming` tell who has not ended, and `cancelled` whether all is to stop. -/
structure Intake (σ : Type) where
  capacity : Nat
  lines : List String := []
  isOpen : Bool := false
  held : Option Event := none
  queue : List Event := []
  reading : Bool := true
  consuming : Bool := true
  cancelled : Bool := false
  books : Books := {}
  world : σ

namespace Intake

inductive Party | reader | consumer
  deriving DecidableEq, Repr

def readerEntry (level : Level) (message : String) (fields : List (String × Json)) : Journal.Entry :=
  ⟨.reader, level, message, fields⟩

def inputClosedEntry : Journal.Entry := readerEntry .info "Event input closed" []

/-- What is reported of a line that holds no event.  The text of the error breaks off where the details of what is wrong
with the line would follow, which `Event.parse` does not keep. -/
def malformedEntry : Journal.Entry :=
  readerEntry .warn "Skipping malformed event"
    [("error", .string "error-assetrules-consumer-1 Event could not be parsed:")]

variable (e : Engine σ)

def report (s : Intake σ) (entry : Journal.Entry) : Intake σ := { s with world := (e.backend.report entry s.world).2 }

def takeLine (s : Intake σ) (line : String) : Intake σ :=
  if Text.isBlankText line then s
  else
    match Event.parse line with
    | some event => { s with held := some event }
    | none => s.report e malformedEntry

def read (s : Intake σ) : Option (Intake σ) :=
  if !s.reading then none
  else if s.cancelled then some { s with reading := false, held := none }
  else
    match s.held, s.lines with
    | some event, _ =>
      if !s.consuming then some { s with reading := false, held := none }
      else if s.queue.length < s.capacity then some { s with held := none, queue := s.queue ++ [event] }
      else none
    | none, line :: rest => some ({ s with lines := rest }.takeLine e line)
    | none, [] => if s.isOpen then none else some ({ s with reading := false }.report e inputClosedEntry)

/-- The end of the consumer, by which all is wound down. -/
def close (s : Intake σ) (entry : Journal.Entry) : Intake σ :=
  ({ s with consuming := false, cancelled := true }.report e entry).report e (Consumer.stoppedEntry s.books)

def consume (s : Intake σ) : Option (Intake σ) :=
  if !s.consuming then none
  else if s.cancelled then some (s.close e Consumer.cancelledEntry)
  else
    match s.queue with
    | event :: rest =>
      let (books, world) := Consumer.handle e s.books event s.world
      some { s with queue := rest, books, world }
    | [] => if s.reading then none else some (s.close e Consumer.closedEntry)

def step (s : Intake σ) : Party → Option (Intake σ)
  | .reader => s.read e
  | .consumer => s.consume e

def stepsLeft (s : Intake σ) : Nat :=
  3 * s.lines.length + 2 * s.held.isSome.toNat + s.queue.length + s.reading.toNat + s.consuming.toNat

theorem stepsLeft_takeLine_le (s : Intake σ) (line : String) (h : s.held = none) :
    (s.takeLine e line).stepsLeft ≤ s.stepsLeft + 2 := by
  unfold takeLine
  split
  · omega
  · split
    · simp only [stepsLeft, h, Option.isSome_some, Option.isSome_none, Bool.toNat_true, Bool.toNat_false]
      omega
    · exact Nat.le_add_right _ _

theorem stepsLeft_read {s t : Intake σ} (h : s.read e = some t) : t.stepsLeft < s.stepsLeft := by
  unfold read at h
  split at h
  · simp at h
  · rename_i hr
    have hr : s.reading = true := by simpa using hr
    split at h
    · injection h with h
      subst h
      simp only [stepsLeft, hr, Option.isSome_none, Bool.toNat_true, Bool.toNat_false]
      omega
    · split at h
      · rename_i event hh
        split at h
        · injection h with h
          subst h
          simp only [stepsLeft, hr, hh, Option.isSome_some, Option.isSome_none, Bool.toNat_true, Bool.toNat_false]
          omega
        · split at h
          · injection h with h
            subst h
            simp only [stepsLeft, hh, Option.isSome_some, Option.isSome_none, Bool.toNat_true, Bool.toNat_false,
              List.length_append, List.length_cons, List.length_nil]
            omega
          · simp at h
      · rename_i line rest hh hl
        injection h with h
        subst h
        have := stepsLeft_takeLine_le e { s with lines := rest } line hh
        simp only [stepsLeft, hl, List.length_cons] at this ⊢
        omega
      · split at h
        · simp at h
        · injection h with h
          subst h
          simp only [stepsLeft, report, hr, Bool.toNat_true, Bool.toNat_false]
          omega

theorem stepsLeft_consume {s t : Intake σ} (h : s.consume e = some t) : t.stepsLeft < s.stepsLeft := by
  unfold consume at h
  split at h
  · simp at h
  · rename_i hc
    have hc : s.consuming = true := by simpa using hc
    have hclose (entry : Journal.Entry) : (s.close e entry).stepsLeft < s.stepsLeft := by
      simp only [stepsLeft, close, report, hc, Bool.toNat_true, Bool.toNat_false]
      omega
    split at h
    · injection h with h
      exact h ▸ hclose _
    · split at h
      · rename_i event rest hq
        injection h with h
        subst h
        simp only [stepsLeft, hq, List.length_cons]
        omega
      · split at h
        · simp at h
        · injection h with h
          exact h ▸ hclose _

/-- Makes steps until no one can make one; the reader goes first. -/
def run (s : Intake σ) : Intake σ :=
  match _h : s.read e with
  | some t => t.run
  | none =>
    match _h : s.consume e with
    | some t => t.run
    | none => s
  termination_by s.stepsLeft
  decreasing_by
    · exact stepsLeft_read e ‹_›
    · exact stepsLeft_consume e ‹_›

end Intake

/-- Consumes some events after which no more will come, unless it is told to stop before. -/
def Engine.consume (e : Engine σ) (events : List Event) (cancelled : Bool) : StateM σ Books := fun world =>
  let ((), world) := e.backend.report Consumer.startedEntry world
  let s := Intake.run e { capacity := events.length, queue := events, reading := false, cancelled, world }
  (s.books, s.world)

end RuleFlow
