import RuleFlow.Backend.Faults
import RuleFlow.Backend.Memory
import RuleFlow.Proofs.Intake.Handled
/-! # Nothing is lost between the reader and the consumer

The reader and the consumer make their steps in any order.  What stands in the queue, what the reader holds and what is
in the lines to come is at any time what has not been handed to the engine yet, and the consumer stops when there is
nothing of it left.  Main statement: `follow_hands_over`. -/
namespace RuleFlow

variable {σ : Type} {e : Engine σ}

/-- The events in some lines of the input: those of the lines that are not blank and hold one. -/
def accepted (lines : List String) : List Event := (lines.filter (!Text.isBlankText ·)).filterMap Event.parse

theorem accepted_cons_of_blank {line : String} (h : Text.isBlankText line = true) (rest : List String) :
    accepted (line :: rest) = accepted rest := by
  simp only [accepted, h, Bool.not_true, Bool.false_eq_true, not_false_eq_true, List.filter_cons_of_neg]

theorem accepted_cons {line : String} (h : Text.isBlankText line = false) (rest : List String) :
    accepted (line :: rest) = (Event.parse line).toList ++ accepted rest := by
  have hfilter : (line :: rest).filter (!Text.isBlankText ·) = line :: rest.filter (!Text.isBlankText ·) :=
    List.filter_cons_of_pos (by simp [h])
  rw [accepted, hfilter, List.filterMap_cons]
  cases Event.parse line <;> rfl

namespace Intake

def pending (s : Intake σ) : List Event := s.queue ++ s.held.toList ++ accepted s.lines

/-- The invariant of an intake whose input ends and that no one stops: `events` are all that there are to hand over,
from these stores on. -/
structure Orderly (e : Engine σ) (events : List Event) (world : σ) (s : Intake σ) : Prop where
  /-- No line comes that is not there. -/
  closed : s.isOpen = false
  /-- What the reader holds has a place in an empty queue. -/
  roomy : s.reading = true → 0 < s.capacity
  /-- The reader ends with the input. -/
  drained : s.reading = false → s.held = none ∧ s.lines = []
  /-- The end of the consumer, and that alone, stops the rest. -/
  cancelled_iff : s.cancelled = true ↔ s.consuming = false
  /-- The consumer ends after the reader, with the queue. -/
  ended : s.consuming = false → s.reading = false ∧ s.queue = []
  /-- What has been handed over and what is pending is all, in order. -/
  history : ∃ handed, Handles e handed ({}, world) (s.books, s.world) ∧ handed.map (·.event) ++ s.pending = events

/-- The reader starts with lines, the consumer with an empty queue. -/
theorem Orderly.ofLines (e : Engine σ) {capacity : Nat} (h : 0 < capacity) (lines : List String) (world : σ) :
    Orderly e (accepted lines) world { capacity, lines, world } where
  closed := rfl
  roomy _ := h
  drained := nofun
  cancelled_iff := ⟨nofun, nofun⟩
  ended := nofun
  history := ⟨[], .refl _, rfl⟩

namespace Orderly

variable {events : List Event} {world : σ} {s t : Intake σ}

theorem consuming_of_reading (hs : Orderly e events world s) (h : s.reading = true) : s.consuming = true := by
  cases hc : s.consuming with
  | true => rfl
  | false => exact (hs.ended hc).1.symm.trans h

theorem cancelled_of_consuming (hs : Orderly e events world s) (h : s.consuming = true) : s.cancelled = false := by
  cases hc : s.cancelled with
  | false => rfl
  | true => exact h.symm.trans (hs.cancelled_iff.1 hc)

/-- The steps of the reader: it takes a line, it puts what it holds into the queue, or it ends with the input. -/
theorem read_cases (hs : Orderly e events world s) (h : s.read e = some t) :
    s.reading = true ∧
      ((∃ line rest, s.held = none ∧ s.lines = line :: rest ∧ t = { s with lines := rest }.takeLine e line) ∨
        (∃ event, s.held = some event ∧ t = { s with held := none, queue := s.queue ++ [event] }) ∨
        (s.held = none ∧ s.lines = [] ∧ t = { s with reading := false }.report e inputClosedEntry)) := by
  unfold read at h
  split at h
  · simp at h
  · rename_i hr
    have hr : s.reading = true := by simpa using hr
    have hc := hs.consuming_of_reading hr
    have hgo := hs.cancelled_of_consuming hc
    refine ⟨hr, ?_⟩
    rw [if_neg (by simp [hgo])] at h
    split at h
    · rename_i event hheld
      rw [if_neg (by simp [hc])] at h
      split at h
      · exact .inr (.inl ⟨event, hheld, (Option.some.inj h).symm⟩)
      · simp at h
    · rename_i line rest hheld hlines
      exact .inl ⟨line, rest, hheld, hlines, (Option.some.inj h).symm⟩
    · rename_i hheld hlines
      rw [if_neg (by simp [hs.closed])] at h
      exact .inr (.inr ⟨hheld, hlines, (Option.some.inj h).symm⟩)

/-- The steps of the consumer: it hands an event to the engine, or it ends after the reader. -/
theorem consume_cases (hs : Orderly e events world s) (h : s.consume e = some t) :
    s.consuming = true ∧
      ((∃ event rest, s.queue = event :: rest ∧
          t = { s with
            queue := rest
            books := (Consumer.handle e s.books event s.world).1
            world := (Consumer.handle e s.books event s.world).2 }) ∨
        (s.queue = [] ∧ s.reading = false ∧ t = s.close e Consumer.closedEntry)) := by
  unfold consume at h
  split at h
  · simp at h
  · rename_i hc
    have hc : s.consuming = true := by simpa using hc
    have hgo := hs.cancelled_of_consuming hc
    refine ⟨hc, ?_⟩
    rw [if_neg (by simp [hgo])] at h
    split at h
    · rename_i event rest hq
      exact .inl ⟨event, rest, hq, (Option.some.inj h).symm⟩
    · rename_i hq
      split at h
      · simp at h
      · rename_i hr
        exact .inr ⟨hq, by simpa using hr, (Option.some.inj h).symm⟩

/-- A party that cannot make a step waits for the other or has ended; an orderly intake in which neither can has come to
its end. -/
theorem ended_of_stuck (hs : Orderly e events world s) (h : ∀ party, s.step e party = none) :
    s.reading = false ∧ s.consuming = false := by
  have hread : s.read e = none := h .reader
  have hconsume : s.consume e = none := h .consumer
  have hqueue (hc : s.consuming = true) : s.queue = [] ∧ s.reading = true := by
    unfold Intake.consume at hconsume
    rw [if_neg (by simp [hc]), if_neg (by simp [hs.cancelled_of_consuming hc])] at hconsume
    split at hconsume
    · exact (Option.some_ne_none _ hconsume).elim
    · rename_i hq
      split at hconsume
      · exact ⟨hq, ‹_›⟩
      · simp at hconsume
  have hreading : s.reading = false := by
    cases hr : s.reading with
    | false => rfl
    | true =>
      have hc := hs.consuming_of_reading hr
      have hroom : s.queue.length < s.capacity := (hqueue hc).1 ▸ hs.roomy hr
      unfold Intake.read at hread
      rw [if_neg (by simp [hr]), if_neg (by simp [hs.cancelled_of_consuming hc])] at hread
      split at hread
      · rw [if_neg (by simp [hc]), if_pos hroom] at hread
        simp at hread
      · simp at hread
      · rw [if_neg (by simp [hs.closed])] at hread
        simp at hread
  refine ⟨hreading, ?_⟩
  cases hc : s.consuming with
  | false => rfl
  | true => exact (hqueue hc).2.symm.trans hreading

theorem takeLine (hs : Orderly e events world s) {line : String} {rest : List String} (hr : s.reading = true)
    (hheld : s.held = none) (hlines : s.lines = line :: rest) :
    Orderly e events world ({ s with lines := rest }.takeLine e line) := by
  have hpending : s.pending = s.queue ++ accepted (line :: rest) := by
    rw [pending, hheld, hlines, Option.toList_none, List.append_nil]
  obtain ⟨handed, hhandles, hall⟩ := hs.history
  rw [hpending] at hall
  have hopen (u : Intake σ) (hu : u.reading = s.reading) : u.reading = false → u.held = none ∧ u.lines = [] := by
    intro h
    simp [hu, hr] at h
  unfold Intake.takeLine
  split
  · rename_i hblank
    rw [accepted_cons_of_blank hblank] at hall
    exact ⟨hs.closed, hs.roomy, hopen _ rfl, hs.cancelled_iff, hs.ended, handed, hhandles, by
      rw [← hall, pending, hheld, Option.toList_none, List.append_nil]⟩
  · rename_i hblank
    rw [accepted_cons (Bool.eq_false_iff.2 hblank)] at hall
    split
    · rename_i event hevent
      rw [hevent, Option.toList_some] at hall
      exact ⟨hs.closed, hs.roomy, hopen _ rfl, hs.cancelled_iff, hs.ended, handed, hhandles, by
        rw [← hall, pending, Option.toList_some, List.append_assoc]⟩
    · rename_i hevent
      rw [hevent, Option.toList_none, List.nil_append] at hall
      exact ⟨hs.closed, hs.roomy, hopen _ rfl, hs.cancelled_iff, hs.ended, handed, hhandles.report _, by
        rw [← hall, report, pending, hheld, Option.toList_none, List.append_nil]⟩

theorem read (hs : Orderly e events world s) (h : s.read e = some t) : Orderly e events world t := by
  obtain ⟨hr, hcases⟩ := hs.read_cases h
  obtain ⟨handed, hhandles, hall⟩ := hs.history
  have hconsuming (hc : s.consuming = false) : False := by simp [hs.consuming_of_reading hr] at hc
  rcases hcases with ⟨line, rest, hheld, hlines, rfl⟩ | ⟨event, hheld, rfl⟩ | ⟨hheld, hlines, rfl⟩
  · exact hs.takeLine hr hheld hlines
  · refine ⟨hs.closed, hs.roomy, ?_, hs.cancelled_iff, fun hc => (hconsuming hc).elim, handed, hhandles, ?_⟩
    · intro h
      simp [hr] at h
    · rw [← hall, pending, pending, hheld, Option.toList_none, Option.toList_some, List.append_nil]
  · refine ⟨hs.closed, (absurd · Bool.false_ne_true), fun _ => ⟨hheld, hlines⟩, hs.cancelled_iff,
      fun hc => (hconsuming hc).elim, handed, hhandles.report _, ?_⟩
    rw [← hall]
    rfl

theorem consume (hs : Orderly e events world s) (h : s.consume e = some t) : Orderly e events world t := by
  obtain ⟨hc, hcases⟩ := hs.consume_cases h
  obtain ⟨handed, hhandles, hall⟩ := hs.history
  rcases hcases with ⟨event, rest, hq, rfl⟩ | ⟨hq, hr, rfl⟩
  · refine ⟨hs.closed, hs.roomy, hs.drained, hs.cancelled_iff, ?_, _, hhandles.handle event, ?_⟩
    · intro h
      simp [hc] at h
    · rw [← hall, pending, pending, hq, List.map_append]
      simp [Consumer.handled]
  · have hreading (h : s.reading = true) : False := by simp [hr] at h
    exact ⟨hs.closed, fun h => (hreading h).elim, fun _ => hs.drained hr, ⟨fun _ => rfl, fun _ => rfl⟩,
      fun _ => ⟨hr, hq⟩, handed, (hhandles.report _).report _, hall⟩

theorem step (hs : Orderly e events world s) {party : Party} (h : s.step e party = some t) :
    Orderly e events world t := by
  cases party with
  | reader => exact hs.read h
  | consumer => exact hs.consume h

end Orderly

def follow (e : Engine σ) (s : Intake σ) (parties : List Party) : Option (Intake σ) := parties.foldlM (step e) s

theorem follow_cons (e : Engine σ) (s : Intake σ) (party : Party) (parties : List Party) :
    follow e s (party :: parties) = (s.step e party).bind (follow e · parties) := rfl

theorem Orderly.follow {events : List Event} {world : σ} {s t : Intake σ} {parties : List Party}
    (hs : Orderly e events world s) (h : follow e s parties = some t) : Orderly e events world t := by
  induction parties generalizing s with
  | nil => exact Option.some.inj h ▸ hs
  | cons party parties ih =>
    obtain ⟨u, hu, hrest⟩ := Option.bind_eq_some_iff.1 h
    exact ih (hs.step hu) hrest

theorem stepsLeft_step {s t : Intake σ} {party : Party} (h : s.step e party = some t) : t.stepsLeft < s.stepsLeft := by
  cases party with
  | reader => exact stepsLeft_read e h
  | consumer => exact stepsLeft_consume e h

/-- No run is longer than the steps that are left. -/
theorem length_le_of_follow {s t : Intake σ} {parties : List Party} (h : follow e s parties = some t) :
    parties.length + t.stepsLeft ≤ s.stepsLeft := by
  induction parties generalizing s with
  | nil =>
    obtain rfl : s = t := Option.some.inj h
    exact Nat.le_of_eq (Nat.zero_add _)
  | cons party parties ih =>
    obtain ⟨u, hu, hrest⟩ := Option.bind_eq_some_iff.1 h
    have hle := ih hrest
    have hlt := stepsLeft_step hu
    rw [List.length_cons]
    omega

/-- The run in which the reader goes first is one of the runs, and after it no one can make a step. -/
theorem exists_follow_run (e : Engine σ) (s : Intake σ) :
    (∃ parties, follow e s parties = some (s.run e)) ∧ ∀ party, (s.run e).step e party = none := by
  fun_induction Intake.run e s with
  | case1 s t h ih =>
    obtain ⟨⟨parties, hparties⟩, hstuck⟩ := ih
    exact ⟨⟨.reader :: parties, by rw [follow_cons, step, h]; exact hparties⟩, hstuck⟩
  | case2 s hread t h ih =>
    obtain ⟨⟨parties, hparties⟩, hstuck⟩ := ih
    exact ⟨⟨.consumer :: parties, by rw [follow_cons, step, h]; exact hparties⟩, hstuck⟩
  | case3 s hread hconsume =>
    refine ⟨⟨[], rfl⟩, fun party => ?_⟩
    cases party with
    | reader => exact hread
    | consumer => exact hconsume

/-- When the consumer has ended, there is nothing left to hand over. -/
theorem Orderly.pending_of_ended {events : List Event} {world : σ} {s : Intake σ} (hs : Orderly e events world s)
    (h : s.consuming = false) : s.pending = [] := by
  obtain ⟨hreading, hq⟩ := hs.ended h
  obtain ⟨hheld, hlines⟩ := hs.drained hreading
  rw [pending, hq, hheld, hlines]
  rfl

/-- However the reader and the consumer make their steps, the events that have been handed to the engine are at any time
the first of those in the lines, each once and in the order of the lines, and the books count them.  The reader ends
with the last line, and the consumer, who then stops the rest, when every event has been handed over.  Every run comes
to its end, and where no one can make a step, all have come to theirs. -/
theorem follow_hands_over (e : Engine σ) {capacity : Nat} (hcapacity : 0 < capacity) (lines : List String) (world : σ)
    {parties : List Party} {s : Intake σ} (h : follow e { capacity, lines, world } parties = some s) :
    (∃ handed, Handles e handed ({}, world) (s.books, s.world) ∧
      s.books = ⟨handed.length, handed.countP Handled.isFailed⟩ ∧
      handed.map (·.event) <+: accepted lines ∧
      (s.consuming = false ∨ s.cancelled = true → handed.map (·.event) = accepted lines)) ∧
    (s.reading = false → s.lines = [] ∧ s.held = none) ∧
    (s.consuming = false ∨ s.cancelled = true → s.reading = false ∧ s.books.processed = (accepted lines).length) ∧
    parties.length ≤ 3 * lines.length + 2 ∧
    ((∀ party, s.step e party = none) → s.reading = false ∧ s.consuming = false ∧ s.cancelled = true) := by
  have hs := (Orderly.ofLines e hcapacity lines world).follow h
  obtain ⟨handed, hhandles, hall⟩ := hs.history
  have hprocessed : s.books.processed = handed.length := hhandles.processed_eq.trans (Nat.zero_add _)
  have hfailed : s.books.failed = handed.countP Handled.isFailed := hhandles.failed_eq.trans (Nat.zero_add _)
  have hconsuming (hend : s.consuming = false ∨ s.cancelled = true) : s.consuming = false :=
    hend.elim id hs.cancelled_iff.1
  have hdone (hend : s.consuming = false ∨ s.cancelled = true) : handed.map (·.event) = accepted lines := by
    rw [← hall, hs.pending_of_ended (hconsuming hend), List.append_nil]
  refine ⟨⟨handed, hhandles, ?_, ⟨s.pending, hall⟩, hdone⟩, fun hr => (hs.drained hr).symm, fun hend => ?_, ?_,
    fun hstuck => ?_⟩
  · rw [← hprocessed, ← hfailed]
  · have hlength := congrArg List.length (hdone hend)
    rw [List.length_map, ← hprocessed] at hlength
    exact ⟨(hs.ended (hconsuming hend)).1, hlength⟩
  · have hlength := length_le_of_follow h
    simp only [stepsLeft, Option.isSome_none, List.length_nil, Bool.toNat_true, Bool.toNat_false] at hlength
    omega
  · obtain ⟨hreading, hended⟩ := hs.ended_of_stuck hstuck
    exact ⟨hreading, hended, hs.cancelled_iff.2 hended⟩

def handLine (asset : String) : String :=
  "\x7b\"type\": \"manual\", \"tenantId\": \"t\", \"assetId\": \"" ++ asset ++ "\", \"assetTypeId\": \"well\"\x7d"

/-- Rules cannot be read, so that every dispatch fails. -/
def rulesDown : Engine (Counted Memory) := ⟨Faults.backend { rulesDown := true } Memory.backend, {}⟩

def fourLines : List String := [handLine "a", " ", "junk", handLine "b"]

/-- A run in which the first event is handed over before the last line is taken. -/
def inTurns : List Party :=
  [.reader, .reader, .reader, .consumer, .reader, .reader, .reader, .reader, .consumer, .consumer]

/-- Every dispatch fails, and there is a line that holds no event: both events are handed over all the same, in their
order, and only then is all stopped. -/
theorem follow_fourLines :
    ∃ s, follow rulesDown { capacity := 1, lines := fourLines, world := ⟨{}, 0, 0⟩ } inTurns = some s ∧
      s.cancelled = true ∧ s.books = ⟨2, 2⟩ ∧
      ∃ handed, Handles rulesDown handed ({}, ⟨{}, 0, 0⟩) (s.books, s.world) ∧
        handed.map (·.event.asset.assetId) = ["a", "b"] := by
  have hend : (follow rulesDown { capacity := 1, lines := fourLines, world := ⟨{}, 0, 0⟩ } inTurns).map
      (fun s => (s.cancelled, s.books)) = some (true, ⟨2, 2⟩) := by decide +kernel
  have hassets : (accepted fourLines).map (·.asset.assetId) = ["a", "b"] := by decide +kernel
  obtain ⟨s, hs, hbooks⟩ := Option.map_eq_some_iff.1 hend
  obtain ⟨hcancelled, hbooks⟩ := Prod.mk.inj hbooks
  obtain ⟨⟨handed, hhandles, -, -, hall⟩, -⟩ := follow_hands_over rulesDown (by decide) fourLines ⟨{}, 0, 0⟩ hs
  refine ⟨s, hs, hcancelled, hbooks, handed, hhandles, ?_⟩
  rw [← hassets, ← hall (.inr hcancelled), List.map_map]
  rfl

end Intake
end RuleFlow
