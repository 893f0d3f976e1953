import RuleFlow.Graph.Basic
/-! # Reachable nodes

A search with a stack of pending positions.  A position may be put on the stack many times, but it is marked once,
and only then its successors are put there. -/
namespace RuleFlow

/-- What a machine does in one step: it goes on, or it is done. -/
inductive Progress (σ α : Type)
  | next (state : σ)
  | done (result : α)

namespace Graph

/-- A search for reachable positions: those found, and those to look at, the next one first. -/
structure ReachSearch where
  seen : List Nat
  pending : List Nat

namespace ReachSearch

/-- Takes a pending position; a new one is marked and its successors become pending, the last one first. -/
def step (g : Graph) (s : ReachSearch) : Progress ReachSearch (List Nat) :=
  match s.pending with
  | [] => .done s.seen
  | p :: rest =>
    if s.seen.contains p ∨ g.size ≤ p then .next ⟨s.seen, rest⟩
    else .next ⟨p :: s.seen, (g.next p).reverse ++ rest⟩

/-- A step marks a position or takes one from the stack. -/
theorem step_decreases {g : Graph} {s t : ReachSearch} (h : s.step g = .next t) :
    Prod.Lex (· < ·) (· < ·) (g.unmarked t.seen.contains, t.pending.length)
      (g.unmarked s.seen.contains, s.pending.length) := by
  unfold step at h
  split at h
  · simp at h
  · rename_i p rest hp
    split at h
    · injection h with h
      subst h
      rw [hp]
      exact .right _ (by simp)
    · rename_i hc
      injection h with h
      subst h
      simp only [not_or, Bool.not_eq_true, Nat.not_le] at hc
      exact .left _ _ (g.unmarked_lt (fun q hq => by simp_all) hc.2 hc.1 (by simp))

def run (g : Graph) (s : ReachSearch) : List Nat :=
  match _h : s.step g with
  | .next t => run g t
  | .done seen => seen
  termination_by (g.unmarked s.seen.contains, s.pending.length)
  decreasing_by exact step_decreases ‹_›

end ReachSearch

/-- For each position whether it is reachable from a start. -/
def reachableFrom (g : Graph) (start : Nat) : List Bool :=
  let seen := ReachSearch.run g ⟨[], [start]⟩
  (List.range g.size).map seen.contains

end Graph

end RuleFlow
