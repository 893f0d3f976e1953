import RuleFlow.Graph.Reach
/-! # Cycles

A depth-first search from every position.  A successor that is still on the path of the search closes a cycle. -/
namespace RuleFlow.Graph

/-- A search for a cycle: the positions to start from, the positions on the path with the successors that have not
been looked at, innermost first, and the positions that are done. -/
structure CycleSearch where
  starts : List Nat
  path : List (Nat × List Nat)
  finished : List Nat

namespace CycleSearch

def onPath (s : CycleSearch) : List Nat := s.path.map (·.1)

def marked (s : CycleSearch) (p : Nat) : Bool := s.onPath.contains p || s.finished.contains p

/-- The work that is left without marking a position. -/
def work (s : CycleSearch) : Nat := s.starts.length + (s.path.map fun f => f.2.length + 1).foldr (· + ·) 0

/-- Looks at the next successor of the innermost position, leaves the position, or takes the next start. -/
def step (g : Graph) (s : CycleSearch) : Progress CycleSearch (Option Nat) :=
  match s.path with
  | [] =>
    match s.starts with
    | [] => .done none
    | p :: rest =>
      if s.finished.contains p ∨ g.size ≤ p then .next { s with starts := rest }
      else .next { s with starts := rest, path := [(p, g.next p)] }
  | (p, []) :: rest => .next { s with path := rest, finished := p :: s.finished }
  | (p, q :: more) :: rest =>
    if s.onPath.contains q then .done (some q)
    else if s.finished.contains q ∨ g.size ≤ q then .next { s with path := (p, more) :: rest }
    else .next { s with path := (q, g.next q) :: (p, more) :: rest }

/-- A step marks a position or takes from the work that is left. -/
theorem step_decreases {g : Graph} {s t : CycleSearch} (h : s.step g = .next t) :
    Prod.Lex (· < ·) (· < ·) (g.unmarked t.marked, t.work) (g.unmarked s.marked, s.work) := by
  obtain ⟨starts, path, finished⟩ := s
  unfold step at h
  split at h
  · rename_i hp
    simp only at hp
    subst hp
    split at h
    · simp at h
    · rename_i p rest hs
      simp only at hs
      subst hs
      split at h
      · injection h with h
        subst h
        exact .right _ (by simp [work])
      · rename_i hc
        injection h with h
        subst h
        simp only [not_or, Bool.not_eq_true, Nat.not_le] at hc
        refine .left _ _ (g.unmarked_lt ?_ hc.2 ?_ ?_)
        · intro q hq
          simp_all [marked, onPath]
        · simp_all [marked, onPath]
        · simp [marked, onPath]
  · rename_i p rest hp
    simp only at hp
    subst hp
    injection h with h
    subst h
    have hle : g.unmarked (marked ⟨starts, rest, p :: finished⟩) ≤
        g.unmarked (marked ⟨starts, (p, []) :: rest, finished⟩) := by
      apply g.unmarked_le
      intro q hq
      simp only [marked, onPath, List.map_cons, List.contains_cons, Bool.or_eq_true] at hq ⊢
      grind
    rcases Nat.lt_or_eq_of_le hle with hl | he
    · exact .left _ _ hl
    · rw [he]
      exact .right _ (by simp [work])
  · rename_i p q more rest hp
    simp only at hp
    subst hp
    split at h
    · simp at h
    · rename_i hn
      split at h
      · injection h with h
        subst h
        exact .right _ (by simp [work])
      · rename_i hc
        injection h with h
        subst h
        simp only [not_or, Bool.not_eq_true, Nat.not_le] at hc hn
        refine .left _ _ (g.unmarked_lt ?_ hc.2 ?_ ?_)
        · intro r hr
          simp only [marked, onPath, List.map_cons, List.contains_cons, Bool.or_eq_true] at hr ⊢
          grind
        · simp_all [marked]
        · simp [marked, onPath]

def run (g : Graph) (s : CycleSearch) : Option Nat :=
  match _h : s.step g with
  | .next t => run g t
  | .done found => found
  termination_by (g.unmarked s.marked, s.work)
  decreasing_by exact step_decreases ‹_›

end CycleSearch

/-- The id of a node on a cycle, if there is a cycle. -/
def findCycle (g : Graph) : Option String := do
  let p ← CycleSearch.run g ⟨List.range g.size, [], []⟩
  return (← g.node? p).id

end RuleFlow.Graph
