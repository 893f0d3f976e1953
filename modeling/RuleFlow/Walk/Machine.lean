import RuleFlow.Graph.Cycle
import RuleFlow.Walk.Outputs
/-! # Walking a graph

A walk visits the nodes of a graph in depth-first pre-order from a start.  A node that is reached on several ways is
visited on each of them; to come to a node that is on the way already is a failure.  The walk is a machine with a
stack of frames, and what a visit does is left open: a visitor gives the output of a node, or fails, and acts on a
world of its own.  Each step takes from the weight of the stack, so that every walk ends. -/
namespace RuleFlow.Walk

/-- What is done at the nodes of a walk: the output of a visit, and whether an output ends its branch. -/
structure Visitor (τ ε : Type) where
  visit : Node → Outputs → τ → Except ε Json × τ
  halts : Node → Json → Bool

inductive Failure (ε : Type)
  | cycle (node : String)
  | visit (cause : ε)

/-- A pending part of a walk: to enter a position, or to leave it. -/
inductive Frame
  | enter (position : Nat)
  | leave (position : Nat)
  deriving DecidableEq

/-- A walk on its way: the pending frames, the positions that were entered and not left, the outputs so far, and
the world of the visitor. -/
structure State (τ : Type) where
  frames : List Frame
  path : List Nat
  outputs : Outputs
  world : τ

/-- How a walk ends: with its outputs or a failure, and with the world that the visits have left. -/
abbrev Result (τ ε : Type) := Except (Failure ε) Outputs × τ

/-- Takes a frame.  To enter a position is to visit its node, and then its successors become pending before the
position is left. -/
def step (g : Graph) (v : Visitor τ ε) (s : State τ) : Progress (State τ) (Result τ ε) :=
  match s.frames with
  | [] => .done (.ok s.outputs, s.world)
  | .leave p :: rest => .next { s with frames := rest, path := s.path.erase p }
  | .enter p :: rest =>
    match g.node? p with
    | none => .next { s with frames := rest }
    | some n =>
      if s.path.contains p then .done (.error (.cycle n.id), s.world)
      else
        match v.visit n s.outputs s.world with
        | (.error e, world) => .done (.error (.visit e), world)
        | (.ok output, world) =>
          let next := if v.halts n output then [] else g.next p
          .next ⟨next.map .enter ++ .leave p :: rest, p :: s.path, s.outputs.record n.id output, world⟩

def degree (g : Graph) : Nat := (g.successors.map List.length).foldr max 0

theorem le_foldr_max {n : Nat} {l : List Nat} (h : n ∈ l) : n ≤ l.foldr max 0 := by
  induction l with
  | nil => simp at h
  | cons a l ih =>
    rcases List.mem_cons.1 h with rfl | h
    · exact Nat.le_max_left _ _
    · exact Nat.le_trans (ih h) (Nat.le_max_right _ _)

theorem length_next_le (g : Graph) (p : Nat) : (g.next p).length ≤ degree g := by
  unfold Graph.next degree
  cases h : g.successors[p]? with
  | none => simp
  | some l => exact le_foldr_max (List.mem_map_of_mem (List.mem_of_getElem? h))

/-- A bound on the steps after entering a position while `free` positions are not on the way. -/
def enterWeight (degree : Nat) : Nat → Nat
  | 0 => 1
  | free + 1 => 2 + degree * enterWeight degree free

def weight (degree : Nat) (free : Nat) : List Frame → Nat
  | [] => 0
  | .enter _ :: rest => enterWeight degree free + weight degree free rest
  | .leave _ :: rest => 1 + weight degree (free + 1) rest

theorem enterWeight_mono (d : Nat) {a b : Nat} (h : a ≤ b) : enterWeight d a ≤ enterWeight d b := by
  induction a generalizing b with
  | zero => cases b <;> simp [enterWeight]; omega
  | succ a ih =>
    cases b with
    | zero => omega
    | succ b =>
      have := Nat.mul_le_mul_left d (ih (Nat.le_of_succ_le_succ h))
      simp only [enterWeight]
      omega

theorem weight_mono (d : Nat) (frames : List Frame) {a b : Nat} (h : a ≤ b) :
    weight d a frames ≤ weight d b frames := by
  induction frames generalizing a b with
  | nil => simp [weight]
  | cons f rest ih =>
    cases f with
    | enter p =>
      have := enterWeight_mono d h
      have := ih h
      simp only [weight]
      omega
    | leave p =>
      have := ih (Nat.add_le_add_right h 1)
      simp only [weight]
      omega

theorem weight_enter (d free : Nat) (next : List Nat) (rest : List Frame) :
    weight d free (next.map .enter ++ rest) = next.length * enterWeight d free + weight d free rest := by
  induction next with
  | nil => simp
  | cons p next ih => simp only [List.map_cons, List.cons_append, weight, ih, List.length_cons, Nat.succ_mul]; omega

def State.free (g : Graph) (s : State τ) : Nat := g.unmarked s.path.contains

theorem unmarked_erase_le (g : Graph) (path : List Nat) (p : Nat) :
    g.unmarked (path.erase p).contains ≤ g.unmarked path.contains + 1 := by
  have hsplit (l : List Nat) (hn : l.Nodup) :
      l.countP (fun q => !(path.erase p).contains q) ≤ l.countP (fun q => !path.contains q) + l.count p := by
    induction l with
    | nil => simp
    | cons q l ih =>
      have ih := ih (List.nodup_cons.1 hn).2
      by_cases hq : q = p
      · subst hq
        simp only [List.countP_cons, List.count_cons_self]
        split <;> split <;> omega
      · have hc : (path.erase p).contains q = path.contains q := by
          simp [List.mem_erase_of_ne hq]
        simp only [List.countP_cons, hc, List.count_cons_of_ne hq]
        omega
  have h := hsplit (List.range g.size) List.nodup_range
  have hc : (List.range g.size).count p ≤ 1 := List.nodup_iff_count.1 List.nodup_range p
  unfold Graph.unmarked
  omega

/-- A step takes from the weight of the frames. -/
theorem step_decreases {g : Graph} {v : Visitor τ ε} {s t : State τ} (h : step g v s = .next t) :
    weight (degree g) (t.free g) t.frames < weight (degree g) (s.free g) s.frames := by
  obtain ⟨frames, path, outputs, world⟩ := s
  unfold step at h
  split at h
  · simp at h
  · rename_i p rest hf
    simp only at hf
    subst hf
    injection h with h
    subst h
    have := weight_mono (degree g) rest (unmarked_erase_le g path p)
    simp only [weight, State.free]
    omega
  · rename_i p rest hf
    simp only at hf
    subst hf
    split at h
    · injection h with h
      subst h
      have := enterWeight_mono (degree g) (Nat.zero_le (State.free g ⟨Frame.enter p :: rest, path, outputs, world⟩))
      simp only [weight, State.free, enterWeight] at this ⊢
      omega
    · rename_i n hn
      split at h
      · simp at h
      · rename_i hp
        split at h
        · simp at h
        · rename_i output world' _
          injection h with h
          subst h
          have hsize : p < g.size := (List.getElem?_eq_some_iff.1 hn).1
          have hlt : g.unmarked (p :: path).contains < g.unmarked path.contains :=
            g.unmarked_lt (fun q hq => by simp_all) hsize (by simpa using hp) (by simp)
          have hlen : (if v.halts n output then [] else g.next p).length ≤ degree g := by
            split
            · simp
            · exact length_next_le g p
          simp only [State.free, weight_enter, weight]
          have hw := weight_mono (degree g) rest (Nat.succ_le_of_lt hlt)
          have he := enterWeight_mono (degree g) (Nat.succ_le_of_lt hlt)
          have hm := Nat.mul_le_mul_right (enterWeight (degree g) (g.unmarked (p :: path).contains)) hlen
          simp only [Nat.succ_eq_add_one, enterWeight] at hw he hm ⊢
          omega

def run (g : Graph) (v : Visitor τ ε) (s : State τ) : Result τ ε :=
  match _h : step g v s with
  | .next t => run g v t
  | .done r => r
  termination_by weight (degree g) (s.free g) s.frames
  decreasing_by exact step_decreases ‹_›

def runFrom (g : Graph) (v : Visitor τ ε) (start : Nat) (world : τ) : Result τ ε :=
  run g v ⟨[.enter start], [], [], world⟩

end RuleFlow.Walk
