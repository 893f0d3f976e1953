import RuleFlow.Walk.Machine
/-! # The calls of a walk

What a walk asks of its visitor, in order, with all that the visitor is given.  Main statements: `runs_iff`, by which
the steps of the machine come to an end and to one end only, and `outputs_of_completed`, by which the outputs of a
walk are the answers of its calls, stored one after the other. -/
namespace RuleFlow.Walk

variable {τ ε : Type}

/-- A visit: where and of which node it is, what the visitor is given, and what it answers. -/
structure Call (τ ε : Type) where
  position : Nat
  node : Node
  outputs : Outputs
  world : τ
  answer : Except ε Json

/-- A walk as it is seen from outside: its calls, and how it ends. -/
structure Trace (τ ε : Type) where
  calls : List (Call τ ε)
  result : Result τ ε

def Trace.prepend (cs : List (Call τ ε)) (t : Trace τ ε) : Trace τ ε := ⟨cs ++ t.calls, t.result⟩

@[simp] theorem Trace.prepend_prepend (cs ds : List (Call τ ε)) (t : Trace τ ε) :
    (t.prepend ds).prepend cs = t.prepend (cs ++ ds) := by
  simp [prepend]

def State.initial (start : Nat) (world : τ) : State τ := ⟨[.enter start], [], [], world⟩

/-- The call of the next step, if it makes one. -/
def call? (g : Graph) (v : Visitor τ ε) (s : State τ) : Option (Call τ ε) :=
  match s.frames with
  | .enter p :: _ =>
    match g.node? p with
    | some n =>
      if s.path.contains p then none else some ⟨p, n, s.outputs, s.world, (v.visit n s.outputs s.world).1⟩
    | none => none
  | _ => none

/-- The steps of a walk to its end, as a relation: what is related has come to its end after finitely many. -/
inductive Runs (g : Graph) (v : Visitor τ ε) : State τ → Trace τ ε → Prop
  | done {s : State τ} {r : Result τ ε} (h : step g v s = .done r) : Runs g v s ⟨(call? g v s).toList, r⟩
  | next {s t : State τ} {rest : Trace τ ε} (h : step g v s = .next t) (hrest : Runs g v t rest) :
    Runs g v s (rest.prepend (call? g v s).toList)

/-- Some steps of a walk, with their calls. -/
inductive Steps (g : Graph) (v : Visitor τ ε) : State τ → List (Call τ ε) → State τ → Prop
  | refl (s : State τ) : Steps g v s [] s
  | next {s t u : State τ} {cs : List (Call τ ε)} (h : step g v s = .next t) (hrest : Steps g v t cs u) :
    Steps g v s ((call? g v s).toList ++ cs) u

/-- Walks until no frame is pending, and keeps the calls. -/
def trace (g : Graph) (v : Visitor τ ε) (s : State τ) : Trace τ ε :=
  match _h : step g v s with
  | .next t => (trace g v t).prepend (call? g v s).toList
  | .done r => ⟨(call? g v s).toList, r⟩
  termination_by weight (degree g) (s.free g) s.frames
  decreasing_by exact step_decreases ‹_›

variable {g : Graph} {v : Visitor τ ε} {s t : State τ}

theorem trace_next (h : step g v s = .next t) : trace g v s = (trace g v t).prepend (call? g v s).toList := by
  rw [trace]
  split
  · rename_i t' h'
    obtain rfl : t = t' := by simpa [h] using h'
    rfl
  · rename_i r h'
    simp [h] at h'

theorem trace_done {r : Result τ ε} (h : step g v s = .done r) : trace g v s = ⟨(call? g v s).toList, r⟩ := by
  rw [trace]
  split
  · rename_i t' h'
    simp [h] at h'
  · rename_i r' h'
    obtain rfl : r = r' := by simpa [h] using h'
    rfl

theorem runs_trace (g : Graph) (v : Visitor τ ε) (s : State τ) : Runs g v s (trace g v s) := by
  fun_induction trace g v s with
  | case1 s t h ih => exact .next h ih
  | case2 s r h => exact .done h

/-- Every walk comes to one end only. -/
theorem runs_iff {w : Trace τ ε} : Runs g v s w ↔ w = trace g v s := by
  constructor
  · intro h
    induction h with
    | done h => rw [trace_done h]
    | next h _ ih => rw [trace_next h, ih]
  · rintro rfl
    exact runs_trace g v s

/-- The end of a walk does not depend on whether the calls are kept. -/
theorem result_trace (g : Graph) (v : Visitor τ ε) (s : State τ) : (trace g v s).result = run g v s := by
  fun_induction run g v s with
  | case1 s t h ih => rw [trace_next h]; exact ih
  | case2 s r h => rw [trace_done h]

theorem runFrom_eq_result (g : Graph) (v : Visitor τ ε) (start : Nat) (world : τ) :
    runFrom g v start world = (trace g v (.initial start world)).result :=
  (result_trace g v (.initial start world)).symm

/-- What a call says is what the walk has then. -/
theorem call?_spec {c : Call τ ε} (h : call? g v s = some c) :
    g.node? c.position = some c.node ∧ c.outputs = s.outputs ∧ c.world = s.world ∧
      c.answer = (v.visit c.node c.outputs c.world).1 := by
  unfold call? at h
  split at h
  · split at h
    · rename_i n hn
      split at h
      · simp at h
      · obtain rfl := Option.some.inj h
        exact ⟨hn, rfl, rfl, rfl⟩
    · simp at h
  · simp at h

/-- Every call is the next one after some steps. -/
theorem exists_steps_of_mem_calls {c : Call τ ε} (h : c ∈ (trace g v s).calls) :
    ∃ cs t, Steps g v s cs t ∧ call? g v t = some c := by
  fun_induction trace g v s with
  | case1 s t ht ih =>
    rcases List.mem_append.1 h with hc | hc
    · exact ⟨[], s, .refl s, by simpa using hc⟩
    · obtain ⟨cs, u, hsteps, hcall⟩ := ih hc
      exact ⟨_, u, .next ht hsteps, hcall⟩
  | case2 s r hd => exact ⟨[], s, .refl s, by simpa using h⟩

theorem node?_of_mem_calls {c : Call τ ε} (h : c ∈ (trace g v s).calls) : g.node? c.position = some c.node := by
  obtain ⟨_, _, _, hcall⟩ := exists_steps_of_mem_calls h
  exact (call?_spec hcall).1

/-- All that a step can be that goes on: a position without a node is passed over, a position is left, or a node is
visited. -/
theorem step_eq_next_cases (h : step g v s = .next t) :
    (call? g v s = none ∧ t.outputs = s.outputs ∧ t.world = s.world) ∨
    ∃ p n x, call? g v s = some ⟨p, n, s.outputs, s.world, .ok x⟩ ∧
      v.visit n s.outputs s.world = (.ok x, t.world) ∧ t.outputs = s.outputs.record n.id x := by
  obtain ⟨frames, path, outputs, world⟩ := s
  match frames with
  | [] => simp [step] at h
  | .leave p :: rest =>
    injection h with h
    subst h
    exact .inl ⟨rfl, rfl, rfl⟩
  | .enter p :: rest =>
    simp only [step] at h
    split at h
    · rename_i hn
      injection h with h
      subst h
      exact .inl ⟨by simp [call?, hn], rfl, rfl⟩
    · rename_i n hn
      split at h
      · simp at h
      · rename_i hp
        split at h
        · simp at h
        · rename_i x world' hv
          injection h with h
          subst h
          exact .inr ⟨p, n, x, by simpa [call?, hn, hv] using hp, hv, rfl⟩

/-- All that a step can be that ends a walk: nothing is pending, a position is entered that is on the way already, or
a visit fails. -/
theorem step_eq_done_cases {r : Result τ ε} (h : step g v s = .done r) :
    (call? g v s = none ∧ r = (.ok s.outputs, s.world)) ∨
    (∃ p n, call? g v s = none ∧ g.node? p = some n ∧ p ∈ s.path ∧ r = (.error (.cycle n.id), s.world)) ∨
    ∃ p n e world, call? g v s = some ⟨p, n, s.outputs, s.world, .error e⟩ ∧
      v.visit n s.outputs s.world = (.error e, world) ∧ r = (.error (.visit e), world) := by
  obtain ⟨frames, path, outputs, world⟩ := s
  match frames with
  | [] =>
    injection h with h
    exact .inl ⟨rfl, h.symm⟩
  | .leave p :: rest => cases h
  | .enter p :: rest =>
    simp only [step] at h
    split at h
    · cases h
    · rename_i n hn
      split at h
      · rename_i hp
        injection h with h
        have hmem : p ∈ path := by simpa using hp
        exact .inr (.inl ⟨p, n, by simp [call?, hn, hmem], hn, hmem, h.symm⟩)
      · rename_i hp
        split at h
        · rename_i e world' hv
          injection h with h
          exact .inr (.inr ⟨p, n, e, world', by simpa [call?, hn, hv] using hp, hv, h.symm⟩)
        · cases h

theorem exists_call_of_failed {e : ε} {world : τ} (h : (trace g v s).result = (.error (.visit e), world)) :
    ∃ c ∈ (trace g v s).calls, c.answer = .error e := by
  fun_induction trace g v s with
  | case1 s t ht ih =>
    obtain ⟨c, hc, he⟩ := ih h
    exact ⟨c, List.mem_append_right _ hc, he⟩
  | case2 s r hd =>
    rcases step_eq_done_cases hd with ⟨_, rfl⟩ | ⟨_, _, _, _, _, rfl⟩ | ⟨p, n, e', _, hc, _, rfl⟩
    · simp at h
    · simp at h
    · obtain ⟨rfl, _⟩ : e' = e ∧ _ := by simpa using h
      exact ⟨⟨p, n, s.outputs, s.world, .error e'⟩, by simp [hc], rfl⟩

def Call.store (outputs : Outputs) (c : Call τ ε) : Outputs :=
  match c.answer with
  | .ok x => outputs.record c.node.id x
  | .error _ => outputs

/-- The outputs of a completed walk are the answers of its calls, stored one after the other; none of them is a
failure. -/
theorem outputs_of_completed {o : Outputs} (h : (trace g v s).result.1 = .ok o) :
    (∀ c ∈ (trace g v s).calls, ∃ x, c.answer = .ok x) ∧ o = (trace g v s).calls.foldl Call.store s.outputs := by
  fun_induction trace g v s with
  | case1 s t ht ih =>
    obtain ⟨hall, ho⟩ := ih h
    rcases step_eq_next_cases ht with ⟨hc, hout, _⟩ | ⟨p, n, x, hc, _, hout⟩
    · simpa [Trace.prepend, hc, ← hout] using And.intro hall ho
    · refine ⟨fun c hmem => ?_, ?_⟩
      · rcases List.mem_append.1 hmem with hmem | hmem
        · obtain rfl : c = ⟨p, n, s.outputs, s.world, .ok x⟩ := by simpa [hc] using hmem
          exact ⟨x, rfl⟩
        · exact hall c hmem
      · simpa [Trace.prepend, hc, Call.store, ← hout] using ho
  | case2 s r hd =>
    rcases step_eq_done_cases hd with ⟨hc, rfl⟩ | ⟨_, _, _, _, _, rfl⟩ | ⟨_, _, _, _, _, _, rfl⟩
    · simpa [hc, eq_comm] using h
    · simp at h
    · simp at h

end RuleFlow.Walk
