import RuleFlow.Proofs.Walk.Outputs
import RuleFlow.Walk.Rule
/-! # Walks in pre-order

The recursive definition of a walk: a node is visited, and then its successors are walked in their order, with the
node on the way.  Main statement: `runs_iff_preorder`, by which the machine with its stack of frames is this
definition, whatever the visits do. -/
namespace RuleFlow.Walk

variable {τ ε : Type}

/-- One walk after another: the second goes on with the outputs and the world of the first, if that completes. -/
def Trace.andThen (t : Trace τ ε) (next : Outputs → τ → Trace τ ε) : Trace τ ε :=
  match t.result with
  | (.ok o, world) => (next o world).prepend t.calls
  | (.error _, _) => t

def Trace.inOrder (visit : Nat → Outputs → τ → Trace τ ε) : List Nat → Outputs → τ → Trace τ ε
  | [], o, world => ⟨[], (.ok o, world)⟩
  | p :: rest, o, world => (visit p o world).andThen (inOrder visit rest)

/-- Walks from a position with some positions on the way.  A position that is on the way is a failure; a position
without a node, which no compiled rule has, is passed over. -/
def preorder (g : Graph) (v : Visitor τ ε) (path : List Nat) (p : Nat) (o : Outputs) (world : τ) : Trace τ ε :=
  match _hn : g.node? p with
  | none => ⟨[], (.ok o, world)⟩
  | some n =>
    if _hp : p ∈ path then ⟨[], (.error (.cycle n.id), world)⟩
    else
      match v.visit n o world with
      | (.error e, world') => ⟨[⟨p, n, o, world, .error e⟩], (.error (.visit e), world')⟩
      | (.ok x, world') =>
        (Trace.inOrder (fun q => preorder g v (p :: path) q) (if v.halts n x then [] else g.next p)
          (o.record n.id x) world').prepend [⟨p, n, o, world, .ok x⟩]
  termination_by g.unmarked path.contains
  decreasing_by
    have hlt : p < g.size := (List.getElem?_eq_some_iff.1 ‹_›).1
    exact g.unmarked_lt (fun q hq => by simp_all) hlt (by simpa using _hp) (by simp)

theorem Trace.andThen_ok {t : Trace τ ε} {o : Outputs} {world : τ} (h : t.result = (.ok o, world))
    (next : Outputs → τ → Trace τ ε) : t.andThen next = (next o world).prepend t.calls := by
  simp [andThen, h]

theorem Trace.andThen_error {t : Trace τ ε} {e : Failure ε} {world : τ} (h : t.result = (.error e, world))
    (next : Outputs → τ → Trace τ ε) : t.andThen next = t := by
  simp [andThen, h]

theorem Trace.prepend_andThen (cs : List (Call τ ε)) (t : Trace τ ε) (next : Outputs → τ → Trace τ ε) :
    (t.prepend cs).andThen next = (t.andThen next).prepend cs := by
  rcases hr : t.result with ⟨e | o, world⟩
  · rw [andThen_error (t := t.prepend cs) hr, andThen_error hr]
  · rw [andThen_ok (t := t.prepend cs) hr, andThen_ok hr, prepend_prepend]
    rfl

theorem Trace.andThen_assoc (t : Trace τ ε) (f k : Outputs → τ → Trace τ ε) :
    (t.andThen f).andThen k = t.andThen fun o world => (f o world).andThen k := by
  rcases hr : t.result with ⟨e | o, world⟩
  · rw [andThen_error hr, andThen_error hr, andThen_error hr]
  · rw [andThen_ok hr, andThen_ok hr, prepend_andThen]

theorem Trace.andThen_stop (t : Trace τ ε) : (t.andThen fun o world => ⟨[], (.ok o, world)⟩) = t := by
  rcases hr : t.result with ⟨e | o, world⟩
  · rw [andThen_error hr]
  · simp [andThen_ok hr, prepend, ← hr]

variable {g : Graph} {v : Visitor τ ε}

/-- Positions that are pending together are walked one after the other, if each of them is. -/
theorem trace_enters {visit : Nat → Outputs → τ → Trace τ ε} {path : List Nat}
    (hvisit : ∀ p o world rest, trace g v ⟨.enter p :: rest, path, o, world⟩ =
      (visit p o world).andThen fun o world => trace g v ⟨rest, path, o, world⟩)
    (ps : List Nat) (rest : List Frame) (o : Outputs) (world : τ) :
    trace g v ⟨ps.map .enter ++ rest, path, o, world⟩ =
      (Trace.inOrder visit ps o world).andThen fun o world => trace g v ⟨rest, path, o, world⟩ := by
  induction ps generalizing o world with
  | nil => rfl
  | cons p ps ih => simp only [List.map_cons, List.cons_append, Trace.inOrder, hvisit, Trace.andThen_assoc, ih]

theorem trace_leave (p : Nat) (rest : List Frame) (path : List Nat) (o : Outputs) (world : τ) :
    trace g v ⟨.leave p :: rest, p :: path, o, world⟩ = trace g v ⟨rest, path, o, world⟩ := by
  have hstep : step g v ⟨.leave p :: rest, p :: path, o, world⟩ = .next ⟨rest, path, o, world⟩ := by
    simp [step]
  rw [trace_next hstep]
  rfl

/-- A pending position is walked as the recursion says, and then the frames below it. -/
theorem trace_enter (path : List Nat) (p : Nat) (o : Outputs) (world : τ) (rest : List Frame) :
    trace g v ⟨.enter p :: rest, path, o, world⟩ =
      (preorder g v path p o world).andThen fun o world => trace g v ⟨rest, path, o, world⟩ := by
  fun_induction preorder g v path p o world generalizing rest with
  | case1 path p o world hn =>
    have hstep : step g v ⟨.enter p :: rest, path, o, world⟩ = .next ⟨rest, path, o, world⟩ := by
      simp [step, hn]
    rw [trace_next hstep]
    simp [call?, hn, Trace.andThen]
  | case2 path p o world n hn hp =>
    have hstep : step g v ⟨.enter p :: rest, path, o, world⟩ = .done (.error (.cycle n.id), world) := by
      simp [step, hn, hp]
    rw [trace_done hstep]
    simp [call?, hn, hp, Trace.andThen]
  | case3 path p o world n hn hp e world' hv =>
    have hstep : step g v ⟨.enter p :: rest, path, o, world⟩ = .done (.error (.visit e), world') := by
      simp [step, hn, hp, hv]
    rw [trace_done hstep]
    simp [call?, hn, hp, hv, Trace.andThen]
  | case4 path p o world n hn hp x world' hv ih =>
    have hstep : step g v ⟨.enter p :: rest, path, o, world⟩ =
        .next ⟨(if v.halts n x then [] else g.next p).map .enter ++ .leave p :: rest, p :: path,
          o.record n.id x, world'⟩ := by
      simp [step, hn, hp, hv]
    have hcall : call? g v ⟨.enter p :: rest, path, o, world⟩ = some ⟨p, n, o, world, .ok x⟩ := by
      simp [call?, hn, hp, hv]
    -- below the successors lies the frame that leaves `p`, so that the way is `path` again when they are done
    rw [trace_next hstep, hcall, trace_enters (fun q o world rest => ih q o world rest)]
    simp only [trace_leave, Trace.prepend_andThen, Option.toList_some]

theorem trace_initial (g : Graph) (v : Visitor τ ε) (start : Nat) (world : τ) :
    trace g v (.initial start world) = preorder g v [] start [] world := by
  have hempty (o : Outputs) (world : τ) : trace g v ⟨[], [], o, world⟩ = ⟨[], (.ok o, world)⟩ :=
    trace_done rfl
  simp only [State.initial, trace_enter, hempty, Trace.andThen_stop]

/-- The visitor of a rule whose nodes are handled in any way: what the handlers put out, do to the world and fail
with is left open, and only a false condition can end a branch. -/
abbrev handled (handler : Node → Outputs → τ → Except ε Json × τ) (branchOnFalse : Bool) : Visitor τ ε :=
  ⟨handler, halts branchOnFalse⟩

theorem halts_eq_true_iff {branchOnFalse : Bool} {n : Node} {x : Json} :
    halts branchOnFalse n x = true ↔
      branchOnFalse = true ∧ (∃ source, n.kind = .condition source) ∧ x = .bool false := by
  unfold halts
  split
  · rename_i source hk
    simp [hk]
  · rename_i hne
    refine ⟨by simp, ?_⟩
    rintro ⟨_, ⟨source, hk⟩, rfl⟩
    exact absurd rfl (hne source hk)

/-- The machine with its stack of frames and the recursion in pre-order are one.  From any start in any graph, and
whatever the handlers do, the steps of the machine come to an end after the calls of the recursion, with the same
contexts and the same result; and the outputs of a walk that completes stand in the order of the first visits of
their nodes, each with the value of the last one. -/
theorem runs_iff_preorder (g : Graph) (start : Nat) (handler : Node → Outputs → τ → Except ε Json × τ)
    (branchOnFalse : Bool) (world : τ) (walk : Trace τ ε) :
    (Runs g (handled handler branchOnFalse) (.initial start world) walk ↔
      walk = preorder g (handled handler branchOnFalse) [] start [] world) ∧
    (walk = preorder g (handled handler branchOnFalse) [] start [] world →
      runFrom g (handled handler branchOnFalse) start world = walk.result ∧
      ∀ o, walk.result.1 = .ok o →
        o.keys = (walk.calls.map (·.node.id)).eraseDups ∧
        ∀ id, o.get? id = (walk.calls.filter fun c => c.node.id = id).getLast?.bind fun c => c.answer.toOption) := by
  rw [← trace_initial]
  refine ⟨runs_iff, ?_⟩
  rintro rfl
  refine ⟨runFrom_eq_result g _ start world, fun o ho => ?_⟩
  obtain ⟨hall, rfl⟩ := outputs_of_completed ho
  exact ⟨keys_store hall, get?_store hall⟩

end RuleFlow.Walk
