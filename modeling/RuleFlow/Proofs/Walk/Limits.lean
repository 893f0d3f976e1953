import RuleFlow.Proofs.Walk.Keeps
/-! # Runs under two limits

Under two limits a run is made of the same parts, but for the reads of assets and the looks at the clock.  So a relation
between actions that holds for each part, and goes through sequences, holds for the whole run under one limit and under
the other: `related_runWithin`. -/
namespace RuleFlow.Walk

variable {σ α β : Type} {b : Backend σ} {limit limit' : Limit} {R : (α : Type) → Action σ α → Action σ α → Prop}
  {ctx : Context} {n : Node} {outputs : Outputs} {branchOnFalse : Bool} {g : Graph}

/-- Whether a relation holds between all that runs under one limit are made of and the same under another limit. -/
structure Action.Relates (b : Backend σ) (limit limit' : Limit) (R : (α : Type) → Action σ α → Action σ α → Prop) :
    Prop where
  pure {α : Type} (a : α) : R α (pure a) (pure a)
  throw (α : Type) {e : RunError} (he : ∀ ms, e ≠ .timeout ms) : R α (throw e) (throw e)
  bind {α β : Type} {x x' : Action σ α} {f f' : α → Action σ β} (h : R α x x') (hf : ∀ a, R β (f a) (f' a)) :
    R β (x >>= f) (x' >>= f')
  get : R (World σ) get get
  stageAttribute (ctx : Context) (key : String) (value : Json) :
    R Json.Object (Action.stageAttribute ctx key value) (Action.stageAttribute ctx key value)
  stageComputed (ctx : Context) (key : String) (value : Json) :
    R Json.Object (Action.stageComputed ctx key value) (Action.stageComputed ctx key value)
  updateAsset (tenant asset : String) (change : AssetUpdate) :
    R Unit (Action.ask (b.updateAsset tenant asset change)) (Action.ask (b.updateAsset tenant asset change))
  replaceComputed (tenant asset : String) (values : Json.Object) :
    R Unit (Action.ask (b.replaceComputed tenant asset values)) (Action.ask (b.replaceComputed tenant asset values))
  raise (alarm : Alarm) : R Unit (Action.ask (b.raise alarm)) (Action.ask (b.raise alarm))
  report (e : Journal.Entry) : R Unit (Action.report b e) (Action.report b e)
  readAsset (tenant asset : String) :
    R Asset (Action.readAsset b limit tenant asset) (Action.readAsset b limit' tenant asset)
  checkLimit : R Unit (Action.checkLimit b limit) (Action.checkLimit b limit')

def walkOn (b : Backend σ) (limit : Limit) (ctx : Context) (branchOnFalse : Bool) (g : Graph) (frames : List Frame)
    (path : List Nat) (outputs : Outputs) : Action σ Outputs :=
  ExceptT.mk fun world =>
    let (result, world) := run g (visitor b limit ctx branchOnFalse) ⟨frames, path, outputs, world⟩
    (result.mapError Failure.error, world)

theorem run_next {τ ε : Type} {v : Visitor τ ε} {s t : State τ} (h : step g v s = .next t) : run g v s = run g v t := by
  rw [← result_trace, trace_next h]
  exact result_trace g v t

theorem run_done {τ ε : Type} {v : Visitor τ ε} {s : State τ} {r : Result τ ε} (h : step g v s = .done r) :
    run g v s = r := by
  rw [← result_trace, trace_done h]

section

variable {p : Nat} {rest : List Frame} {path : List Nat}

theorem walkOn_nil : walkOn b limit ctx branchOnFalse g [] path outputs = pure outputs := by
  funext w
  simp only [walkOn, ExceptT.mk]
  rw [run_done rfl]
  rfl

theorem walkOn_leave : walkOn b limit ctx branchOnFalse g (.leave p :: rest) path outputs =
    walkOn b limit ctx branchOnFalse g rest (path.erase p) outputs := by
  funext w
  simp only [walkOn, ExceptT.mk]
  rw [run_next rfl]

theorem walkOn_pass (h : g.node? p = none) : walkOn b limit ctx branchOnFalse g (.enter p :: rest) path outputs =
    walkOn b limit ctx branchOnFalse g rest path outputs := by
  funext w
  simp only [walkOn, ExceptT.mk]
  rw [run_next (t := ⟨rest, path, outputs, w⟩) (by simp only [step, h])]

theorem walkOn_cycle (h : g.node? p = some n) (hp : p ∈ path) :
    walkOn b limit ctx branchOnFalse g (.enter p :: rest) path outputs = throw (.cycleDetected n.id) := by
  funext w
  simp only [walkOn, ExceptT.mk]
  rw [run_done (r := (.error (.cycle n.id), w)) (by simp [step, h, hp])]
  rfl

/-- To enter a position is to visit its node, and to walk on to the successors unless the branch ends there. -/
theorem walkOn_visit (h : g.node? p = some n) (hp : p ∉ path) :
    walkOn b limit ctx branchOnFalse g (.enter p :: rest) path outputs = (do
      let output ← visitNode b limit ctx branchOnFalse n outputs
      walkOn b limit ctx branchOnFalse g
        ((if halts branchOnFalse n output then [] else g.next p).map .enter ++ .leave p :: rest) (p :: path)
        (outputs.record n.id output)) := by
  funext w
  simp only [walkOn, bind, ExceptT.bind, ExceptT.mk, StateT.bind]
  rcases hv : visitNode b limit ctx branchOnFalse n outputs w with ⟨e | output, w'⟩
  · rw [run_done (r := (.error (.visit e), w')) (by simp [step, h, hp, visitor, ExceptT.run, hv])]
    rfl
  · have hstep : step g (visitor b limit ctx branchOnFalse) ⟨.enter p :: rest, path, outputs, w⟩ =
        .next ⟨(if halts branchOnFalse n output then [] else g.next p).map .enter ++ .leave p :: rest, p :: path,
          outputs.record n.id output, w'⟩ := by
      simp [step, h, hp, visitor, ExceptT.run, hv]
      rfl
    rw [run_next hstep]
    rfl

end

variable (hR : Action.Relates b limit limit' R)
include hR

theorem related_visitKind (ctx : Context) (n : Node) (outputs : Outputs) :
    R Json (visitKind b limit ctx n outputs) (visitKind b limit' ctx n outputs) := by
  unfold visitKind
  cases n.kind with
  | trigger _ => exact hR.pure _
  | getTelemetry _ => exact hR.pure _
  | getAttribute _ => exact hR.pure _
  | condition source =>
    dsimp only [visitCondition]
    split
    · exact hR.pure _
    · exact hR.bind (hR.report _) fun _ => hR.pure _
  | math operation operands =>
    dsimp only
    cases h : operation.evaluate n.id operands outputs with
    | ok x => exact hR.pure x
    | error e => exact hR.throw Json (MathOperation.evaluate_ofData h).timely
  | formula source =>
    refine hR.bind (hR.readAsset _ _) fun a => ?_
    split
    · exact hR.throw Json nofun
    · exact hR.bind (hR.report _) fun _ => hR.pure _
  | setComputed field value =>
    refine hR.bind hR.get fun w => hR.bind (hR.stageComputed _ _ _) fun _ => ?_
    exact hR.bind (hR.replaceComputed _ _ _) fun _ => hR.bind (hR.report _) fun _ => hR.pure _
  | setAttribute name value =>
    refine hR.bind (hR.stageAttribute _ _ _) fun _ => ?_
    exact hR.bind (hR.updateAsset _ _ _) fun _ => hR.bind (hR.report _) fun _ => hR.pure _
  | setStatus status =>
    exact hR.bind (hR.updateAsset _ _ _) fun _ => hR.bind (hR.report _) fun _ => hR.pure _
  | createAlarm template => exact hR.bind hR.get fun w => hR.bind (hR.raise _) fun _ => hR.pure _
  | log message level => exact hR.bind (hR.report _) fun _ => hR.pure _

theorem related_visitNode (ctx : Context) (branchOnFalse : Bool) (n : Node) (outputs : Outputs) :
    R Json (visitNode b limit ctx branchOnFalse n outputs) (visitNode b limit' ctx branchOnFalse n outputs) := by
  unfold visitNode
  refine hR.bind hR.checkLimit fun _ => hR.bind (related_visitKind hR ctx n outputs) fun output => ?_
  refine hR.bind (hR.report _) fun _ => ?_
  dsimp only
  split
  · exact hR.bind (hR.report _) fun _ => hR.pure _
  · exact hR.pure _

theorem related_walkOn (frames : List Frame) (path : List Nat) (outputs : Outputs) :
    R Outputs (walkOn b limit ctx branchOnFalse g frames path outputs)
      (walkOn b limit' ctx branchOnFalse g frames path outputs) := by
  -- The weight goes down whatever a visit gives out, as it does for a visitor that gives out just that.
  let answering (x : Json) : Visitor Unit RunError := ⟨fun _ _ _ => (.ok x, ()), halts branchOnFalse⟩
  induction hweight : weight (degree g) (g.unmarked path.contains) frames using Nat.strong_induction_on
    generalizing frames path outputs with
  | _ m ih =>
    subst hweight
    cases frames with
    | nil =>
      rw [walkOn_nil, walkOn_nil]
      exact hR.pure outputs
    | cons frame rest =>
      cases frame with
      | leave p =>
        rw [walkOn_leave, walkOn_leave]
        exact ih _ (step_decreases (v := answering .null) (s := ⟨.leave p :: rest, path, outputs, ()⟩) rfl) _ _ _ rfl
      | enter p =>
        cases hn : g.node? p with
        | none =>
          rw [walkOn_pass hn, walkOn_pass hn]
          refine ih _ (step_decreases (v := answering .null) (s := ⟨.enter p :: rest, path, outputs, ()⟩)
            (t := ⟨rest, path, outputs, ()⟩) ?_) _ _ _ rfl
          simp only [step, hn]
        | some n =>
          by_cases hp : p ∈ path
          · rw [walkOn_cycle hn hp, walkOn_cycle hn hp]
            exact hR.throw Outputs (by simp)
          · rw [walkOn_visit hn hp, walkOn_visit hn hp]
            refine hR.bind (related_visitNode hR ctx branchOnFalse n outputs) fun output => ?_
            refine ih _ (step_decreases (v := answering output) (s := ⟨.enter p :: rest, path, outputs, ()⟩)
              (t := ⟨_, p :: path, outputs.record n.id output, ()⟩) ?_) _ _ _ rfl
            simp [step, hn, hp, answering]

theorem related_compileRule (rule : Rule) : R (Graph × Nat) (compileRule b rule) (compileRule b rule) := by
  have hdropped (dropped : List DroppedConnection) :
      R PUnit (dropped.forM (reportDropped b rule.id)) (dropped.forM (reportDropped b rule.id)) := by
    induction dropped with
    | nil => exact hR.pure _
    | cons d rest ih => exact hR.bind (hR.report _) fun _ => ih
  unfold compileRule
  cases Graph.compile rule with
  | error e => exact hR.throw _ nofun
  | ok found =>
    obtain ⟨g, dropped⟩ := found
    refine hR.bind (hdropped dropped) fun _ => ?_
    split
    · exact hR.throw _ nofun
    · exact hR.pure _

theorem related_prepare (rule : Rule) (asset tenant : String) (payload : Json) :
    R Prepared (prepare b limit rule asset tenant payload) (prepare b limit' rule asset tenant payload) := by
  unfold prepare
  refine hR.bind (hR.readAsset tenant asset) fun a => ?_
  split
  · exact hR.bind (hR.report _) fun _ => hR.pure _
  · exact hR.bind (related_compileRule hR rule) fun _ => hR.pure _

/-- What holds for the parts of runs under two limits, and goes through sequences, holds for the runs. -/
theorem related_runWithin (rule : Rule) (asset tenant : String) (payload : Json) :
    R Outcome (runWithin b limit rule asset tenant payload) (runWithin b limit' rule asset tenant payload) := by
  unfold runWithin
  refine hR.bind (related_prepare hR rule asset tenant payload) fun p => ?_
  cases p with
  | skipped reason => exact hR.pure _
  | ready g start ctx => exact hR.bind (related_walkOn hR [.enter start] [] []) fun _ => hR.pure _

end RuleFlow.Walk
