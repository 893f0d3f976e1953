import RuleFlow.Proofs.Backend.Alike
import RuleFlow.Proofs.Walk.Run
import RuleFlow.Proofs.Walk.Simulation
/-! # Walks on backends that are alike

What a walk does on one backend it does on every backend that is alike: visits answer the same, and leave the same
staged writes, the same times and related stores.  Main statements: `alike_visitNode` and `alike_prepare`. -/
namespace RuleFlow.Walk

variable {σ σ' α β γ δ : Type} {b : Backend σ} {b' : Backend σ'} {R : σ → σ' → Prop}

structure World.Alike (R : σ → σ' → Prop) (w : World σ) (w' : World σ') : Prop where
  stores : R w.stores w'.stores
  waited : w.waited = w'.waited
  worked : w.worked = w'.worked
  attributes : w.attributes = w'.attributes
  computed : w.computed = w'.computed

/-- Whether two actions, begun in worlds that are alike, end with the same error or related results, in worlds that are
alike. -/
def Action.Alike (R : σ → σ' → Prop) (Q : α → β → Prop) (x : Action σ α) (x' : Action σ' β) : Prop :=
  RuleFlow.Alike (World.Alike R) (Agree Q) x.run x'.run

namespace Action.Alike

variable {Q : α → β → Prop} {S : γ → δ → Prop}

protected theorem pure {a : α} {a' : β} (h : Q a a') :
    Action.Alike R Q (pure a : Action σ α) (pure a' : Action σ' β) := fun _ _ hw => ⟨.ok h, hw⟩

theorem throw (e : RunError) : Action.Alike R Q (throw e : Action σ α) (throw e : Action σ' β) :=
  fun _ _ hw => ⟨.error e, hw⟩

protected theorem bind {x : Action σ α} {x' : Action σ' β} {f : α → Action σ γ} {f' : β → Action σ' δ}
    (h : x.Alike R Q x') (hf : ∀ a a', Q a a' → (f a).Alike R S (f' a')) :
    (x >>= f).Alike R S (x' >>= f') := by
  change RuleFlow.Alike _ _ (x.run >>= ExceptT.bindCont f) (x'.run >>= ExceptT.bindCont f')
  refine RuleFlow.Alike.bind h ?_
  rintro _ _ (⟨e⟩ | ⟨hq⟩)
  · exact RuleFlow.Alike.pure (.error e)
  · exact hf _ _ hq

theorem bind_eq {x : Action σ α} {x' : Action σ' α} {f : α → Action σ γ} {f' : α → Action σ' δ}
    (h : x.Alike R Eq x') (hf : ∀ a, (f a).Alike R S (f' a)) : (x >>= f).Alike R S (x' >>= f') := by
  refine h.bind ?_
  rintro a _ rfl
  exact hf a

theorem get : Action.Alike R (World.Alike R) (get : Action σ (World σ)) (get : Action σ' (World σ')) :=
  fun _ _ hw => ⟨.ok hw, hw⟩

theorem set {w : World σ} {w' : World σ'} (h : w.Alike R w') :
    Action.Alike R Eq (set w : Action σ PUnit) (set w' : Action σ' PUnit) := fun _ _ _ => ⟨.ok rfl, h⟩

theorem stores {f : StateM σ α} {f' : StateM σ' α} (h : RuleFlow.Alike R Eq f f') :
    (Action.stores f).Alike R Eq (Action.stores f') := by
  intro w w' hw
  obtain ⟨hanswer, hstores⟩ := h _ _ hw.stores
  exact ⟨.ok hanswer, hstores, hw.waited, hw.worked, hw.attributes, hw.computed⟩

theorem report (hb : b.Alike b' R) (e : Journal.Entry) : (Action.report b e).Alike R Eq (Action.report b' e) :=
  stores (hb.report e)

theorem ask {f : Ask σ α} {f' : Ask σ' α} (h : RuleFlow.Alike R Eq f f') :
    (Action.ask f).Alike R Eq (Action.ask f') := by
  unfold Action.ask
  refine (stores h).bind_eq fun answer => ?_
  cases answer with
  | error e => exact throw _
  | ok a => exact .pure rfl

theorem readAsset (hb : b.Alike b' R) (limit : Limit) (tenant asset : String) :
    (Action.readAsset b limit tenant asset).Alike R Eq (Action.readAsset b' limit tenant asset) := by
  unfold Action.readAsset
  refine get.bind fun w w' hw => ?_
  dsimp only
  rw [hw.waited, hb.readDelay hw.stores]
  have hread : World.Alike R { w with waited := w'.waited + b'.readDelay w'.stores }
      { w' with waited := w'.waited + b'.readDelay w'.stores } :=
    ⟨hw.stores, rfl, hw.worked, hw.attributes, hw.computed⟩
  have hfind := ask (hb.findAsset tenant asset)
  cases limit with
  | none =>
    refine (set hread).bind_eq fun _ => hfind.bind_eq fun found => ?_
    cases found with
    | none => exact throw _
    | some a => exact .pure rfl
  | some ms =>
    dsimp only
    split
    · exact throw _
    · refine (set hread).bind_eq fun _ => hfind.bind_eq fun found => ?_
      cases found with
      | none => exact throw _
      | some a => exact .pure rfl

theorem checkLimit (hb : b.Alike b' R) (limit : Limit) :
    (Action.checkLimit b limit).Alike R Eq (Action.checkLimit b' limit) := by
  unfold Action.checkLimit
  refine get.bind fun w w' hw => ?_
  dsimp only
  rw [hw.worked, hb.workTime hw.stores]
  have hwork : World.Alike R { w with worked := w'.worked + b'.workTime w'.stores }
      { w' with worked := w'.worked + b'.workTime w'.stores } :=
    ⟨hw.stores, hw.waited, rfl, hw.attributes, hw.computed⟩
  refine (set hwork).bind_eq fun _ => ?_
  cases limit with
  | none => exact .pure rfl
  | some ms =>
    dsimp only
    split
    · exact throw _
    · exact .pure rfl

theorem stageAttribute (ctx : Context) (key : String) (value : Json) :
    (Action.stageAttribute ctx key value : Action σ _).Alike R Eq
      (Action.stageAttribute ctx key value : Action σ' _) := by
  intro w w' hw
  obtain ⟨stores, waited, worked, attributes, computed⟩ := w
  obtain ⟨stores', waited', worked', attributes', computed'⟩ := w'
  obtain ⟨hstores, rfl, rfl, rfl, rfl⟩ := hw
  exact ⟨.ok rfl, hstores, rfl, rfl, rfl, rfl⟩

theorem stageComputed (ctx : Context) (key : String) (value : Json) :
    (Action.stageComputed ctx key value : Action σ _).Alike R Eq
      (Action.stageComputed ctx key value : Action σ' _) := by
  intro w w' hw
  obtain ⟨stores, waited, worked, attributes, computed⟩ := w
  obtain ⟨stores', waited', worked', attributes', computed'⟩ := w'
  obtain ⟨hstores, rfl, rfl, rfl, rfl⟩ := hw
  exact ⟨.ok rfl, hstores, rfl, rfl, rfl, rfl⟩

end Action.Alike

variable {ctx : Context} {n : Node} {outputs : Outputs} {limit : Limit}

/-- What a node does is done alike. -/
theorem alike_visitKind (hb : b.Alike b' R) (limit : Limit) (ctx : Context) (n : Node) (outputs : Outputs) :
    (visitKind b limit ctx n outputs).Alike R Eq (visitKind b' limit ctx n outputs) := by
  unfold visitKind
  cases n.kind with
  | trigger _ => exact .pure rfl
  | getTelemetry _ => exact .pure rfl
  | getAttribute _ => exact .pure rfl
  | condition source =>
    dsimp only [visitCondition]
    split
    · exact .pure rfl
    · exact (Action.Alike.report hb _).bind_eq fun _ => .pure rfl
  | math operation operands =>
    exact fun _ _ hw => ⟨Agree.refl Eq.refl _, hw⟩
  | formula source =>
    refine (Action.Alike.readAsset hb _ _ _).bind_eq fun a => ?_
    split
    · exact .throw _
    · exact (Action.Alike.report hb _).bind_eq fun _ => .pure rfl
  | setComputed field value =>
    refine Action.Alike.get.bind fun w w' hw => ?_
    dsimp only
    rw [hb.now hw.stores]
    refine (Action.Alike.stageComputed _ _ _).bind_eq fun computed => ?_
    refine (Action.Alike.ask (hb.replaceComputed _ _ _)).bind_eq fun _ => ?_
    exact (Action.Alike.report hb _).bind_eq fun _ => .pure rfl
  | setAttribute name value =>
    refine (Action.Alike.stageAttribute _ _ _).bind_eq fun attributes => ?_
    refine (Action.Alike.ask (hb.updateAsset _ _ _)).bind_eq fun _ => ?_
    exact (Action.Alike.report hb _).bind_eq fun _ => .pure rfl
  | setStatus status =>
    refine (Action.Alike.ask (hb.updateAsset _ _ _)).bind_eq fun _ => ?_
    exact (Action.Alike.report hb _).bind_eq fun _ => .pure rfl
  | createAlarm template =>
    refine Action.Alike.get.bind fun w w' hw => ?_
    rw [hb.now hw.stores]
    exact (Action.Alike.ask (hb.raise _)).bind_eq fun _ => .pure rfl
  | log message level => exact (Action.Alike.report hb _).bind_eq fun _ => .pure rfl

def reportStop (b : Backend σ) (ctx : Context) (branchOnFalse : Bool) (n : Node) (output : Json) : Action σ Unit :=
  if halts branchOnFalse n output then
    Action.report b (entry .debug "Condition false, branch stopped"
      [("rule.id", .string ctx.rule), ("node.id", .string n.id)])
  else pure ()

theorem visitNode_eq (b : Backend σ) (limit : Limit) (ctx : Context) (branchOnFalse : Bool) (n : Node)
    (outputs : Outputs) :
    visitNode b limit ctx branchOnFalse n outputs = do
      Action.checkLimit b limit
      let output ← visitKind b limit ctx n outputs
      Action.report b (entry .debug "Node evaluated"
        [("rule.id", .string ctx.rule), ("node.id", .string n.id), ("node.type", .string n.kind.typeName)])
      reportStop b ctx branchOnFalse n output
      return output := by
  unfold visitNode reportStop
  congr 1
  funext _
  congr 1
  funext output
  congr 1
  funext _
  dsimp only
  split <;> rfl

/-- Visits are alike if what is reported of the ends of branches is. -/
theorem alike_visitNode (hb : b.Alike b' R) {branchOnFalse branchOnFalse' : Bool}
    (hstop : ∀ x, (reportStop b ctx branchOnFalse n x).Alike R Eq (reportStop b' ctx branchOnFalse' n x)) :
    (visitNode b limit ctx branchOnFalse n outputs).Alike R Eq (visitNode b' limit ctx branchOnFalse' n outputs) := by
  rw [visitNode_eq, visitNode_eq]
  refine (Action.Alike.checkLimit hb limit).bind_eq fun _ => ?_
  refine (alike_visitKind hb limit ctx n outputs).bind_eq fun x => ?_
  refine (Action.Alike.report hb _).bind_eq fun _ => ?_
  exact (hstop x).bind_eq fun _ => .pure rfl

theorem alike_reportStop (hb : b.Alike b' R) (ctx : Context) (branchOnFalse : Bool) (n : Node) (x : Json) :
    (reportStop b ctx branchOnFalse n x).Alike R Eq (reportStop b' ctx branchOnFalse n x) := by
  unfold reportStop
  split
  · exact .report hb _
  · exact .pure rfl

section Quiet

variable {ν : Type} {view : σ → ν}

/-- Whether an action succeeds and changes nothing that is looked at. -/
def Action.Quiet (view : σ → ν) (x : Action σ Unit) : Prop :=
  ∀ w, (x.run w).1 = .ok () ∧ World.Alike (SameView view) (x.run w).2 w

theorem Action.quiet_pure : Action.Quiet view (pure () : Action σ Unit) :=
  fun _ => ⟨rfl, rfl, rfl, rfl, rfl, rfl⟩

theorem Action.quiet_report (hb : b.JournalApart view) {e : Journal.Entry} (he : e.part = .engine) :
    Action.Quiet view (Action.report b e) :=
  fun w => ⟨rfl, hb.report e he w.stores, rfl, rfl, rfl, rfl⟩

theorem World.Alike.trans_sameView {w w₁ w₂ : World σ} (h : w.Alike (SameView view) w₁)
    (h₁ : w₁.Alike (SameView view) w₂) : w.Alike (SameView view) w₂ :=
  ⟨h.stores.trans h₁.stores, h.waited.trans h₁.waited, h.worked.trans h₁.worked, h.attributes.trans h₁.attributes,
    h.computed.trans h₁.computed⟩

theorem World.Alike.symm_sameView {w w₁ : World σ} (h : w.Alike (SameView view) w₁) : w₁.Alike (SameView view) w :=
  ⟨h.stores.symm, h.waited.symm, h.worked.symm, h.attributes.symm, h.computed.symm⟩

theorem Action.Quiet.bind {x : Action σ Unit} {f : Unit → Action σ Unit} (hx : x.Quiet view)
    (hf : (f ()).Quiet view) : (x >>= f).Quiet view := by
  intro w
  obtain ⟨hr, h⟩ := hx w
  have hrun : (x >>= f).run w = (f ()).run (x.run w).2 := by
    have hw : x.run w = (.ok (), (x.run w).2) := Prod.ext hr rfl
    change (let (a, w₁) := x.run w; ExceptT.bindCont f a w₁) = _
    rw [hw]
    rfl
  rw [hrun]
  obtain ⟨hr', h'⟩ := hf (x.run w).2
  exact ⟨hr', h'.trans_sameView h⟩

theorem Action.Quiet.alike {x x' : Action σ Unit} (hx : x.Quiet view) (hx' : x'.Quiet view) :
    x.Alike (SameView view) Eq x' := by
  intro w w' hw
  obtain ⟨hr, h⟩ := hx w
  obtain ⟨hr', h'⟩ := hx' w'
  rw [hr, hr']
  exact ⟨.ok rfl, (h.trans_sameView hw).trans_sameView h'.symm_sameView⟩

theorem quiet_reportStop (hb : b.JournalApart view) (ctx : Context) (branchOnFalse : Bool) (n : Node) (x : Json) :
    (reportStop b ctx branchOnFalse n x).Quiet view := by
  unfold reportStop
  split
  · exact Action.quiet_report hb rfl
  · exact Action.quiet_pure

/-- What is reported of connections that are dropped can be of other connections. -/
theorem quiet_reportAll (hb : b.JournalApart view) (rule : String) (dropped : List DroppedConnection) :
    (dropped.forM (reportDropped b rule)).Quiet view := by
  induction dropped with
  | nil => exact Action.quiet_pure
  | cons d rest ih => exact (Action.quiet_report hb rfl).bind ih

end Quiet

/-- A walk of one graph goes alike on both backends. -/
theorem simulation_of_alike (hb : b.Alike b' R) (g : Graph) (limit : Limit) (ctx : Context) (branchOnFalse : Bool) :
    Simulation g g (visitor b limit ctx branchOnFalse) (visitor b' limit ctx branchOnFalse) Eq (World.Alike R) where
  node h := h ▸ rfl
  same hp hq := by rw [hp, hq]
  visit _ _ o w w' hw := by
    obtain ⟨hanswer, hworld⟩ := alike_visitNode hb (fun x => alike_reportStop hb ctx branchOnFalse _ x) _ _ hw
    exact ⟨hanswer.eq, hworld⟩
  next hp _ _ := hp ▸ List.forall₂_refl _

/-- Whether two walks are prepared alike: both rules do not apply for the same reason, or both are to be walked in the
same context. -/
inductive Prepared.Alike (Q : Graph × Nat → Graph × Nat → Prop) : Prepared → Prepared → Prop
  | skipped (reason : SkipReason) : Prepared.Alike Q (.skipped reason) (.skipped reason)
  | ready {g g' : Graph} {start start' : Nat} (ctx : Context) (h : Q (g, start) (g', start')) :
    Prepared.Alike Q (.ready g start ctx) (.ready g' start' ctx)

section Rules

variable {rule rule' : Rule} {Q : Graph × Nat → Graph × Nat → Prop} {asset tenant : String} {payload : Json}

theorem alike_reportAll (hb : b.Alike b' R) (rule : String) (dropped : List DroppedConnection) :
    (dropped.forM (reportDropped b rule)).Alike R Eq (dropped.forM (reportDropped b' rule)) := by
  induction dropped with
  | nil => exact .pure rfl
  | cons d rest ih => exact (Action.Alike.report hb _).bind_eq fun _ => ih

theorem alike_compileRule (hb : b.Alike b' R) (rule : Rule) :
    (compileRule b rule).Alike R Eq (compileRule b' rule) := by
  unfold compileRule
  cases Graph.compile rule with
  | error e => exact .throw _
  | ok found =>
    obtain ⟨g, dropped⟩ := found
    refine (alike_reportAll hb rule.id dropped).bind_eq fun _ => ?_
    split
    · exact .throw _
    · exact .pure rfl

theorem alike_prepare (hb : b.Alike b' R) (hid : rule.id = rule'.id)
    (hskip : ∀ a, rule.skipReason? a asset = rule'.skipReason? a asset)
    (hcompile : (compileRule b rule).Alike R Q (compileRule b' rule')) :
    (prepare b limit rule asset tenant payload).Alike R (Prepared.Alike Q)
      (prepare b' limit rule' asset tenant payload) := by
  unfold prepare
  refine (Action.Alike.readAsset hb limit tenant asset).bind_eq fun a => ?_
  rw [hskip, hid]
  split
  · exact (Action.Alike.report hb _).bind_eq fun _ => .pure (.skipped _)
  · exact hcompile.bind fun _ _ h => .pure (.ready _ h)

end Rules

end RuleFlow.Walk

namespace RuleFlow

open Walk

variable {σ σ' : Type} {b : Backend σ} {b' : Backend σ'} {R : σ → σ' → Prop} {P : Nat → Nat → Prop} {rule rule' : Rule}
  {Q : Graph × Nat → Graph × Nat → Prop} {default : Nat} {asset tenant : String} {payload : Json}

theorem alike_conclude (hb : b.Alike b' R) (rule asset : String) (result : Except RunError Outcome) {w : World σ}
    {w' : World σ'} (hw : w.Alike R w') :
    (conclude b rule asset result w).1 = (conclude b' rule asset result w').1 ∧
      R (conclude b rule asset result w).2 (conclude b' rule asset result w').2 := by
  unfold conclude
  split
  · exact ⟨rfl, (hb.report _ _ _ hw.stores).2⟩
  · exact ⟨rfl, hw.stores⟩

/-- Runs are alike if the rules are compiled to what is walked alike. -/
theorem Rule.alike_run (hb : b.Alike b' R) (hid : rule.id = rule'.id)
    (hlimit : rule.timeoutOr default = rule'.timeoutOr default)
    (hskip : ∀ a, rule.skipReason? a asset = rule'.skipReason? a asset)
    (hcompile : (compileRule b rule).Alike R Q (compileRule b' rule'))
    (hwalk : ∀ g start g' start' ctx w w', Q (g, start) (g', start') → w.Alike R w' →
      (rule.walk b default g start ctx w).Alike P (World.Alike R) (rule'.walk b' default g' start' ctx w')) :
    RuleFlow.Alike R Eq (rule.run b default asset tenant payload) (rule'.run b' default asset tenant payload) := by
  intro s s' hs
  have hprepared : Agree (Prepared.Alike Q) (rule.prepared b default asset tenant payload s).1
      (rule'.prepared b' default asset tenant payload s').1 ∧
      World.Alike R (rule.prepared b default asset tenant payload s).2
        (rule'.prepared b' default asset tenant payload s').2 := by
    unfold prepared
    rw [hlimit]
    exact alike_prepare hb hid hskip hcompile _ _ ⟨hs, rfl, rfl, rfl, rfl⟩
  rw [run_eq, run_eq, hid]
  revert hprepared
  generalize rule.prepared b default asset tenant payload s = x, rule'.prepared b' default asset tenant payload s' = x'
  obtain ⟨p, w⟩ := x
  obtain ⟨p', w'⟩ := x'
  rintro ⟨hagree, hw⟩
  cases hagree with
  | error e => exact alike_conclude hb rule'.id asset _ hw
  | ok hp =>
    cases hp with
    | skipped reason => exact alike_conclude hb rule'.id asset _ hw
    | @ready g g' start start' ctx hq =>
      have halike := hwalk g start g' start' ctx w w' hq hw
      dsimp only
      rw [halike.result]
      exact alike_conclude hb rule'.id asset _ halike.world

theorem Rule.alike_run_self (hb : b.Alike b' R) (default : Nat) (rule : Rule) (asset tenant : String) (payload : Json) :
    RuleFlow.Alike R Eq (rule.run b default asset tenant payload) (rule.run b' default asset tenant payload) := by
  refine alike_run (P := Eq) hb rfl rfl (fun _ => rfl) (alike_compileRule hb rule) ?_
  intro g start g' start' ctx w w' heq hw
  obtain ⟨rfl, rfl⟩ := Prod.mk.inj heq
  exact (simulation_of_alike hb g _ ctx rule.settings.branchOnFalse).trace_alike rfl hw

end RuleFlow
