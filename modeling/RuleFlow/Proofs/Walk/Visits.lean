import RuleFlow.Proofs.Walk.Actions
/-! # What visits do

Main statements: `ends_visitNode`, by which a visit is what the kind of the node does, in time and reported, and
`visitNode_runtime`, by which no visit finds fault with the rule itself. -/
namespace RuleFlow

/-- Whether an error tells of the data of a run: neither the rule is wrong nor the time over. -/
structure RunError.OfData (e : RunError) : Prop where
  runtime : e.isConfigurationError = false
  timely : ∀ ms, e ≠ .timeout ms

theorem exists_error_of_mapM {α β ε : Type} {f : α → Except ε β} {xs : List α} {e : ε}
    (h : xs.mapM f = .error e) : ∃ x ∈ xs, f x = .error e := by
  induction xs with
  | nil => cases h
  | cons x xs ih =>
    rw [List.mapM_cons] at h
    cases hx : f x with
    | error e' =>
      obtain rfl : e' = e := by simpa [hx, bind, Except.bind] using h
      exact ⟨x, List.mem_cons_self, hx⟩
    | ok y =>
      cases hxs : xs.mapM f with
      | error e' =>
        obtain rfl : e' = e := by simpa [hx, hxs, bind, Except.bind] using h
        obtain ⟨z, hz, he⟩ := ih hxs
        exact ⟨z, List.mem_cons_of_mem _ hz, he⟩
      | ok ys => simp [hx, hxs, bind, Except.bind, pure, Except.pure] at h

theorem Operand.resolve_ofData {outputs : Outputs} {operand : Operand} {e : RunError}
    (h : operand.resolve outputs = .error e) : e.OfData := by
  unfold Operand.resolve at h
  split at h
  · split at h <;> cases h
    exact ⟨rfl, nofun⟩
  · dsimp only at h
    split at h <;> cases h
    exact ⟨rfl, nofun⟩

theorem MathOperation.divideBy_ofData {node : String} {x : Float} {ys : List Float} {e : RunError}
    (h : divideBy node x ys = .error e) : e.OfData := by
  induction ys generalizing x with
  | nil => cases h
  | cons y ys ih =>
    unfold divideBy at h
    split at h
    · cases h
      exact ⟨rfl, nofun⟩
    · exact ih h

theorem MathOperation.fold_ofData {o : MathOperation} {node : String} {xs : List Float} {e : RunError}
    (h : o.fold node xs = .error e) : e.OfData := by
  unfold MathOperation.fold at h
  split at h
  · cases h
  · cases h
  · cases h
  · exact divideBy_ofData h
  · cases h
    exact ⟨rfl, nofun⟩

theorem MathOperation.evaluate_ofData {o : MathOperation} {node : String} {operands : List Operand}
    {outputs : Outputs} {e : RunError} (h : o.evaluate node operands outputs = .error e) :
    e.OfData := by
  unfold MathOperation.evaluate at h
  cases hm : operands.mapM (Operand.resolve outputs) with
  | error e' =>
    obtain rfl : e' = e := by simpa [hm, bind, Except.bind] using h
    obtain ⟨operand, _, he⟩ := exists_error_of_mapM hm
    exact Operand.resolve_ofData he
  | ok values =>
    cases hf : o.fold node values with
    | error e' =>
      obtain rfl : e' = e := by simpa [hm, hf, bind, Except.bind] using h
      exact fold_ofData hf
    | ok x =>
      simp only [hm, hf, bind, Except.bind] at h
      split at h
      · cases h
      · cases h
        exact ⟨rfl, nofun⟩

namespace Walk

variable {σ : Type} {w : World σ} {b : Backend σ} {limit : Limit} {ctx : Context} {n : Node} {outputs : Outputs}

/-- A visit looks at the clock, does what the kind of its node does, and reports; what is `done` has to be kept by
reports. -/
theorem ends_visitNode {branchOnFalse : Bool} {done : Json → World σ → Prop} {failed : RunError → World σ → Prop}
    (hreport : ∀ x e w, done x w → done x { w with stores := (b.report e w.stores).2 })
    (hlate : ∀ ms worked, limit = some ms → ms ≤ w.worked + b.workTime w.stores →
      failed (.timeout ms) { w with worked := worked })
    (hkind : ∀ worked, (visitKind b limit ctx n outputs).Ends { w with worked := worked } done failed) :
    (visitNode b limit ctx branchOnFalse n outputs).Ends w done failed := by
  unfold visitNode
  rw [Action.ends_bind]
  refine Action.ends_checkLimit (fun worked => ?_) hlate
  rw [Action.ends_bind]
  refine (hkind worked).mono (fun x w' hdone => ?_) fun _ _ h => h
  simp only [Action.ends_bind, Action.ends_report]
  split
  · exact hreport x _ _ (hreport x _ _ hdone)
  · exact hreport x _ _ hdone

theorem visitKind_runtime :
    (visitKind b limit ctx n outputs).Ends w (fun _ _ => True) (fun e _ => e.isConfigurationError = false) := by
  unfold visitKind
  split
  · trivial
  · unfold visitCondition
    split <;> trivial
  · trivial
  · trivial
  · rw [Action.ends_mk_pure]
    exact ⟨fun _ _ => trivial, fun e he => (MathOperation.evaluate_ofData he).runtime⟩
  · unfold computeField
    rw [Action.ends_bind]
    refine Action.ends_readAsset (fun _ _ _ => rfl) (fun a s waited _ => ?_) (fun _ _ _ => rfl) fun _ _ _ _ => rfl
    split
    · rfl
    · trivial
  · simp only [visitSetComputed, reportAction, Action.ends_bind, Action.ends_get, Action.ends_stageComputed,
      Action.ends_ask]
    exact ⟨fun _ _ _ => trivial, fun _ _ _ => rfl⟩
  · simp only [visitSetAttribute, reportAction, Action.ends_bind, Action.ends_stageAttribute, Action.ends_ask]
    exact ⟨fun _ _ _ => trivial, fun _ _ _ => rfl⟩
  · simp only [visitSetStatus, reportAction, Action.ends_bind, Action.ends_ask]
    exact ⟨fun _ _ _ => trivial, fun _ _ _ => rfl⟩
  · simp only [visitCreateAlarm, Action.ends_bind, Action.ends_get, Action.ends_ask]
    exact ⟨fun _ _ _ => trivial, fun _ _ _ => rfl⟩
  · trivial

/-- No visit finds fault with the rule itself. -/
theorem visitNode_runtime {branchOnFalse : Bool} :
    (visitNode b limit ctx branchOnFalse n outputs).Ends w (fun _ _ => True)
      (fun e _ => e.isConfigurationError = false) :=
  ends_visitNode (fun _ _ _ _ => trivial) (fun _ _ _ _ => rfl) fun _ => visitKind_runtime

end Walk

end RuleFlow
