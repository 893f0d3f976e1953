import RuleFlow.Walk.Rule
/-! # Rules for actions

What an action does from a world is said by what has to hold for its result, and for its error, in the world that it
leaves.  Each way to build an action has an equation, so that `simp` takes an action apart down to what it asks
of the backend. -/
namespace RuleFlow.Walk.Action

variable {σ α β : Type}

/-- Whether an action ends well from a world: with a result and a world that are `done`, or with an error and a world
that are `failed`. -/
def Ends (x : Action σ α) (w : World σ) (done : α → World σ → Prop) (failed : RunError → World σ → Prop) : Prop :=
  match x.run w with
  | (.ok a, w') => done a w'
  | (.error e, w') => failed e w'

variable {w : World σ} {done done' : α → World σ → Prop} {failed failed' : RunError → World σ → Prop}

theorem Ends.of_ok {x : Action σ α} {a : α} {w' : World σ} (h : x.Ends w done failed)
    (hr : x.run w = (.ok a, w')) : done a w' := by
  simpa [Ends, hr] using h

theorem Ends.of_error {x : Action σ α} {e : RunError} {w' : World σ} (h : x.Ends w done failed)
    (hr : x.run w = (.error e, w')) : failed e w' := by
  simpa [Ends, hr] using h

theorem Ends.mono {x : Action σ α} (h : x.Ends w done failed) (hd : ∀ a w', done a w' → done' a w')
    (hf : ∀ e w', failed e w' → failed' e w') : x.Ends w done' failed' := by
  unfold Ends at h ⊢
  split
  · rename_i a w' hr
    exact hd a w' (by simpa [hr] using h)
  · rename_i e w' hr
    exact hf e w' (by simpa [hr] using h)

/-- What holds of the world with a result and with an error holds of the world that is left. -/
theorem Ends.world {x : Action σ α} {I : World σ → Prop} (h : x.Ends w (fun _ w' => I w') fun _ w' => I w') :
    I (x.run w).2 := by
  unfold Ends at h
  split at h
  · rename_i hr
    rwa [hr]
  · rename_i hr
    rwa [hr]

@[simp] theorem ends_pure (a : α) : (pure a : Action σ α).Ends w done failed ↔ done a w := Iff.rfl

@[simp] theorem ends_mk_pure (r : Except RunError α) :
    Ends (ExceptT.mk (pure r) : Action σ α) w done failed ↔
      (∀ a, r = .ok a → done a w) ∧ ∀ e, r = .error e → failed e w := by
  cases r with
  | ok a => exact ⟨fun h => ⟨by rintro _ ⟨⟩; exact h, by rintro _ ⟨⟩⟩, fun h => h.1 a rfl⟩
  | error e => exact ⟨fun h => ⟨by rintro _ ⟨⟩, by rintro _ ⟨⟩; exact h⟩, fun h => h.2 e rfl⟩

theorem run_bind (x : Action σ α) (f : α → Action σ β) (w : World σ) : (x >>= f).run w =
    match x.run w with
    | (.ok a, w') => (f a).run w'
    | (.error e, w') => (.error e, w') := by
  simp only [bind, ExceptT.bind, ExceptT.run, ExceptT.mk, StateT.bind]
  rcases x w with ⟨_ | _, w'⟩ <;> rfl

theorem run_bind_ok {x : Action σ α} {a : α} {w w' : World σ} (h : x.run w = (.ok a, w')) (f : α → Action σ β) :
    (x >>= f).run w = (f a).run w' := by
  rw [run_bind, h]

theorem run_bind_error {x : Action σ α} {e : RunError} {w w' : World σ} (h : x.run w = (.error e, w'))
    (f : α → Action σ β) : (x >>= f).run w = (.error e, w') := by
  rw [run_bind, h]

theorem run_get (w : World σ) : (get : Action σ (World σ)).run w = (.ok w, w) := rfl

theorem run_set (w w' : World σ) : (set w' : Action σ PUnit).run w = (.ok ⟨⟩, w') := rfl

@[simp] theorem ends_bind (x : Action σ α) (f : α → Action σ β) {done : β → World σ → Prop} :
    (x >>= f).Ends w done failed ↔ x.Ends w (fun a w' => (f a).Ends w' done failed) failed := by
  unfold Ends
  rw [run_bind]
  rcases x.run w with ⟨_ | _, w'⟩ <;> rfl

@[simp] theorem ends_get {done : World σ → World σ → Prop} :
    (get : Action σ (World σ)).Ends w done failed ↔ done w w := Iff.rfl

@[simp] theorem ends_set (w' : World σ) {done : PUnit → World σ → Prop} :
    (set w' : Action σ PUnit).Ends w done failed ↔ done ⟨⟩ w' := Iff.rfl

@[simp] theorem ends_stores (f : StateM σ α) :
    (stores f).Ends w done failed ↔ done (f w.stores).1 { w with stores := (f w.stores).2 } := Iff.rfl

@[simp] theorem ends_report (b : Backend σ) (e : Journal.Entry) {done : Unit → World σ → Prop} :
    (report b e).Ends w done failed ↔ done () { w with stores := (b.report e w.stores).2 } := Iff.rfl

theorem ends_ask (f : Ask σ α) :
    (ask f).Ends w done failed ↔
      (∀ a s, f w.stores = (.ok a, s) → done a { w with stores := s }) ∧
      ∀ e s, f w.stores = (.error e, s) → failed (.storage e) { w with stores := s } := by
  unfold ask
  rw [ends_bind, ends_stores]
  rcases f w.stores with ⟨e | a, s⟩
  · refine ⟨fun h => ⟨?_, ?_⟩, fun h => h.2 e s rfl⟩
    · rintro _ _ ⟨⟩
    · rintro _ _ ⟨⟩
      exact h
  · refine ⟨fun h => ⟨?_, ?_⟩, fun h => h.1 a s rfl⟩
    · rintro _ _ ⟨⟩
      exact h
    · rintro _ _ ⟨⟩

theorem run_ask_ok {f : Ask σ α} {a : α} {s : σ} (h : f w.stores = (.ok a, s)) :
    (ask f).run w = (.ok a, { w with stores := s }) := by
  have hstores : (stores f).run w = (.ok (.ok a), { w with stores := s }) := by
    change (Except.ok (f w.stores).1, { w with stores := (f w.stores).2 }) = _
    rw [h]
  exact run_bind_ok hstores _

/-- To read an asset is to be late, or to be given what the store answers. -/
theorem ends_readAsset {b : Backend σ} {limit : Limit} {tenant asset : String} {done : Asset → World σ → Prop}
    (hlate : ∀ ms, limit = some ms → ms < w.waited + b.readDelay w.stores → failed (.timeout ms) w)
    (hfound : ∀ a s waited, b.findAsset tenant asset w.stores = (.ok (some a), s) →
      done a { w with stores := s, waited := waited })
    (hnone : ∀ s waited, b.findAsset tenant asset w.stores = (.ok none, s) →
      failed (.assetNotFound asset) { w with stores := s, waited := waited })
    (hdown : ∀ e s waited, b.findAsset tenant asset w.stores = (.error e, s) →
      failed (.storage e) { w with stores := s, waited := waited }) :
    (readAsset b limit tenant asset).Ends w done failed := by
  have hask {answer : Option Asset → Action σ Asset} (hsome : ∀ a, answer (some a) = pure a)
      (hthrow : answer none = throw (.assetNotFound asset)) :
      (ask (b.findAsset tenant asset)).Ends { w with waited := w.waited + b.readDelay w.stores }
        (fun found w' => (answer found).Ends w' done failed) failed := by
    rw [ends_ask]
    refine ⟨?_, fun e s h => hdown e s _ h⟩
    rintro (_ | a) s h
    · rw [hthrow]
      exact hnone s _ h
    · rw [hsome]
      exact hfound a s _ h
  unfold readAsset
  simp only [ends_bind, ends_get]
  cases limit with
  | none =>
    simp only [ends_bind, ends_set]
    exact hask (fun _ => rfl) rfl
  | some ms =>
    dsimp only
    split
    · next hover => exact hlate ms rfl hover
    · simp only [ends_bind, ends_set]
      exact hask (fun _ => rfl) rfl

/-- To look at the clock is to be late, or to go on. -/
theorem ends_checkLimit {b : Backend σ} {limit : Limit} {done : Unit → World σ → Prop}
    (hdone : ∀ worked, done () { w with worked := worked })
    (hlate : ∀ ms worked, limit = some ms → ms ≤ w.worked + b.workTime w.stores →
      failed (.timeout ms) { w with worked := worked }) :
    (checkLimit b limit).Ends w done failed := by
  unfold checkLimit
  simp only [ends_bind, ends_get, ends_set]
  cases limit with
  | none => simpa using hdone _
  | some ms =>
    dsimp only
    split
    · next hover => exact hlate ms _ rfl hover
    · exact hdone _

@[simp] theorem ends_stageAttribute (ctx : Context) (key : String) (value : Json)
    {done : Json.Object → World σ → Prop} :
    (stageAttribute ctx key value).Ends w done failed ↔
      done (Json.Object.merge ctx.asset.attributes (Json.Object.insert key value w.attributes))
        { w with attributes := Json.Object.insert key value w.attributes } := Iff.rfl

@[simp] theorem ends_stageComputed (ctx : Context) (key : String) (value : Json)
    {done : Json.Object → World σ → Prop} :
    (stageComputed ctx key value).Ends w done failed ↔
      done (Json.Object.merge ctx.asset.computed (Json.Object.insert key value w.computed))
        { w with computed := Json.Object.insert key value w.computed } := Iff.rfl

end RuleFlow.Walk.Action
