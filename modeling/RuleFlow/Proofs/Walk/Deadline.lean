import RuleFlow.Proofs.Backend.Watched
import RuleFlow.Proofs.Walk.Alike
import RuleFlow.Proofs.Walk.Limits
/-! # Walks that are cut off

Under its time limit a run is the run that it would be without one, or it is cut off: then it ends with the limit as the
cause, and all that it has done is the beginning of what it would have done.  Main statement: `Rule.run_deadline`. -/
namespace RuleFlow

variable {σ α β : Type} {b : Backend σ}

namespace Walk

def Limit.AtMost (limit limit' : Limit) : Prop := ∀ ms', limit' = some ms' → ∃ ms, limit = some ms ∧ ms ≤ ms'

theorem Limit.atMost_none (limit : Limit) : limit.AtMost none := by
  rintro _ ⟨⟩

theorem Limit.atMost_some {ms ms' : Nat} (h : ms ≤ ms') : Limit.AtMost (some ms) (some ms') := by
  rintro _ ⟨⟩
  exact ⟨ms, rfl, h⟩

namespace Action

variable {limit limit' : Limit} {tenant asset : String} {w : World σ} {ms : Nat}

theorem run_readAsset_late (h : ms < w.waited + b.readDelay w.stores) :
    (readAsset b (some ms) tenant asset).run w = (.error (.timeout ms), w) := by
  simp only [readAsset, run_bind, run_get, if_pos h]
  rfl

theorem run_readAsset_inTime (h : ∀ ms, limit = some ms → w.waited + b.readDelay w.stores ≤ ms) :
    (readAsset b limit tenant asset).run w = (readAsset b none tenant asset).run w := by
  cases limit with
  | none => rfl
  | some ms => simp only [readAsset, run_bind, run_get, if_neg (Nat.not_lt.2 (h ms rfl))]

theorem run_readAsset_found {a : Asset} {s : σ} (h : ∀ ms, limit = some ms → w.waited + b.readDelay w.stores ≤ ms)
    (hfind : b.findAsset tenant asset w.stores = (.ok (some a), s)) :
    (readAsset b limit tenant asset).run w =
      (.ok a, { w with stores := s, waited := w.waited + b.readDelay w.stores }) := by
  rw [run_readAsset_inTime h]
  refine (run_bind_ok (run_get w) _).trans ?_
  refine (run_bind_ok (run_set _ _) _).trans ?_
  exact run_bind_ok (run_ask_ok (w := { w with waited := w.waited + b.readDelay w.stores }) hfind) _

theorem run_checkLimit_late (h : ms ≤ w.worked + b.workTime w.stores) :
    (checkLimit b (some ms)).run w = (.error (.timeout ms), { w with worked := w.worked + b.workTime w.stores }) := by
  simp only [checkLimit, run_bind, run_get, run_set, if_pos h]
  rfl

theorem run_checkLimit_inTime (h : ∀ ms, limit = some ms → w.worked + b.workTime w.stores < ms) :
    (checkLimit b limit).run w = (.ok (), { w with worked := w.worked + b.workTime w.stores }) := by
  cases limit with
  | none => rfl
  | some ms =>
    simp only [checkLimit, run_bind, run_get, run_set, if_neg (Nat.not_le.2 (h ms rfl))]
    rfl

/-- Whether an action is the same under a longer limit, or fails under the shorter one at a point through which it goes
under the longer one. -/
structure Cut (b : Backend σ) (limit limit' : Limit) (x x' : Action σ α) : Prop where
  same_or_late (w : World σ) : x.run w = x'.run w ∨
    ∃ ms, limit = some ms ∧ (x.run w).1 = .error (.timeout ms) ∧
      ∀ {I : σ → Prop}, b.Keeps I → I (x.run w).2.stores →
        x'.Ends w (fun _ w' => I w'.stores) fun _ w' => I w'.stores
  /-- What the operations of the backend keep is kept. -/
  kept {I : σ → Prop} (hb : b.Keeps I) {w : World σ} (h : I w.stores) :
    x'.Ends w (fun _ w' => I w'.stores) fun _ w' => I w'.stores
  /-- The time is over only under a limit, and the limit is the cause that is given. -/
  timely (w : World σ) : x'.Ends w (fun _ _ => True) fun e _ => ∀ ms, e = .timeout ms → limit' = some ms

namespace Cut

/-- An action that does not depend on the limit. -/
theorem refl {x : Action σ α} (hkept : ∀ {I : σ → Prop}, b.Keeps I → ∀ {w : World σ}, I w.stores →
      x.Ends w (fun _ w' => I w'.stores) fun _ w' => I w'.stores)
    (htimely : ∀ w, x.Ends w (fun _ _ => True) fun e _ => ∀ ms, e ≠ .timeout ms) : Cut b limit limit' x x where
  same_or_late _ := .inl rfl
  kept := hkept
  timely w := (htimely w).mono (fun _ _ h => h) fun _ _ h ms he => absurd he (h ms)

protected theorem bind {x x' : Action σ α} {f f' : α → Action σ β} (h : Cut b limit limit' x x')
    (hf : ∀ a, Cut b limit limit' (f a) (f' a)) : Cut b limit limit' (x >>= f) (x' >>= f') where
  same_or_late w := by
    rcases h.same_or_late w with heq | ⟨ms, hms, hlate, hgoes⟩
    · rcases hx' : x'.run w with ⟨e | a, w'⟩
      · rw [run_bind_error hx', run_bind_error (heq.trans hx')]
        exact .inl rfl
      · rw [run_bind_ok hx', run_bind_ok (heq.trans hx')]
        refine ((hf a).same_or_late w').imp_right ?_
        rintro ⟨ms, hms, hlate, hgoes⟩
        refine ⟨ms, hms, hlate, fun hb hI => ?_⟩
        rw [ends_bind]
        unfold Ends
        rw [hx']
        exact hgoes hb hI
    · have hx : x.run w = (.error (.timeout ms), (x.run w).2) := Prod.ext hlate rfl
      rw [run_bind_error hx]
      refine .inr ⟨ms, hms, rfl, fun hb hI => ?_⟩
      rw [ends_bind]
      exact (hgoes hb hI).mono (fun a w' h' => (hf a).kept hb h') fun _ _ h' => h'
  kept hb _ hI := by
    rw [ends_bind]
    exact (h.kept hb hI).mono (fun a _ h' => (hf a).kept hb h') fun _ _ h' => h'
  timely w := by
    rw [ends_bind]
    exact (h.timely w).mono (fun a w' _ => (hf a).timely w') fun _ _ h' => h'

theorem ask {f : Ask σ α} (hf : ∀ {I : σ → Prop}, b.Keeps I → ∀ {s}, I s → I (f s).2) :
    Cut b limit limit' (Action.ask f) (Action.ask f) := by
  refine refl (fun hb _ h => ends_ask_keeps (hf hb h)) fun w => ?_
  rw [ends_ask]
  exact ⟨fun _ _ _ => trivial, fun _ _ _ => nofun⟩

theorem report (e : Journal.Entry) : Cut b limit limit' (Action.report b e) (Action.report b e) :=
  refl (fun hb _ h => ends_report_keeps hb.keepsOn h e) fun _ => trivial

theorem readAsset (hle : limit.AtMost limit') (tenant asset : String) :
    Cut b limit limit' (Action.readAsset b limit tenant asset) (Action.readAsset b limit' tenant asset) where
  same_or_late w := by
    by_cases hlate : ∃ ms, limit = some ms ∧ ms < w.waited + b.readDelay w.stores
    · obtain ⟨ms, rfl, hlt⟩ := hlate
      rw [run_readAsset_late hlt]
      exact .inr ⟨ms, rfl, rfl, fun hb hI => ends_readAsset_keeps hb.keepsOn trivial hI⟩
    · push Not at hlate
      have hlate' : ∀ ms', limit' = some ms' → w.waited + b.readDelay w.stores ≤ ms' := by
        intro ms' hms'
        obtain ⟨ms, hms, hshort⟩ := hle ms' hms'
        exact (hlate ms hms).trans hshort
      rw [run_readAsset_inTime hlate, run_readAsset_inTime hlate']
      exact .inl rfl
  kept hb _ hI := ends_readAsset_keeps hb.keepsOn trivial hI
  timely w := by
    refine ends_readAsset ?_ (fun _ _ _ _ => trivial) (fun _ _ _ => nofun) fun _ _ _ _ => nofun
    rintro ms rfl - _ ⟨⟩
    rfl

theorem checkLimit (hle : limit.AtMost limit') :
    Cut b limit limit' (Action.checkLimit b limit) (Action.checkLimit b limit') := by
  have hkept {I : σ → Prop} {w : World σ} (h : I w.stores) :
      (Action.checkLimit b limit').Ends w (fun _ w' => I w'.stores) fun _ w' => I w'.stores :=
    ends_checkLimit (fun _ => h) fun _ _ _ _ => h
  refine ⟨fun w => ?_, fun _ _ => hkept, fun w => ?_⟩
  · by_cases hlate : ∃ ms, limit = some ms ∧ ms ≤ w.worked + b.workTime w.stores
    · obtain ⟨ms, rfl, hlt⟩ := hlate
      rw [run_checkLimit_late hlt]
      exact .inr ⟨ms, rfl, rfl, fun _ hI => hkept hI⟩
    · push Not at hlate
      have hlate' : ∀ ms', limit' = some ms' → w.worked + b.workTime w.stores < ms' := by
        intro ms' hms'
        obtain ⟨ms, hms, hshort⟩ := hle ms' hms'
        exact (hlate ms hms).trans_le hshort
      rw [run_checkLimit_inTime hlate, run_checkLimit_inTime hlate']
      exact .inl rfl
  · refine ends_checkLimit (fun _ => trivial) ?_
    rintro ms _ rfl - _ ⟨⟩
    rfl

theorem relates (b : Backend σ) (hle : limit.AtMost limit') :
    Action.Relates b limit limit' fun _ => Cut b limit limit' where
  pure _ := refl (fun _ _ h => h) fun _ => trivial
  throw _ _ he := refl (fun _ _ h => h) fun _ => he
  bind := Cut.bind
  get := refl (fun _ _ h => h) fun _ => trivial
  stageAttribute _ _ _ := refl (fun _ _ h => h) fun _ => trivial
  stageComputed _ _ _ := refl (fun _ _ h => h) fun _ => trivial
  updateAsset tenant asset change := ask fun hb _ h => hb.updateAsset tenant asset change h
  replaceComputed tenant asset values := ask fun hb _ h => hb.replaceComputed tenant asset values h
  raise alarm := ask fun hb _ h => hb.raise alarm h
  report := report
  readAsset := readAsset hle
  checkLimit := checkLimit hle

end Cut

/-- Whether an action that begins in time fails under a limit of `ms` milliseconds just if it would wait for longer
without one. -/
structure Timed (ms : Nat) (x x' : Action σ α) : Prop where
  waits (w : World σ) : w.waited ≤ (x'.run w).2.waited
  inTime (w : World σ) (hw : w.worked = 0) (h : (x'.run w).2.waited ≤ ms) :
    x.run w = x'.run w ∧ (x'.run w).2.worked = 0
  late (w : World σ) (hw : w.worked = 0) (hbegun : w.waited ≤ ms) (h : ms < (x'.run w).2.waited) :
    (x.run w).1 = .error (.timeout ms)

namespace Timed

/-- An action that takes no time. -/
theorem refl {x : Action σ α} (h : ∀ w, (x.run w).2.waited = w.waited ∧ (x.run w).2.worked = w.worked) :
    Timed ms x x where
  waits w := (h w).1.ge
  inTime w hw _ := ⟨rfl, (h w).2.trans hw⟩
  late w _ hbegun hlate := absurd ((h w).1 ▸ hbegun) (Nat.not_le.2 hlate)

protected theorem bind {x x' : Action σ α} {f f' : α → Action σ β} (h : Timed ms x x')
    (hf : ∀ a, Timed ms (f a) (f' a)) : Timed ms (x >>= f) (x' >>= f') where
  waits w := by
    have hwaits := h.waits w
    rcases hx' : x'.run w with ⟨e | a, w'⟩
    · rw [hx'] at hwaits
      rw [run_bind_error hx']
      exact hwaits
    · rw [hx'] at hwaits
      rw [run_bind_ok hx']
      exact hwaits.trans ((hf a).waits w')
  inTime w hw hend := by
    have hx := h.inTime w hw
    rcases hx' : x'.run w with ⟨e | a, w'⟩
    · rw [run_bind_error hx'] at hend ⊢
      rw [hx'] at hx
      obtain ⟨heq, hworked⟩ := hx hend
      exact ⟨run_bind_error heq f, hworked⟩
    · rw [run_bind_ok hx'] at hend ⊢
      rw [hx'] at hx
      obtain ⟨heq, hworked⟩ := hx (((hf a).waits w').trans hend)
      rw [run_bind_ok heq]
      exact (hf a).inTime w' hworked hend
  late w hw hbegun hlate := by
    by_cases hx' : ms < (x'.run w).2.waited
    · have hx : x.run w = (.error (.timeout ms), (x.run w).2) := Prod.ext (h.late w hw hbegun hx') rfl
      rw [run_bind_error hx]
    · obtain ⟨heq, hworked⟩ := h.inTime w hw (Nat.not_lt.1 hx')
      rcases hrun : x'.run w with ⟨e | a, w'⟩
      · rw [run_bind_error hrun] at hlate
        rw [hrun] at hx'
        exact absurd hlate hx'
      · rw [run_bind_ok hrun] at hlate
        rw [run_bind_ok (heq.trans hrun)]
        rw [hrun] at hworked hx'
        exact (hf a).late w' hworked (Nat.not_lt.1 hx') hlate

theorem ask (f : Ask σ α) : Timed ms (Action.ask f) (Action.ask f) := by
  refine refl fun w => ?_
  apply Ends.world (I := fun w' => w'.waited = w.waited ∧ w'.worked = w.worked)
  rw [ends_ask]
  exact ⟨fun _ _ _ => ⟨rfl, rfl⟩, fun _ _ _ => ⟨rfl, rfl⟩⟩

theorem readAsset (tenant asset : String) :
    Timed ms (Action.readAsset b (some ms) tenant asset) (Action.readAsset b none tenant asset) := by
  have hread (w : World σ) : ((Action.readAsset b none tenant asset).run w).2.waited =
      w.waited + b.readDelay w.stores ∧ ((Action.readAsset b none tenant asset).run w).2.worked = w.worked := by
    apply Ends.world (I := fun w' => w'.waited = w.waited + b.readDelay w.stores ∧ w'.worked = w.worked)
    unfold Action.readAsset
    rw [ends_bind, ends_get, ends_bind, ends_set, ends_bind, ends_ask]
    refine ⟨fun a s _ => ?_, fun _ _ _ => ⟨rfl, rfl⟩⟩
    cases a <;> exact ⟨rfl, rfl⟩
  refine ⟨fun w => ?_, fun w hw h => ?_, fun w _ _ h => ?_⟩
  · rw [(hread w).1]
    exact Nat.le_add_right _ _
  · rw [(hread w).1] at h
    refine ⟨run_readAsset_inTime ?_, (hread w).2.trans hw⟩
    rintro _ ⟨⟩
    exact h
  · rw [(hread w).1] at h
    rw [run_readAsset_late h]

theorem checkLimit (hclock : ∀ s, b.workTime s = 0) (hms : 0 < ms) :
    Timed ms (Action.checkLimit b (some ms)) (Action.checkLimit b none) := by
  have hnone (w : World σ) : (Action.checkLimit b none).run w = (.ok (), w) := by
    have hinTime : ∀ ms, (none : Limit) = some ms → w.worked + b.workTime w.stores < ms := by
      rintro _ ⟨⟩
    rw [run_checkLimit_inTime hinTime, hclock]
    rfl
  refine ⟨fun w => ?_, fun w hw h => ?_, fun w hw hbegun h => ?_⟩
  · rw [hnone]
  · rw [hnone, run_checkLimit_inTime, hclock]
    · exact ⟨rfl, hw⟩
    · rintro _ ⟨⟩
      rw [hw, hclock]
      exact hms
  · rw [hnone] at h
    exact absurd hbegun (Nat.not_le.2 h)

theorem relates (hclock : ∀ s, b.workTime s = 0) (hms : 0 < ms) :
    Action.Relates b (some ms) none fun _ => Timed ms where
  pure _ := refl fun _ => ⟨rfl, rfl⟩
  throw _ _ _ := refl fun _ => ⟨rfl, rfl⟩
  bind := Timed.bind
  get := refl fun _ => ⟨rfl, rfl⟩
  stageAttribute _ _ _ := refl fun _ => ⟨rfl, rfl⟩
  stageComputed _ _ _ := refl fun _ => ⟨rfl, rfl⟩
  updateAsset _ _ _ := ask _
  replaceComputed _ _ _ := ask _
  raise _ := ask _
  report _ := refl fun _ => ⟨rfl, rfl⟩
  readAsset := readAsset
  checkLimit := checkLimit hclock hms

end Timed

end Action

theorem alike_runWithin {σ' : Type} {b' : Backend σ'} {R : σ → σ' → Prop} (hb : b.Alike b' R) (limit : Limit)
    (rule : Rule) (asset tenant : String) (payload : Json) :
    (runWithin b limit rule asset tenant payload).Alike R Eq (runWithin b' limit rule asset tenant payload) := by
  have hwalk (g : Graph) (start : Nat) (ctx : Context) :
      (walkGraph b limit ctx rule.settings.branchOnFalse g start).Alike R Eq
        (walkGraph b' limit ctx rule.settings.branchOnFalse g start) := by
    intro w w' hw
    have halike := (simulation_of_alike hb g limit ctx rule.settings.branchOnFalse).trace_alike (Eq.refl start) hw
    simp only [walkGraph, ExceptT.run, ExceptT.mk, runFrom_eq_result]
    rw [halike.result]
    exact ⟨.refl (fun _ => rfl) _, halike.world⟩
  refine (alike_prepare hb rfl (fun _ => rfl) (alike_compileRule hb rule)).bind fun p p' hp => ?_
  cases hp with
  | skipped reason => exact .pure rfl
  | ready ctx h =>
    obtain ⟨rfl, rfl⟩ := Prod.mk.inj h
    exact (hwalk _ _ ctx).bind_eq fun _ => .pure rfl

end Walk

open Walk

/-- What has been asked for stays the beginning of what is asked for. -/
theorem Backend.keeps_effects (b : Backend σ) (done : List Effect) : b.watched.Keeps fun s => done <+: s.effects := by
  have hbelow {α : Type} (effects : List Effect) (f : StateM σ α) {s : Watched σ} (h : done <+: s.effects) :
      done <+: (Watched.below effects f s).2.effects := h.trans (List.prefix_append s.effects effects)
  exact {
    findRule := fun _ _ _ h => hbelow _ _ h
    activeRules := fun _ _ h => hbelow _ _ h
    findAsset := fun _ _ _ h => hbelow _ _ h
    updateAsset := fun _ _ _ _ h => hbelow _ _ h
    replaceComputed := fun _ _ _ _ h => hbelow _ _ h
    raise := fun _ _ h => hbelow _ _ h
    publish := fun _ _ h => hbelow _ _ h
    report := fun _ _ h => hbelow _ _ h
    freshId := fun h => hbelow _ _ h }

namespace Rule

def within (b : Backend σ) (limit : Limit) (rule : Rule) (asset tenant : String) (payload : Json) (stores : σ) :
    Except RunError Outcome × World σ :=
  (runWithin b limit rule asset tenant payload).run (.start stores)

def runUnlimited (b : Backend σ) (rule : Rule) (asset tenant : String) (payload : Json) :
    StateM σ (Except RunError Outcome) := fun stores =>
  let (result, world) := rule.within b none asset tenant payload stores
  (result, world.stores)

/-- How long the reads of a run take that has no time limit. -/
def waits (b : Backend σ) (rule : Rule) (asset tenant : String) (payload : Json) (stores : σ) : Nat :=
  (rule.within b none asset tenant payload stores).2.waited

variable (b) (default : Nat) (rule : Rule) (asset tenant : String) (payload : Json)

theorem run_eq_conclude (s : σ) : rule.run b default asset tenant payload s =
    conclude b rule.id asset (rule.within b (some (rule.timeoutOr default)) asset tenant payload s).1
      (rule.within b (some (rule.timeoutOr default)) asset tenant payload s).2 := rfl

theorem cut_within {limit limit' : Limit} (hle : limit.AtMost limit') :
    Action.Cut b limit limit' (runWithin b limit rule asset tenant payload)
      (runWithin b limit' rule asset tenant payload) :=
  related_runWithin (Action.Cut.relates b hle) rule asset tenant payload

theorem within_none_ne_timeout (s : σ) (ms : Nat) :
    (rule.within b none asset tenant payload s).1 ≠ .error (.timeout ms) := by
  intro h
  have htimely := (rule.cut_within b asset tenant payload (Limit.atMost_none none)).timely (.start s)
  have hnone := htimely.of_error (Prod.ext h rfl) ms rfl
  cases hnone

/-- A run under a time limit is the run without one, or it is cut off at a point through which that run goes. -/
theorem run_cut (s : Watched σ) :
    rule.run b.watched default asset tenant payload s = rule.runUnlimited b.watched asset tenant payload s ∨
    (rule.run b.watched default asset tenant payload s).1 = .error (.timeout (rule.timeoutOr default)) ∧
      ∃ done, done <+: (rule.runUnlimited b.watched asset tenant payload s).2.effects ∧
        (rule.run b.watched default asset tenant payload s).2.effects =
          done ++ [.entry (timeoutEntry rule.id asset (rule.timeoutOr default))] := by
  have hcut := rule.cut_within b.watched asset tenant payload (Limit.atMost_none (some (rule.timeoutOr default)))
  rw [run_eq_conclude]
  rcases hcut.same_or_late (.start s) with heq | ⟨ms, hms, hlate, hgoes⟩
  · left
    have hne := rule.within_none_ne_timeout b.watched asset tenant payload s
    rw [within, heq]
    unfold conclude
    split
    · exact absurd ‹_› (hne _)
    · rfl
  · right
    obtain rfl := Option.some.inj hms
    rw [within, hlate]
    exact ⟨rfl, _, (hgoes (b.keeps_effects _) (List.prefix_refl _)).world, rfl⟩

/-- A run that is not cut off is the same under a longer limit. -/
theorem run_longer (s : σ) (timeoutMs : Option UInt64) (default' : Nat)
    (hinTime : (rule.run b default asset tenant payload s).1 ≠ .error (.timeout (rule.timeoutOr default)))
    (hle : rule.timeoutOr default ≤
      { rule with settings := { rule.settings with timeoutMs } : Rule }.timeoutOr default') :
    { rule with settings := { rule.settings with timeoutMs } : Rule }.run b default' asset tenant payload s =
      rule.run b default asset tenant payload s := by
  rw [run_eq_conclude, conclude_fst] at hinTime
  have hcut := rule.cut_within b asset tenant payload (Limit.atMost_some hle)
  rcases hcut.same_or_late (.start s) with heq | ⟨ms, hms, hlate, -⟩
  · rw [run_eq_conclude, run_eq_conclude, within, within, heq]
    rfl
  · obtain rfl := Option.some.inj hms
    exact absurd hlate hinTime

/-- Where nothing but the reads takes time, a run is cut off just if they take longer than the limit. -/
theorem run_eq_timeout_iff (hclock : ∀ s, b.workTime s = 0) (hlimit : 0 < rule.timeoutOr default) (s : σ) :
    (rule.run b default asset tenant payload s).1 = .error (.timeout (rule.timeoutOr default)) ↔
      rule.timeoutOr default < rule.waits b asset tenant payload s := by
  have htimed := related_runWithin (Action.Timed.relates hclock hlimit) rule asset tenant payload
  rw [run_eq_conclude, conclude_fst]
  constructor
  · intro h
    by_contra hinTime
    obtain ⟨heq, -⟩ := htimed.inTime (.start s) rfl (Nat.not_lt.1 hinTime)
    rw [within, heq] at h
    exact rule.within_none_ne_timeout b asset tenant payload s _ h
  · exact htimed.late (.start s) rfl (Nat.zero_le _)

/-- Whatever its backend does and how long that takes, a run under a time limit gives what it gives without one, and has
done the same; or it fails with the limit as the cause, and what it has done before that is reported is the beginning of
what it does without one.  A run that is not cut off is the same under every longer limit.  Where nothing but the reads
takes time, a run is cut off just if they take longer than the limit. -/
theorem run_deadline (b : Backend σ) (default : Nat) (rule : Rule) (asset tenant : String) (payload : Json) (s : σ) :
    let limit := rule.timeoutOr default
    let run := rule.run b.watched default asset tenant payload ⟨s, []⟩
    let full := rule.runUnlimited b.watched asset tenant payload ⟨s, []⟩
    rule.run b default asset tenant payload s = (run.1, run.2.stores) ∧
    rule.runUnlimited b asset tenant payload s = (full.1, full.2.stores) ∧
    (run = full ∨ run.1 = .error (.timeout limit) ∧
      ∃ done, done <+: full.2.effects ∧ run.2.effects = done ++ [.entry (timeoutEntry rule.id asset limit)]) ∧
    (∀ ms, full.1 ≠ .error (.timeout ms)) ∧
    (run.1 ≠ .error (.timeout limit) → ∀ timeoutMs default',
      let other : Rule := { rule with settings := { rule.settings with timeoutMs } }
      limit ≤ other.timeoutOr default' → other.run b.watched default' asset tenant payload ⟨s, []⟩ = run) ∧
    ((∀ t, b.workTime t = 0) → 0 < limit →
      (run.1 = .error (.timeout limit) ↔ limit < rule.waits b asset tenant payload s)) := by
  intro limit run full
  have hrun := rule.alike_run_self b.alike_watched default asset tenant payload ⟨s, []⟩ s rfl
  obtain ⟨hresult, hworld⟩ := alike_runWithin b.alike_watched none rule asset tenant payload (.start ⟨s, []⟩) (.start s)
    ⟨rfl, rfl, rfl, rfl, rfl⟩
  refine ⟨Prod.ext hrun.1.symm hrun.2.symm, Prod.ext hresult.eq.symm hworld.stores.symm,
    rule.run_cut b default asset tenant payload ⟨s, []⟩, rule.within_none_ne_timeout b.watched asset tenant payload _,
    fun hinTime timeoutMs default' hle => ?_, fun hclock hlimit => ?_⟩
  · exact rule.run_longer b.watched default asset tenant payload _ timeoutMs default' hinTime hle
  · rw [← rule.run_eq_timeout_iff b default asset tenant payload hclock hlimit s]
    exact Eq.congr_left hrun.1

end Rule

end RuleFlow
