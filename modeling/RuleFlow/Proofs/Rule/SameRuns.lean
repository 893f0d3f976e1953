import RuleFlow.Proofs.Engine.Recording
import RuleFlow.Proofs.Rule.ReachablePart
import RuleFlow.Proofs.Walk.Exploration
/-! # Runs of rules with one reachable part

Two rules that agree on what can be reached are compiled to graphs in which the same nodes may stand at different
positions.  The walks of both go along the same ids, so that nobody can tell from outside which of the rules is run:
`Rule.runsAs_of_samePart`. -/
namespace RuleFlow

open Walk

variable {σ ν : Type} {b : Backend σ} {view : σ → ν} {r r' : Rule} {g g' : Graph}
  {dropped dropped' : List DroppedConnection} {p p' q q' : Nat}

theorem forall₂_of_map_eq {α β γ : Type} {f : α → γ} {f' : β → γ} {xs : List α} {ys : List β}
    (h : xs.map f = ys.map f') : List.Forall₂ (fun x y => x ∈ xs ∧ y ∈ ys ∧ f x = f' y) xs ys := by
  have hlength : xs.length = ys.length := by simpa using congrArg List.length h
  refine List.forall₂_iff_get.2 ⟨hlength, fun i hi hi' => ⟨List.get_mem _ _, List.get_mem _ _, ?_⟩⟩
  simpa [hi, hi'] using congrArg (·[i]?) h

/-- Whether two positions are those of one id, which can be reached. -/
structure Rule.SamePlace (r : Rule) (g g' : Graph) (p p' : Nat) : Prop where
  lt : p < g.size
  lt' : p' < g'.size
  id : g.idAt p = g'.idAt p'
  reached : r.Reached (g.idAt p)

namespace Rule

section Compiled

variable (h : r.SamePart r') (hc : Graph.compile r = .ok (g, dropped)) (hc' : Graph.compile r' = .ok (g', dropped'))
include h hc hc'

/-- Both walks begin at the same place, or there is none to begin at. -/
theorem SamePart.trigger_compile :
    (g.trigger = none ∧ g'.trigger = none) ∨
      ∃ start start', g.trigger = some start ∧ g'.trigger = some start' ∧ r.SamePlace g g' start start' := by
  have htrigger := Rule.trigger_compile hc
  have htrigger' := Rule.trigger_compile hc'
  rw [← h.trigger] at htrigger'
  cases ht : r.firstTrigger? with
  | none =>
    rw [ht, Option.map_none, Option.map_eq_none_iff] at htrigger htrigger'
    exact .inl ⟨htrigger, htrigger'⟩
  | some t =>
    rw [ht, Option.map_some, Option.map_eq_some_iff] at htrigger htrigger'
    obtain ⟨start, hs, hid⟩ := htrigger
    obtain ⟨start', hs', hid'⟩ := htrigger'
    exact .inr ⟨start, start', hs, hs', Graph.trigger_lt hs, Graph.trigger_lt hs', hid.trans hid'.symm,
      hid ▸ reached_trigger ht⟩

/-- Both rules are compiled to walks that begin at the same place, or fail alike.  Of the connections that are dropped
other reports may be made. -/
theorem alike_compileRule_samePart (hb : b.JournalApart view) :
    (compileRule b r).Alike (SameView view) (fun x x' => x.1 = g ∧ x'.1 = g' ∧ r.SamePlace g g' x.2 x'.2)
      (compileRule b r') := by
  unfold compileRule
  rw [hc, hc']
  refine ((quiet_reportAll hb r.id dropped).alike (quiet_reportAll hb r'.id dropped')).bind_eq fun _ => ?_
  rcases h.trigger_compile hc hc' with ⟨hs, hs'⟩ | ⟨start, start', hs, hs', hplace⟩
  · rw [hs, hs']
    exact .throw _
  · rw [hs, hs']
    exact .pure ⟨rfl, rfl, hplace⟩

variable (hr : r.Sound) (hr' : r'.Sound)
include hr hr'

theorem SamePlace.node (hp : r.SamePlace g g' p p') : g.node? p = g'.node? p' := by
  obtain ⟨d, n, hd, hn, hnode⟩ := Graph.definition?_idAt hc hr.ids_nodup hp.lt
  obtain ⟨d', n', hd', hn', hnode'⟩ := Graph.definition?_idAt hc' hr'.ids_nodup hp.lt'
  rw [h.definition _ hp.reached, hp.id, hd', Option.some.injEq] at hd
  rw [← hd, hn', Except.ok.injEq] at hn
  rw [hnode, hnode', hn]

omit h in
theorem SamePlace.eq_iff (hp : r.SamePlace g g' p p') (hq : r.SamePlace g g' q q') : p = q ↔ p' = q' := by
  have hn : (g.nodes.map (·.id)).Nodup := (Graph.map_id_compile hc).symm ▸ hr.ids_nodup
  have hn' : (g'.nodes.map (·.id)).Nodup := (Graph.map_id_compile hc').symm ▸ hr'.ids_nodup
  constructor
  · rintro rfl
    rw [← Graph.positionOf_idAt hn' hp.lt', ← Graph.positionOf_idAt hn' hq.lt', ← hp.id, hq.id]
  · rintro rfl
    rw [← Graph.positionOf_idAt hn hp.lt, ← Graph.positionOf_idAt hn hq.lt, hp.id, hq.id]

theorem SamePlace.next (hp : r.SamePlace g g' p p') :
    List.Forall₂ (r.SamePlace g g') (g.next p) (g'.next p') := by
  have hids : (g.next p).map g.idAt = (g'.next p').map g'.idAt := by
    rw [Graph.next_compile hc hr.ids_nodup hp.lt, Graph.next_compile hc' hr'.ids_nodup hp.lt',
      h.successors _ hp.reached, hp.id]
  refine (forall₂_of_map_eq hids).imp ?_
  rintro q q' ⟨hq, hq', hid⟩
  have hfollows : r.Follows (g.idAt p) (g.idAt q) := by
    rw [Follows, ← Graph.next_compile hc hr.ids_nodup hp.lt]
    exact List.mem_map_of_mem hq
  exact ⟨(Graph.compile_closed hc).target_lt hq, (Graph.compile_closed hc').target_lt hq', hid,
    hp.reached.tail hfollows⟩

theorem simulation_samePart (hb : b.JournalApart view) (limit : Limit) (ctx : Context) (branchOnFalse : Bool) :
    Simulation g g' (visitor b limit ctx branchOnFalse) (visitor b limit ctx branchOnFalse) (r.SamePlace g g')
      (World.Alike (SameView view)) where
  node hp := hp.node h hc hc' hr hr'
  same hp hq := hp.eq_iff hc hc' hr hr' hq
  visit _ _ _ w w' hw := by
    obtain ⟨hanswer, hworld⟩ :=
      alike_visitNode hb.alike (fun x => alike_reportStop hb.alike ctx branchOnFalse _ x) w w' hw
    exact ⟨hanswer.eq, hworld⟩
  next hp _ _ := by
    split
    · exact .nil
    · exact hp.next h hc hc' hr hr'

end Compiled

theorem alike_run_samePart (hb : b.JournalApart view) (hr : r.Sound) (hr' : r'.Sound) (h : r.SamePart r')
    (default : Nat) (asset tenant : String) (payload : Json) :
    RuleFlow.Alike (SameView view) Eq (r.run b default asset tenant payload)
      (r'.run b default asset tenant payload) := by
  obtain ⟨g, dropped, hc⟩ := hr.compiles
  obtain ⟨g', dropped', hc'⟩ := hr'.compiles
  have hlimit : r.timeoutOr default = r'.timeoutOr default := by unfold timeoutOr; rw [h.settings]
  have hskip (a : Asset) : r.skipReason? a asset = r'.skipReason? a asset := by
    unfold skipReason? appliesToAssetType appliesToAsset
    rw [h.assetTypes, h.assets]
  refine alike_run (P := r.SamePlace g g') hb.alike h.id hlimit hskip (alike_compileRule_samePart h hc hc' hb) ?_
  rintro _ start _ start' ctx w w' ⟨rfl, rfl, hplace⟩ hw
  unfold walk
  rw [hlimit, h.settings]
  exact (simulation_samePart h hc hc' hr hr' hb _ ctx _).trace_alike hplace hw

/-- Whether two operations of watched stores cannot be told apart from outside: they give the same answer, ask the same
of the backend in the same order, apart from the reports of the engine, and leave stores that look the same. -/
def SameOutside {α : Type} (view : σ → ν) (f f' : StateM (Watched σ) α) : Prop :=
  ∀ s, (f s).1 = (f' s).1 ∧ (f s).2.effects.filter Effect.isOutward = (f' s).2.effects.filter Effect.isOutward ∧
    view (f s).2.stores = view (f' s).2.stores

/-- Whether it cannot be told from outside which of two rules is run, by itself or by an engine. -/
structure RunsAs (b : Backend σ) (view : σ → ν) (r r' : Rule) : Prop where
  run (default : Nat) (asset tenant : String) (payload : Json) :
    SameOutside view (r.run b.watched default asset tenant payload) (r'.run b.watched default asset tenant payload)
  execute (settings : Engine.Settings) (asset tenant : String) (kind : TriggerKind) (payload : Json) :
    SameOutside view (Engine.execute ⟨b.watched, settings⟩ r asset tenant kind payload)
      (Engine.execute ⟨b.watched, settings⟩ r' asset tenant kind payload)

theorem sameOutside_of_alike {α : Type} {f f' : StateM (Watched σ) α}
    (h : RuleFlow.Alike (SameView (Watched.look view)) Eq f f') : SameOutside view f f' := by
  intro s
  obtain ⟨hanswer, hlook⟩ := h s s rfl
  exact ⟨hanswer, congrArg Watched.effects hlook, congrArg Watched.stores hlook⟩

theorem SamePart.runsAs (h : r.SamePart r') (hb : b.JournalApart view) (hr : r.Sound) (hr' : r'.Sound) :
    r.RunsAs b view r' where
  run default asset tenant payload :=
    sameOutside_of_alike (alike_run_samePart (Watched.journalApart hb) hr hr' h default asset tenant payload)
  execute settings asset tenant kind payload := by
    apply sameOutside_of_alike
    unfold Engine.execute
    rw [h.id]
    exact Engine.alike_record (Watched.journalApart hb).alike _
      (alike_run_samePart (Watched.journalApart hb) hr hr' h settings.timeoutMs asset tenant payload)

/-- Two rules that compile, in which no two nodes have one id, and which agree on what can be reached from their first
triggers, are run alike: with the same end and the same outputs in the same order, and with the same writes, alarms,
records, metrics and entries of log nodes, one after the other.  So no changes elsewhere make a difference to a run. -/
theorem runsAs_of_samePart (hb : b.JournalApart view) (hr : r.Sound) (hr' : r'.Sound) (h : r.SamePart r') :
    r.RunsAs b view r' ∧ ∀ r'', r'.Edits r'' → r.RunsAs b view r'' :=
  ⟨h.runsAs hb hr hr', fun _ he => (h.trans (.of_edits he)).runsAs hb hr (he.sound_iff.1 hr')⟩

def scattered : Rule :=
  { diamond with
    nodes := [⟨"join", "log", .origin, [], [], []⟩, ⟨"right", "log", .origin, [], [], []⟩,
      ⟨"start", "manual", .origin, [], [], []⟩, ⟨"left", "log", .origin, [], [], []⟩]
    connections := [⟨"3", "left", "out", "join", "in"⟩, ⟨"1", "start", "out", "left", "in"⟩,
      ⟨"6", "stray", "out", "join", "in"⟩, ⟨"4", "right", "out", "join", "in"⟩, ⟨"2", "start", "out", "right", "in"⟩,
      ⟨"5", "right", "out", "join", "in"⟩] }

def strayed : Rule :=
  { scattered with nodes := scattered.nodes ++ [⟨"stray", "manual", .origin, [], [], []⟩] }

theorem samePart_scattered : diamond.SamePart scattered := by
  have hall {P : String → Prop} (h : P "start" ∧ P "left" ∧ P "right" ∧ P "join") (id : String)
      (hid : diamond.Reached id) : P id := by
    have hmem : id = "start" ∨ id = "left" ∨ id = "right" ∨ id = "join" := by
      simpa [diamond, ids] using hid.mem_ids
    rcases hmem with rfl | rfl | rfl | rfl
    exacts [h.1, h.2.1, h.2.2.1, h.2.2.2]
  exact ⟨rfl, rfl, rfl, rfl, rfl, hall ⟨rfl, rfl, rfl, rfl⟩, hall ⟨rfl, rfl, rfl, rfl⟩⟩

theorem edits_strayed : scattered.Edits strayed := by
  have hne (id : String) (h : strayed.Reached id) : id ≠ "stray" := by
    refine h.induction (P := fun id => id ≠ "stray") (fun t ht => ?_) fun a b _ _ hab => ?_
    · obtain rfl := Option.some.inj (ht.symm.trans (rfl : strayed.firstTrigger? = some _))
      decide
    · obtain ⟨⟨c, hc, -, rfl⟩, -⟩ := mem_successorIds.1 hab
      have hends : ∀ c ∈ strayed.connections, c.toNode ≠ "stray" := by decide
      exact hends c hc
  have hsound : strayed.Sound := ⟨by decide, _, _, rfl⟩
  exact .symm _ _ (.rel _ _ ⟨hsound, @Edit.removeNode strayed scattered.nodes [] _ rfl fun h => hne _ h rfl⟩)

theorem runsAs_scattered :
    Memory.backend.JournalApart Memory.outward ∧ diamond.Sound ∧ scattered.Sound ∧ diamond.SamePart scattered ∧
    diamond.RunsAs Memory.backend Memory.outward scattered ∧ diamond.RunsAs Memory.backend Memory.outward strayed := by
  have hr : diamond.Sound := ⟨by decide, _, _, rfl⟩
  have hr' : scattered.Sound := ⟨by decide, _, _, rfl⟩
  obtain ⟨hsame, hedits⟩ := runsAs_of_samePart Memory.journalApart hr hr' samePart_scattered
  exact ⟨Memory.journalApart, hr, hr', samePart_scattered, hsame, hedits strayed edits_strayed⟩

end Rule

end RuleFlow
