import RuleFlow.Asset.Snapshot
import RuleFlow.Event
import RuleFlow.Proofs.Execution.Decoding
/-! # Stored and received types settle

A rule, a node, an asset, a change of an asset, a record and an event can be given in many forms: as objects or arrays,
with other names, with missing members or `null`, and with members that nobody knows.  They are written in one form.
Main statement: `decoders_settle`, by which what has been read is read again from what is written of it.  It has one
lemma for each type, in which each field is followed from the given to the written members. -/
namespace RuleFlow

@[simp] theorem Json.lookup_optionalMember {α : Type} (name key : String) (f : α → Json) (o : Option α) :
    (optionalMember name f o).lookup key = if key == name then o.map f else none := by
  cases o with
  | none => simp [optionalMember]
  | some a =>
    rw [optionalMember, List.lookup_cons]
    cases key == name <;> rfl

theorem Json.keys_optionalMember {α : Type} (name : String) (f : α → Json) (o : Option α) :
    ((optionalMember name f o).map (·.1)).Sublist [name] := by
  cases o with
  | none => exact List.nil_sublist _
  | some a => exact List.Sublist.refl _

variable {depth : Nat}

theorem Decoder.strings_rereads (xs : List String) : (list string).Rereads Json.strings (depth + 1) xs :=
  list_rereads fun s _ => string_rereads s

theorem Rule.Status.rereads (s : Status) : (Decoder.oneOf Status.names).Rereads (fun s => .string s.name) depth s := by
  intro _ _
  cases s <;> rfl

theorem Position.rereads (p : Position) : decoder.Rereads (fun p => .ofMembers p.members) (depth + 1) p := by
  refine Decoder.record_rereads (by decide) (.refl _) fun given written h hread => ?_
  simp only [↓Option.bind_eq_bind, ↓Option.bind_eq_some_iff, Option.pure_def, Option.some.injEq] at hread ⊢
  obtain ⟨x, hx, y, hy, rfl⟩ := hread
  exact ⟨_, h.required hx (Decoder.float_rereads _) rfl,
    _, h.required hy (Decoder.float_rereads _) rfl,
    rfl⟩

theorem Connection.rereads (c : Connection) : decoder.Rereads toJson (depth + 1) c := by
  refine Decoder.record_rereads (by decide) (.refl _) fun given written h hread => ?_
  simp only [↓Option.bind_eq_bind, ↓Option.bind_eq_some_iff, Option.pure_def, Option.some.injEq] at hread ⊢
  obtain ⟨id, hid, fromNode, hfromNode, fromOutput, hfromOutput, toNode, htoNode, toInput, htoInput, rfl⟩ := hread
  exact ⟨_, h.withDefault hid (Decoder.string_rereads _) rfl rfl,
    _, h.required hfromNode (Decoder.string_rereads _) rfl,
    _, h.withDefault hfromOutput (Decoder.string_rereads _) rfl rfl,
    _, h.required htoNode (Decoder.string_rereads _) rfl,
    _, h.withDefault htoInput (Decoder.string_rereads _) rfl rfl,
    rfl⟩

theorem NodeDefinition.rereads (n : NodeDefinition) : decoder.Rereads toJson (depth + 2) n := by
  refine Decoder.record_rereads (by decide) (.refl _) fun given written h hread => ?_
  simp only [↓Option.bind_eq_bind, ↓Option.bind_eq_some_iff, Option.pure_def, Option.some.injEq] at hread ⊢
  obtain ⟨id, hid, type, htype, position, hposition, config, hconfig, inputs, hinputs, outputs, houtputs, rfl⟩ := hread
  exact ⟨_, h.required hid (Decoder.string_rereads _) rfl,
    _, h.required htype (Decoder.string_rereads _) rfl,
    _, h.withDefault hposition (Position.rereads _) rfl rfl,
    _, h.withDefault hconfig (Decoder.members_rereads _) rfl rfl,
    _, h.withDefault hinputs (Decoder.strings_rereads _) rfl rfl,
    _, h.withDefault houtputs (Decoder.strings_rereads _) rfl rfl,
    rfl⟩

theorem Rule.Settings.rereads (s : Settings) : decoder.Rereads (fun s => .ofMembers s.members) (depth + 1) s := by
  refine Decoder.record_rereads (by decide) ?_ fun given written h hread => ?_
  · rw [members, List.map_append]
    exact (Json.keys_optionalMember _ _ _).append (.refl ["branchOnFalse"])
  simp only [↓Option.bind_eq_bind, ↓Option.bind_eq_some_iff, Option.pure_def, Option.some.injEq] at hread ⊢
  obtain ⟨timeoutMs, htimeoutMs, branchOnFalse, hbranchOnFalse, rfl⟩ := hread
  exact ⟨_, h.optional htimeoutMs (fun n _ => Decoder.uint64_rereads n) Decoder.uint64_keepsNull
      (by simp [members, List.lookup_append, List.lookup_cons]),
    _, h.withDefault hbranchOnFalse (Decoder.bool_rereads _) rfl (by simp [members, List.lookup_append]),
    rfl⟩

/-- The defaults of the nodes of a rule are four levels deep in what is written of it. -/
theorem Rule.rereads {r : Rule} (hcreated : ∀ t, r.createdAt = some t → Instant.parse t.text = some t) :
    decoder.Rereads toJson (depth + 4) r := by
  refine Decoder.record_rereads (by decide) ?_ fun given written h hread => ?_
  · -- The keys are the names of all fields but those that are absent.
    simp only [members, List.map_append]
    exact (((((.refl ["id", "tenantId", "name"] : List.Sublist _ _).append (Json.keys_optionalMember _ _ _)).append
      (.refl ["status", "priority", "appliesToAssetTypes"])).append (Json.keys_optionalMember _ _ _)).append
        (.refl ["nodes", "connections", "config"])).append (Json.keys_optionalMember _ _ _)
  simp only [↓Option.bind_eq_bind, ↓Option.bind_eq_some_iff, Option.pure_def, Option.some.injEq] at hread ⊢
  obtain ⟨id, hid, tenantId, htenantId, name, hname, description, hdescription, status, hstatus, priority, hpriority,
    types, htypes, assets, hassets, nodes, hnodes, connections, hconnections, settings, hsettings,
    createdAt, hcreatedAt, rfl⟩ := hread
  exact ⟨_, h.required hid (Decoder.string_rereads _) rfl,
    _, h.required htenantId (Decoder.string_rereads _) rfl,
    _, h.required hname (Decoder.string_rereads _) rfl,
    _, h.optional hdescription (fun s _ => Decoder.string_rereads s) Decoder.string_keepsNull
      (by simp [members, List.lookup_append, List.lookup_cons]),
    _, h.withDefault hstatus (Status.rereads _) rfl (by simp [members, List.lookup_append, List.lookup_cons]),
    _, h.withDefault hpriority (Decoder.uint32_rereads _) rfl (by simp [members, List.lookup_append, List.lookup_cons]),
    _, h.withDefault htypes (Decoder.strings_rereads _) rfl (by simp [members, List.lookup_append, List.lookup_cons]),
    _, h.optional hassets (fun xs _ => Decoder.strings_rereads xs) Decoder.strings_keepsNull
      (by simp [members, List.lookup_append, List.lookup_cons]),
    _, h.withDefault hnodes (Decoder.list_rereads fun n _ => n.rereads) rfl
      (by simp [members, List.lookup_append, List.lookup_cons]),
    _, h.withDefault hconnections (Decoder.list_rereads fun c _ => c.rereads) rfl
      (by simp [members, List.lookup_append, List.lookup_cons]),
    _, h.withDefault hsettings (Settings.rereads _) rfl (by simp [members, List.lookup_append, List.lookup_cons]),
    _, h.optional hcreatedAt (fun t ht => Decoder.instant_rereads (hcreated t ht)) Decoder.instant_keepsNull
      (by simp [members, List.lookup_append, List.lookup_cons]),
    rfl⟩

theorem Asset.rereads (a : Asset) : decoder.Rereads toJson (depth + 2) a := by
  refine Decoder.record_rereads (by decide) (.refl _) fun given written h hread => ?_
  simp only [↓Option.bind_eq_bind, ↓Option.bind_eq_some_iff, Option.pure_def, Option.some.injEq] at hread ⊢
  obtain ⟨id, hid, tenantId, htenantId, typeId, htypeId, name, hname, status, hstatus, telemetry, htelemetry,
    attributes, hattributes, computed, hcomputed, rfl⟩ := hread
  exact ⟨_, h.required hid (Decoder.string_rereads _) rfl,
    _, h.required htenantId (Decoder.string_rereads _) rfl,
    _, h.required htypeId (Decoder.string_rereads _) rfl,
    _, h.withDefault hname (Decoder.string_rereads _) rfl rfl,
    _, h.withDefault hstatus (Decoder.string_rereads _) rfl rfl,
    _, h.withDefault htelemetry (Decoder.members_rereads _) rfl rfl,
    _, h.withDefault hattributes (Decoder.members_rereads _) rfl rfl,
    _, h.withDefault hcomputed (Decoder.members_rereads _) rfl rfl,
    rfl⟩

theorem AssetUpdate.rereads (u : AssetUpdate) : decoder.Rereads toJson (depth + 1) u := by
  refine Decoder.record_rereads (by decide) ?_ fun given written h hread => ?_
  · rw [members, List.map_append]
    exact (Json.keys_optionalMember _ _ _).append (Json.keys_optionalMember _ _ _)
  simp only [↓Option.bind_eq_bind, ↓Option.bind_eq_some_iff, Option.pure_def, Option.some.injEq] at hread ⊢
  obtain ⟨attributes, hattributes, status, hstatus, rfl⟩ := hread
  exact ⟨_, h.optional hattributes (fun o _ => Decoder.members_rereads o) Decoder.members_keepsNull
      (by simp [members, List.lookup_append]),
    _, h.optional hstatus (fun s _ => Decoder.string_rereads s) Decoder.string_keepsNull
      (by simp [members, List.lookup_append]),
    rfl⟩

theorem ExecutedAction.rereads (a : ExecutedAction) :
    decoder.Rereads (fun a => .object a.members) (depth + 1) a := by
  have hwrite : (fun a : ExecutedAction => Json.object a.members) = fun a => .ofMembers a.members :=
    funext fun a => a.ofMembers_members.symm
  rw [hwrite]
  refine Decoder.record_rereads (by decide) (.refl _) fun given written h hread => ?_
  simp only [↓Option.bind_eq_bind, ↓Option.bind_eq_some_iff, Option.pure_def, Option.some.injEq] at hread ⊢
  obtain ⟨nodeId, hnodeId, output, houtput, rfl⟩ := hread
  exact ⟨_, h.required hnodeId (Decoder.string_rereads _) rfl,
    _, h.required houtput (Decoder.json_rereads _) rfl,
    rfl⟩

theorem ExecutionRecord.rereads {r : ExecutionRecord} (hstarted : Instant.parse r.startedAt.text = some r.startedAt)
    (hcompleted : Instant.parse r.completedAt.text = some r.completedAt) :
    decoder.Rereads toJson (depth + 3) r := by
  refine Decoder.record_rereads (by decide) ?_ fun given written h hread => ?_
  · simp only [members, List.map_append]
    exact (((List.Sublist.refl ["id", "ruleId", "tenantId", "assetId", "triggerType", "triggerData", "startedAt",
      "completedAt", "durationMs", "success"]).append (Json.keys_optionalMember _ _ _)).append
        (Json.keys_optionalMember _ _ _)).append (.refl ["actionsExecuted"])
  simp only [↓Option.bind_eq_bind, ↓Option.bind_eq_some_iff, Option.pure_def, Option.some.injEq] at hread ⊢
  obtain ⟨id, hid, ruleId, hruleId, tenantId, htenantId, assetId, hassetId, triggerType, htriggerType,
    triggerData, htriggerData, startedAt, hstartedAt, completedAt, hcompletedAt, durationMs, hdurationMs,
    success, hsuccess, result, hresult, error, herror, actions, hactions, rfl⟩ := hread
  exact ⟨_, h.required hid (Decoder.string_rereads _) rfl,
    _, h.required hruleId (Decoder.string_rereads _) rfl,
    _, h.required htenantId (Decoder.string_rereads _) rfl,
    _, h.required hassetId (Decoder.string_rereads _) rfl,
    _, h.required htriggerType (Decoder.string_rereads _) rfl,
    _, h.required htriggerData (Decoder.json_rereads _) rfl,
    _, h.required hstartedAt (Decoder.instant_rereads hstarted) rfl,
    _, h.required hcompletedAt (Decoder.instant_rereads hcompleted) rfl,
    _, h.required hdurationMs (Decoder.uint64_rereads _) rfl,
    _, h.required hsuccess (Decoder.bool_rereads _) rfl,
    _, h.optional hresult (fun v _ => Decoder.json_rereads v) Decoder.json_keepsNull (lookup_result _),
    _, h.optional herror (fun s _ => Decoder.string_rereads s) Decoder.string_keepsNull (lookup_error _),
    _, h.withDefault hactions (Decoder.list_rereads fun a _ => a.rereads) rfl
      (by simp [members, List.lookup_append, List.lookup_cons]),
    rfl⟩

theorem TriggerKind.ofName?_name (k : TriggerKind) : ofName? k.name = some k := by
  cases k <;> rfl

namespace Event

def time? (e : Event) : Option Instant :=
  match e.change with
  | .telemetry _ _ time => time
  | .attribute _ _ _ time => time
  | .status _ _ time => time
  | .schedule time => time
  | .manual _ _ => none

theorem fits_text (o : Option String) : Document.Fits depth (Json.ofOption .string o) := by
  cases o <;> rfl

theorem fits_time (o : Option Instant) : Document.Fits depth (Json.ofOption Instant.toJson o) := by
  cases o <;> rfl

def TimeReadsBack (e : Event) : Prop := ∀ t, e.time? = some t → Instant.parse t.text = some t

/-- What holds of a change that was read for a kind: its members read back as values, and it is read again from
them. -/
structure WasRead (kind : TriggerKind) (given : Decoder.Given) (change : Change) : Prop where
  ofKind (asset : AssetRef) : Event.kind ⟨asset, change⟩ = kind
  fits : ∀ m ∈ changeMembers change, Document.Fits given.depth m.2
  again {asset : AssetRef} {written : Decoder.Given} :
    Decoder.Rewritten given.depth (members ⟨asset, change⟩) given written → TimeReadsBack ⟨asset, change⟩ →
      readChange kind written = some change

theorem wasRead_of_readChange {kind : TriggerKind} {given : Decoder.Given} {change : Change}
    (hread : readChange kind given = some change) : WasRead kind given change := by
  have htime {time : Option Instant} (ht : ∀ t, time = some t → Instant.parse t.text = some t) :
      ∀ t, time = some t → Decoder.instant.Rereads Instant.toJson given.depth t :=
    fun t heq => Decoder.instant_rereads (ht t heq)
  cases kind with
  | telemetryChange =>
    simp only [readChange, ↓Option.bind_eq_bind, ↓Option.bind_eq_some_iff, Option.pure_def, Option.some.injEq] at hread
    obtain ⟨key, hkey, value, hvalue, time, hgiven, rfl⟩ := hread
    refine ⟨fun _ => rfl, ?_, fun h ht => ?_⟩
    · simp [changeMembers, Document.fits_string, Decoder.fits_of_withDefault hvalue, fits_time]
    · simp only [readChange, ↓Option.bind_eq_bind, ↓Option.bind_eq_some_iff, Option.pure_def, Option.some.injEq]
      exact ⟨key, h.required hkey (Decoder.string_rereads _) rfl, value,
        h.withDefault hvalue (Decoder.json_rereads _) rfl rfl, time,
        h.null hgiven (htime ht) Decoder.instant_keepsNull rfl, rfl⟩
  | attributeChange =>
    simp only [readChange, ↓Option.bind_eq_bind, ↓Option.bind_eq_some_iff, Option.pure_def, Option.some.injEq] at hread
    obtain ⟨key, hkey, old, hold, new, hnew, time, hgiven, rfl⟩ := hread
    refine ⟨fun _ => rfl, ?_, fun h ht => ?_⟩
    · simp [changeMembers, Document.fits_string, Decoder.fits_of_withDefault hold, Decoder.fits_of_withDefault hnew,
        fits_time]
    · simp only [readChange, ↓Option.bind_eq_bind, ↓Option.bind_eq_some_iff, Option.pure_def, Option.some.injEq]
      exact ⟨key, h.required hkey (Decoder.string_rereads _) rfl, old,
        h.withDefault hold (Decoder.json_rereads _) rfl rfl, new,
        h.withDefault hnew (Decoder.json_rereads _) rfl rfl, time,
        h.null hgiven (htime ht) Decoder.instant_keepsNull rfl, rfl⟩
  | statusChange =>
    simp only [readChange, ↓Option.bind_eq_bind, ↓Option.bind_eq_some_iff, Option.pure_def, Option.some.injEq] at hread
    obtain ⟨old, hold, new, hnew, time, hgiven, rfl⟩ := hread
    refine ⟨fun _ => rfl, ?_, fun h ht => ?_⟩
    · simp [changeMembers, Document.fits_string, fits_text, fits_time]
    · simp only [readChange, ↓Option.bind_eq_bind, ↓Option.bind_eq_some_iff, Option.pure_def, Option.some.injEq]
      exact ⟨old, h.null hold (fun s _ => Decoder.string_rereads s) Decoder.string_keepsNull rfl, new,
        h.required hnew (Decoder.string_rereads _) rfl, time,
        h.null hgiven (htime ht) Decoder.instant_keepsNull rfl, rfl⟩
  | schedule =>
    simp only [readChange, ↓Option.bind_eq_bind, ↓Option.bind_eq_some_iff, Option.pure_def, Option.some.injEq] at hread
    obtain ⟨time, hgiven, rfl⟩ := hread
    refine ⟨fun _ => rfl, ?_, fun h ht => ?_⟩
    · simp [changeMembers, fits_time]
    · simp only [readChange, ↓Option.bind_eq_bind, ↓Option.bind_eq_some_iff, Option.pure_def, Option.some.injEq]
      exact ⟨time, h.null hgiven (htime ht) Decoder.instant_keepsNull rfl, rfl⟩
  | manual =>
    simp only [readChange, ↓Option.bind_eq_bind, ↓Option.bind_eq_some_iff, Option.pure_def, Option.some.injEq] at hread
    obtain ⟨rule, hrule, payload, hpayload, rfl⟩ := hread
    refine ⟨fun _ => rfl, ?_, fun {asset _} h _ => ?_⟩
    · simp [changeMembers, fits_text, Decoder.fits_of_optional hpayload]
    · have hwritten : (members ⟨asset, .manual rule payload⟩).lookup "payload" = some (Json.ofOption id payload) := by
        cases payload <;> rfl
      simp only [readChange, ↓Option.bind_eq_bind, ↓Option.bind_eq_some_iff, Option.pure_def, Option.some.injEq]
      exact ⟨rule, h.null hrule (fun s _ => Decoder.string_rereads s) Decoder.string_keepsNull rfl, payload,
        h.null hpayload (fun v _ => Decoder.json_rereads v) Decoder.json_keepsNull hwritten, rfl⟩

theorem named_fields (kind : TriggerKind) :
    (∀ f ∈ commonFields ++ fieldsOf kind, Decoder.Named (commonFields ++ fieldsOf kind) f.name) ∧
      ((commonFields ++ fieldsOf kind).map (·.name)).Nodup := by
  cases kind <;> decide

theorem keys_members (e : Event) : e.members.map (·.1) = (commonFields ++ fieldsOf e.kind).map (·.name) := by
  obtain ⟨asset, change⟩ := e
  cases change <;> rfl

theorem record_rereads {e : Event} (htime : e.TimeReadsBack) :
    (Decoder.record (commonFields ++ fieldsOf e.kind) (readAs e.kind)).Rereads toJson (depth + 1) e := by
  refine Decoder.record_rereads (named_fields e.kind) (keys_members e ▸ .refl _) fun given written h hread => ?_
  simp only [readAs, ↓Option.bind_eq_bind, ↓Option.bind_eq_some_iff, Option.pure_def, Option.some.injEq] at hread ⊢
  obtain ⟨tenantId, htenantId, assetId, hassetId, typeId, htypeId, change, hchange, rfl⟩ := hread
  exact ⟨tenantId, h.required htenantId (Decoder.string_rereads _) rfl, assetId,
    h.required hassetId (Decoder.string_rereads _) rfl, typeId,
    h.required htypeId (Decoder.string_rereads _) rfl, change,
    (wasRead_of_readChange hchange).again (h.before.symm ▸ h) htime, rfl⟩

theorem kindOf?_members (e : Event) :
    kindOf? (Document.ofMembers (Json.Object.ofList e.members)) = some e.kind := by
  have hnodup : (e.members.map (·.1)).Nodup := keys_members e ▸ (named_fields e.kind).2
  have htype : (Json.Object.ofList e.members).lookup "type" = some (.string e.kind.name) :=
    Json.Object.get?_ofList hnodup "type"
  rw [kindOf?, Document.lookup_ofMembers, htype]
  exact e.kind.ofName?_name

/-- The members of an event tell its kind, so that it is read as an event of that kind. -/
theorem decoder_toJson {e : Event} (h : Document.Fits depth e.toJson) :
    decoder depth (Document.ofJson e.toJson) =
      Decoder.record (commonFields ++ fieldsOf e.kind) (readAs e.kind) depth (Document.ofJson e.toJson) := by
  change ((Document.ofJson e.toJson).valueWithin depth).bind (fun _ =>
    (kindOf? (Document.ofMembers (Json.Object.ofList e.members))).bind fun kind =>
      Decoder.record (commonFields ++ fieldsOf kind) (readAs kind) depth (Document.ofJson e.toJson)) = _
  rw [show (Document.ofJson e.toJson).valueWithin depth = some e.toJson from h, kindOf?_members, Option.bind_some,
    Option.bind_some]

theorem rereads {e : Event} (htime : e.TimeReadsBack) : decoder.Rereads toJson (depth + 1) e := by
  intro d hd
  cases d with
  | object ms =>
    simp only [decoder, Option.bind_eq_bind, Option.bind_eq_some_iff] at hd
    obtain ⟨-, -, kind, -, hrecord⟩ := hd
    obtain ⟨given, rfl, hread⟩ := Decoder.exists_given hrecord
    have hwas : WasRead kind given e.change := by
      simp only [readAs, ↓Option.bind_eq_bind, ↓Option.bind_eq_some_iff, Option.pure_def, Option.some.injEq] at hread
      obtain ⟨tenantId, -, assetId, -, typeId, -, change, hchange, rfl⟩ := hread
      exact wasRead_of_readChange hchange
    obtain rfl : e.kind = kind := hwas.ofKind e.asset
    have hfits : Document.Fits (given.depth + 1) e.toJson := by
      refine Document.fits_ofMembers ?_
      simpa [members, Document.fits_string] using hwas.fits
    rw [decoder_toJson hfits]
    exact record_rereads htime _ hrecord
  | _ => cases hd

end Event

/-- Whether what a decoder reads of any document is read again from what is written of it, so that the same is written
again, if the instants in it are read back from their texts. -/
def Decoder.Settles {α : Type} (decoder : Decoder α) (write : α → Json) (instants : α → List Instant) (depth : Nat) :
    Prop :=
  ∀ d a, decoder depth d = some a → (∀ t ∈ instants a, Instant.parse t.text = some t) →
    decoder depth (Document.ofJson (write a)) = some a ∧
      (decoder depth (Document.ofJson (write a))).map write = some (write a)

theorem Decoder.settles {α : Type} {decoder : Decoder α} {write : α → Json} {instants : α → List Instant}
    (h : ∀ a, (∀ t ∈ instants a, Instant.parse t.text = some t) → decoder.Rereads write depth a) :
    decoder.Settles write instants depth := by
  intro d a hd ht
  have hagain : decoder depth (Document.ofJson (write a)) = some a := h a ht d hd
  exact ⟨hagain, congrArg (Option.map write) hagain⟩

/-- What is read of a document, in any of the forms that it may have, is read again from what is written of it, and
the same is written again.  A rule opens up to four levels, since the defaults of its nodes are written too. -/
theorem decoders_settle {depth : Nat} (hdepth : 4 ≤ depth) :
    Rule.decoder.Settles Rule.toJson (fun r => r.createdAt.toList) depth ∧
      NodeDefinition.decoder.Settles NodeDefinition.toJson (fun _ => []) depth ∧
      Asset.decoder.Settles Asset.toJson (fun _ => []) depth ∧
      AssetUpdate.decoder.Settles AssetUpdate.toJson (fun _ => []) depth ∧
      ExecutionRecord.decoder.Settles ExecutionRecord.toJson (fun r => [r.startedAt, r.completedAt]) depth ∧
      Event.decoder.Settles Event.toJson (fun e => e.time?.toList) depth := by
  obtain ⟨depth, rfl⟩ := Nat.exists_eq_add_of_le' hdepth
  refine ⟨Decoder.settles fun r ht => ?_, Decoder.settles fun n _ => n.rereads, Decoder.settles fun a _ => a.rereads,
    Decoder.settles fun u _ => u.rereads, Decoder.settles fun r ht => ?_, Decoder.settles fun e ht => ?_⟩
  · exact Rule.rereads fun t heq => ht t (Option.mem_toList.2 heq)
  · exact ExecutionRecord.rereads (ht _ List.mem_cons_self) (ht _ (List.mem_cons_of_mem _ List.mem_cons_self))
  · exact Event.rereads fun t heq => ht t (Option.mem_toList.2 heq)

/-- A rule with another name for its connections, a node as an array, `null` for what may be absent, and an unknown
member without a value. -/
def givenRule : Document :=
  .object [(some "id", .string (some "r")), (some "tenantId", .string (some "t")), (some "name", .string (some "")),
    (some "description", .null), (some "nodes", .array [.array [.string (some "m"), .string (some "manual")]]),
    (some "edges", .array [.object [(some "fromNode", .string (some "m")), (some "toNode", .string (some "l"))]]),
    (some "createdAt", .string (some "1970-01-01T01:00:00+01:00")), (some "unknown", .number none)]

def givenRecord : Document :=
  .array [.string (some "e1"), .string (some "r"), .string (some "t"), .string (some "well"), .string (some "manual"),
    .null, .string (some "1970-01-01T00:00:00Z"), .string (some "1970-01-01T00:00:01.005Z"),
    .number (some (.ofUInt64 1005)), .bool true, .null]

def givenEvent : Document :=
  .object [(some "assetTypeId", .string (some "well")), (some "assetId", .string (some "a")),
    (some "type", .string (some "telemetry_change")), (some "telemetryKey", .string (some "pressure")),
    (some "tenantId", .string (some "t")), (some "timestamp", .string (some "1970-01-01 00:01:00Z"))]

/-- Documents that are given in other forms than they are written in settle. -/
theorem settled_documents :
    (∃ r, Rule.decoder 127 givenRule = some r ∧ r.createdAt = some ⟨0, 0⟩ ∧
      Rule.decoder 127 (Document.ofJson r.toJson) = some r) ∧
    (∃ r, ExecutionRecord.decoder 127 givenRecord = some r ∧
      ExecutionRecord.decoder 127 (Document.ofJson r.toJson) = some r) ∧
    ∃ e, Event.decoder 127 givenEvent = some e ∧ Event.decoder 127 (Document.ofJson e.toJson) = some e := by
  obtain ⟨hrules, -, -, -, hrecords, hevents⟩ := decoders_settle (show 4 ≤ 127 by decide)
  have hrule : (Rule.decoder 127 givenRule).map (·.createdAt) = some (some ⟨0, 0⟩) := by decide +kernel
  have hrecord : (ExecutionRecord.decoder 127 givenRecord).map (fun r => (r.startedAt, r.completedAt)) =
      some (⟨0, 0⟩, ⟨1, 5000000⟩) := by decide +kernel
  have hevent : (Event.decoder 127 givenEvent).map (·.time?) = some (some ⟨60, 0⟩) := by decide +kernel
  obtain ⟨r, hr, hcreated⟩ := Option.map_eq_some_iff.1 hrule
  obtain ⟨s, hs, htimes⟩ := Option.map_eq_some_iff.1 hrecord
  obtain ⟨e, he, htime⟩ := Option.map_eq_some_iff.1 hevent
  obtain ⟨hstarted, hcompleted⟩ := Prod.mk.inj htimes
  refine ⟨⟨r, hr, hcreated, (hrules _ r hr ?_).1⟩, ⟨s, hs, (hrecords _ s hs ?_).1⟩, ⟨e, he, (hevents _ e he ?_).1⟩⟩
  · change ∀ t ∈ r.createdAt.toList, Instant.parse t.text = some t
    rw [hcreated]
    decide +kernel
  · change ∀ t ∈ [s.startedAt, s.completedAt], Instant.parse t.text = some t
    rw [hstarted, hcompleted]
    decide +kernel
  · change ∀ t ∈ e.time?.toList, Instant.parse t.text = some t
    rw [htime]
    decide +kernel

end RuleFlow
