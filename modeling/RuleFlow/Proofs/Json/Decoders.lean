import RuleFlow.Proofs.Json.Documents
import RuleFlow.Rule.Codec
/-! # Decoders and what is written

What a decoder reads of a value that was written.  Main statement: `record_rereads`, by which a record that was read of
some document, be it an object with other names or missing members or an array, is read again from the members that
are written of it, if each of its fields is. -/
namespace RuleFlow.Decoder

variable {α : Type} {depth : Nat}

def fieldsOf (members : List (String × Json)) : List (String × Document) :=
  members.map fun m => (m.1, Document.ofJson m.2)

/-- Whether a key is the name of the field that it is taken for. -/
def Named (names : List Field) (key : String) : Prop :=
  (names.find? fun f => f.name = key || f.aliases.contains key).map (·.name) = some key

instance (names : List Field) (key : String) : Decidable (Named names key) := inferInstanceAs (Decidable (_ = _))

theorem foldlM_addMember {names : List Field} {members : List (String × Json)} {given : List (String × Document)}
    (hnames : ∀ m ∈ members, Named names m.1)
    (hkeys : (given.map (·.1) ++ members.map (·.1)).Nodup) :
    (Document.ofMembers members).foldlM (addMember names) given = some (given ++ fieldsOf members) := by
  induction members generalizing given with
  | nil =>
    rw [fieldsOf, List.map_nil, List.append_nil]
    rfl
  | cons m rest ih =>
    obtain ⟨hm, hrest⟩ := List.forall_mem_cons.1 hnames
    have hkeys' : ((given ++ [(m.1, Document.ofJson m.2)]).map (·.1) ++ rest.map (·.1)).Nodup := by
      simpa using hkeys
    have hnew : given.lookup m.1 = none := by
      rw [List.lookup_eq_none_iff]
      intro n hn
      have hne : n.1 ≠ m.1 := fun heq =>
        (List.nodup_append.1 hkeys).2.2 n.1 (List.mem_map_of_mem hn) m.1 (by simp) heq
      simpa using hne.symm
    have hadded : addMember names given (some m.1, Document.ofJson m.2) =
        some (given ++ [(m.1, Document.ofJson m.2)]) := by
      obtain ⟨f, hf, hname⟩ := Option.map_eq_some_iff.1 hm
      simp only [addMember, Option.bind_eq_bind, Option.bind_some]
      rw [hf]
      simp [hname, hnew]
    rw [Document.ofMembers, List.foldlM_cons, hadded]
    exact (ih hrest hkeys').trans (congrArg some (List.append_assoc _ _ _))

theorem lookup_fieldsOf {members : List (String × Json)} (key : String) :
    (fieldsOf members).lookup key = (members.lookup key).map Document.ofJson := by
  induction members with
  | nil => rfl
  | cons m rest ih =>
    rw [fieldsOf, List.map_cons, ← fieldsOf, List.lookup_cons, List.lookup_cons, ih]
    cases key == m.1 <;> rfl

theorem record_object {names : List Field} {members : List (String × Json)} (read : Given → Option α)
    (hnames : ∀ m ∈ members, Named names m.1) (hkeys : (members.map (·.1)).Nodup) :
    record names read (depth + 1) (Document.ofJson (.object members)) = read ⟨depth, fieldsOf members⟩ := by
  have hfields : (Document.ofMembers members).foldlM (addMember names) [] = some (fieldsOf members) :=
    foldlM_addMember hnames (by simpa using hkeys)
  rw [Document.ofJson, record, hfields]
  rfl

namespace Given

variable {members : List (String × Json)}

theorem required_fieldsOf (key : String) (decoder : Decoder α) :
    required ⟨depth, fieldsOf members⟩ key decoder =
      (members.lookup key).bind fun v => decoder depth (Document.ofJson v) := by
  rw [required, lookup_fieldsOf, Option.bind_map]
  rfl

/-- A field that may be absent is read back if what is printed for it is never `null`. -/
theorem optional_fieldsOf {β : Type} {key : String} {value : Option β} {f : β → Json} {decoder : Decoder β}
    (hlookup : members.lookup key = value.map f)
    (hread : ∀ b, value = some b → f b ≠ .null ∧ decoder depth (Document.ofJson (f b)) = some b) :
    optional ⟨depth, fieldsOf members⟩ key decoder = some value := by
  cases value with
  | none =>
    rw [optional, withDefault, lookup_fieldsOf, hlookup]
    rfl
  | some b =>
    obtain ⟨hnull, hb⟩ := hread b rfl
    rw [optional, withDefault, lookup_fieldsOf, hlookup]
    change nullable decoder depth (Document.ofJson (f b)) = _
    unfold nullable
    split
    · rename_i hd
      cases hf : f b with
      | null => exact absurd hf hnull
      | _ => simp [hf, Document.ofJson] at hd
    · rw [hb]
      rfl

end Given

theorem uint64_ofUInt64 (n : UInt64) : uint64 depth (Document.ofJson (.ofUInt64 n)) = some n := by
  have hsize : n.toNat < UInt64.size := n.toNat_lt
  simp [uint64, natBelow, Json.ofUInt64, Json.Number.ofUInt64, Document.ofJson, hsize]

theorem list_array (depth : Nat) {decoder : Decoder α} {f : α → Json} {as : List α}
    (h : ∀ a ∈ as, decoder depth (Document.ofJson (f a)) = some a) :
    list decoder (depth + 1) (Document.ofJson (.array (as.map f))) = some as := by
  rw [Document.ofJson, list, Document.ofItems_eq_map, List.map_map]
  induction as with
  | nil => rfl
  | cons a as ih =>
    obtain ⟨ha, has⟩ := List.forall_mem_cons.1 h
    rw [List.map_cons, List.mapM_cons, Function.comp, ha, ih has]
    rfl

/-- Whether a value that a decoder reads of some document is read again from what is written of it. -/
def Rereads (decoder : Decoder α) (write : α → Json) (depth : Nat) (a : α) : Prop :=
  ∀ d, decoder depth d = some a → decoder depth (Document.ofJson (write a)) = some a

theorem string_rereads (s : String) : string.Rereads Json.string depth s := fun _ _ => rfl

theorem bool_rereads (b : Bool) : bool.Rereads Json.bool depth b := fun _ _ => rfl

theorem uint64_rereads (n : UInt64) : uint64.Rereads Json.ofUInt64 depth n := fun _ _ => uint64_ofUInt64 n

theorem uint32_rereads (n : UInt32) : uint32.Rereads (fun n => Json.ofUInt64 n.toUInt64) depth n := by
  intro _ _
  have hsize : n.toNat < UInt32.size := n.toNat_lt
  simp [uint32, natBelow, Json.ofUInt64, Json.Number.ofUInt64, Document.ofJson, hsize]

theorem float_rereads (x : FiniteFloat) : float.Rereads Json.ofFinite depth x := fun _ _ => dif_pos x.2

theorem instant_rereads {t : Instant} (h : Instant.parse t.text = some t) :
    instant.Rereads Instant.toJson depth t := by
  intro _ _
  simp only [instant, Instant.toJson, Document.ofJson, string, Option.bind_some, h]

theorem json_rereads (v : Json) : json.Rereads id depth v := fun d h => Document.fits_of_valueWithin d h

theorem members_rereads (o : Json.Object) : members.Rereads Json.object depth o := by
  intro d h
  unfold members at h ⊢
  split at h
  · rename_i o' hd
    obtain rfl := Option.some.inj h
    rw [show (Document.ofJson (.object o')).valueWithin depth = some (.object o') from
      Document.fits_of_valueWithin d hd]
  · cases h

/-- Whether only what is read of `null` is written as `null`. -/
def KeepsNull (decoder : Decoder α) (write : α → Json) (depth : Nat) : Prop :=
  ∀ d a, decoder depth d = some a → write a = .null → d = .null

theorem keepsNull_of_ne {decoder : Decoder α} {write : α → Json} (h : ∀ a, write a ≠ .null) :
    decoder.KeepsNull write depth := fun _ a _ heq => absurd heq (h a)

theorem string_keepsNull : string.KeepsNull Json.string depth := keepsNull_of_ne (by simp)

theorem uint64_keepsNull : uint64.KeepsNull Json.ofUInt64 depth := keepsNull_of_ne (by simp [Json.ofUInt64])

theorem instant_keepsNull : instant.KeepsNull Instant.toJson depth := keepsNull_of_ne (by simp [Instant.toJson])

theorem members_keepsNull : members.KeepsNull Json.object depth := keepsNull_of_ne (by simp)

theorem strings_keepsNull : (list string).KeepsNull Json.strings depth := keepsNull_of_ne (by simp [Json.strings])

theorem json_keepsNull : json.KeepsNull id depth := by
  rintro d v h rfl
  cases d with
  | null => rfl
  | _ => simp [json, Document.valueWithin] at h

/-- A value that may be absent is read again if `null` is told from all values that are there. -/
theorem nullable_rereads {decoder : Decoder α} {write : α → Json} {o : Option α}
    (h : ∀ a, o = some a → decoder.Rereads write depth a)
    (hnull : decoder.KeepsNull write depth) :
    (nullable decoder).Rereads (Json.ofOption write) depth o := by
  intro d hd
  cases o with
  | none => rfl
  | some a =>
    unfold nullable at hd
    split at hd
    · cases hd
    · rename_i hne
      obtain ⟨b, hb, hba⟩ := Option.map_eq_some_iff.1 hd
      obtain rfl := Option.some.inj hba
      have hwritten : Document.ofJson (write b) ≠ .null := fun heq => by
        refine hne (hnull d b hb ?_)
        cases hw : write b with
        | null => rfl
        | _ => simp [hw, Document.ofJson] at heq
      rw [Json.ofOption, nullable, h b rfl d hb]
      · rfl
      · exact hwritten

theorem exists_of_mem_mapM {β : Type} {f : β → Option α} {bs : List β} {as : List α} (h : bs.mapM f = some as) {a : α}
    (ha : a ∈ as) : ∃ b ∈ bs, f b = some a := by
  induction bs generalizing as with
  | nil =>
    obtain rfl : [] = as := by simpa using h
    cases ha
  | cons b rest ih =>
    simp only [List.mapM_cons, Option.bind_eq_bind, Option.bind_eq_some_iff, Option.pure_def, Option.some.injEq] at h
    obtain ⟨x, hx, xs, hxs, rfl⟩ := h
    rcases List.mem_cons.1 ha with rfl | ha
    · exact ⟨b, List.mem_cons_self, hx⟩
    · obtain ⟨c, hc, hca⟩ := ih hxs ha
      exact ⟨c, List.mem_cons_of_mem _ hc, hca⟩

theorem list_rereads {decoder : Decoder α} {write : α → Json} {as : List α}
    (h : ∀ a ∈ as, decoder.Rereads write depth a) :
    (list decoder).Rereads (fun as => .array (as.map write)) (depth + 1) as := by
  intro d hd
  cases d with
  | array items =>
    refine list_array depth fun a ha => ?_
    obtain ⟨item, -, hitem⟩ := exists_of_mem_mapM (show items.mapM (decoder depth) = some as from hd) ha
    exact h a ha item hitem
  | _ => cases hd

/-- The fields of a record, once as they were given and once as they are written. -/
structure Rewritten (depth : Nat) (members : List (String × Json)) (given written : Given) : Prop where
  before : given.depth = depth
  after : written.depth = depth
  lookup : ∀ key, written.fields.lookup key = (members.lookup key).map Document.ofJson

namespace Rewritten

variable {members : List (String × Json)} {given written : Given} {key : String} {decoder : Decoder α}
  {write : α → Json} {a : α}

theorem required (h : Rewritten depth members given written) (hread : given.required key decoder = some a)
    (ha : decoder.Rereads write depth a) (hlookup : members.lookup key = some (write a)) :
    written.required key decoder = some a := by
  obtain ⟨d, -, hd⟩ := Option.bind_eq_some_iff.1 hread
  rw [h.before] at hd
  rw [Given.required, h.lookup, hlookup, h.after]
  exact ha d hd

theorem withDefault {default : α} (h : Rewritten depth members given written)
    (hread : given.withDefault key default decoder = some a) (ha : decoder.Rereads write depth a)
    (hdefault : decoder depth (Document.ofJson (write default)) = some default)
    (hlookup : members.lookup key = some (write a)) : written.withDefault key default decoder = some a := by
  rw [Given.withDefault, h.lookup, hlookup, h.after]
  change decoder depth (Document.ofJson (write a)) = some a
  unfold Given.withDefault at hread
  split at hread
  · exact ha _ (h.before ▸ hread)
  · obtain rfl := Option.some.inj hread
    exact hdefault

theorem null {o : Option α} (h : Rewritten depth members given written)
    (hread : given.optional key decoder = some o) (ho : ∀ a, o = some a → decoder.Rereads write depth a)
    (hnull : decoder.KeepsNull write depth)
    (hlookup : members.lookup key = some (Json.ofOption write o)) : written.optional key decoder = some o :=
  h.withDefault hread (nullable_rereads ho hnull) rfl hlookup

theorem optional {o : Option α} (h : Rewritten depth members given written)
    (hread : given.optional key decoder = some o) (ho : ∀ a, o = some a → decoder.Rereads write depth a)
    (hnull : decoder.KeepsNull write depth)
    (hlookup : members.lookup key = o.map write) : written.optional key decoder = some o := by
  cases o with
  | none =>
    rw [Given.optional, Given.withDefault, h.lookup, hlookup]
    rfl
  | some a => exact h.null hread ho hnull hlookup

end Rewritten

theorem exists_given {names : List Field} {read : Given → Option α} {d : Document} {a : α}
    (h : record names read (depth + 1) d = some a) : ∃ given, given.depth = depth ∧ read given = some a := by
  cases d with
  | object members =>
    obtain ⟨fields, -, hread⟩ := Option.bind_eq_some_iff.1 h
    exact ⟨⟨depth, fields⟩, rfl, hread⟩
  | array items =>
    rw [record] at h
    split at h
    · exact ⟨_, rfl, h⟩
    · cases h
  | _ => cases h

theorem record_rereads {names : List Field} {read : Given → Option α} {members : α → List (String × Json)} {a : α}
    (hnames : (∀ f ∈ names, Named names f.name) ∧ (names.map (·.name)).Nodup)
    (hkeys : ((members a).map (·.1)).Sublist (names.map (·.name)))
    (hread : ∀ given written, Rewritten depth (members a) given written → read given = some a →
      read written = some a) :
    (record names read).Rereads (fun a => .ofMembers (members a)) (depth + 1) a := by
  intro d hd
  obtain ⟨given, hdepth, hgiven⟩ := exists_given hd
  have hnodup : ((members a).map (·.1)).Nodup := hnames.2.sublist hkeys
  have hsorted := Json.Object.sorted_ofList (members a)
  have hnamed : ∀ m ∈ Json.Object.ofList (members a), Named names m.1 := by
    intro m hm
    obtain ⟨f, hf, hname⟩ := List.mem_map.1 (hkeys.subset (List.mem_map_of_mem (Json.Object.mem_ofList hm)))
    exact hname ▸ hnames.1 f hf
  change record names read (depth + 1) (Document.ofJson (.object (Json.Object.ofList (members a)))) = some a
  rw [record_object read hnamed hsorted.nodup]
  refine hread given _ ⟨hdepth, rfl, fun key => ?_⟩ hgiven
  rw [lookup_fieldsOf, ← Json.Object.get?_ofList hnodup]
  rfl

theorem fits_of_withDefault {g : Given} {key : String} {v : Json}
    (h : g.withDefault key .null json = some v) : Document.Fits g.depth v := by
  unfold Given.withDefault at h
  split at h
  · exact Document.fits_of_valueWithin _ h
  · obtain rfl := Option.some.inj h
    rfl

theorem fits_of_optional {g : Given} {key : String} {o : Option Json}
    (h : g.optional key json = some o) : Document.Fits g.depth (o.getD .null) := by
  unfold Given.optional Given.withDefault at h
  split at h
  · unfold nullable at h
    split at h
    · obtain rfl := Option.some.inj h
      rfl
    · obtain ⟨v, hv, rfl⟩ := Option.map_eq_some_iff.1 h
      exact Document.fits_of_valueWithin _ hv
  · obtain rfl := Option.some.inj h
    rfl

end RuleFlow.Decoder
