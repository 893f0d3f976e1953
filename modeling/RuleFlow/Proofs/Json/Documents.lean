import RuleFlow.Json.Reader
import RuleFlow.Proofs.Json.Objects
/-! # Documents

Equality of documents can be decided.  If the document of a value reads back as the value, so do the documents of its
members and items.  Main statement: `fits_of_valueWithin`, by which a value that was read of some document reads
back. -/
namespace RuleFlow.Document

mutual

def same : Document → Document → Bool
  | .null, .null => true
  | .bool a, .bool b => a == b
  | .number m, .number n => m == n
  | .string s, .string t => s == t
  | .array as, .array bs => sameItems as bs
  | .object as, .object bs => sameMembers as bs
  | _, _ => false

def sameItems : List Document → List Document → Bool
  | [], [] => true
  | a :: as, b :: bs => same a b && sameItems as bs
  | _, _ => false

def sameMembers : List (Option String × Document) → List (Option String × Document) → Bool
  | [], [] => true
  | (k, a) :: as, (l, b) :: bs => k == l && same a b && sameMembers as bs
  | _, _ => false

end

mutual

theorem same_refl : (a : Document) → same a a = true
  | .null => rfl
  | .bool _ => beq_self_eq_true _
  | .number _ => beq_self_eq_true _
  | .string _ => beq_self_eq_true _
  | .array items => sameItems_refl items
  | .object members => sameMembers_refl members

theorem sameItems_refl : (as : List Document) → sameItems as as = true
  | [] => rfl
  | a :: as => by rw [sameItems, same_refl a, sameItems_refl as]; rfl

theorem sameMembers_refl : (as : List (Option String × Document)) → sameMembers as as = true
  | [] => rfl
  | (k, a) :: as => by rw [sameMembers, same_refl a, sameMembers_refl as, beq_self_eq_true]; rfl

end

mutual

theorem eq_of_same : (a b : Document) → same a b = true → a = b
  | .null, b, h => by cases b <;> simp_all [same]
  | .bool x, b, h => by cases b <;> simp_all [same]
  | .number m, b, h => by cases b <;> simp_all [same]
  | .string s, b, h => by cases b <;> simp_all [same]
  | .array as, b, h => by
    cases b with
    | array bs => exact congrArg array (eq_of_sameItems as bs h)
    | _ => simp [same] at h
  | .object as, b, h => by
    cases b with
    | object bs => exact congrArg object (eq_of_sameMembers as bs h)
    | _ => simp [same] at h

theorem eq_of_sameItems : (as bs : List Document) → sameItems as bs = true → as = bs
  | [], bs, h => by cases bs <;> simp_all [sameItems]
  | a :: as, bs, h => by
    cases bs with
    | nil => simp [sameItems] at h
    | cons b bs =>
      rw [sameItems, Bool.and_eq_true] at h
      rw [eq_of_same a b h.1, eq_of_sameItems as bs h.2]

theorem eq_of_sameMembers : (as bs : List (Option String × Document)) → sameMembers as bs = true → as = bs
  | [], bs, h => by cases bs <;> simp_all [sameMembers]
  | (k, a) :: as, bs, h => by
    cases bs with
    | nil => simp [sameMembers] at h
    | cons m bs =>
      obtain ⟨l, b⟩ := m
      rw [sameMembers, Bool.and_eq_true, Bool.and_eq_true, beq_iff_eq] at h
      rw [h.1.1, eq_of_same a b h.1.2, eq_of_sameMembers as bs h.2]

end

instance : DecidableEq Document := fun a b =>
  decidable_of_iff (same a b = true) ⟨eq_of_same a b, fun h => h ▸ same_refl a⟩

variable {depth : Nat} {members : List (String × Json)} {values : List (String × Json)}

theorem membersWithin_cons {key : String} {v : Json} {rest : List (String × Json)} :
    membersWithin depth (ofMembers ((key, v) :: rest)) = some values ↔
      ∃ x xs, (ofJson v).valueWithin depth = some x ∧ membersWithin depth (ofMembers rest) = some xs ∧
        values = (key, x) :: xs := by
  simp only [ofMembers, membersWithin, Option.bind_eq_bind, Option.bind_some, Option.bind_eq_some_iff, Option.pure_def,
    Option.some.injEq]
  constructor
  · rintro ⟨x, hx, xs, hxs, rfl⟩
    exact ⟨x, xs, hx, hxs, rfl⟩
  · rintro ⟨x, xs, hx, hxs, rfl⟩
    exact ⟨x, hx, xs, hxs, rfl⟩

theorem keys_membersWithin (h : membersWithin depth (ofMembers members) = some values) :
    values.map (·.1) = members.map (·.1) := by
  induction members generalizing values with
  | nil =>
    obtain rfl : [] = values := by simpa [ofMembers, membersWithin] using h
    rfl
  | cons m rest ih =>
    obtain ⟨x, xs, -, hxs, rfl⟩ := membersWithin_cons.1 h
    rw [List.map_cons, List.map_cons, ih hxs]

/-- A member of the value is the value of the member. -/
theorem lookup_membersWithin (h : membersWithin depth (ofMembers members) = some values) (key : String) :
    values.lookup key = (members.lookup key).bind fun v => (ofJson v).valueWithin depth := by
  induction members generalizing values with
  | nil =>
    obtain rfl : [] = values := by simpa [ofMembers, membersWithin] using h
    rfl
  | cons m rest ih =>
    obtain ⟨x, xs, hx, hxs, rfl⟩ := membersWithin_cons.1 h
    rw [List.lookup_cons, List.lookup_cons]
    split
    · exact hx.symm
    · exact ih hxs

theorem lookup_ofMembers (members : List (String × Json)) (key : String) :
    (ofMembers members).lookup (some key) = (members.lookup key).map ofJson := by
  induction members with
  | nil => rfl
  | cons m rest ih =>
    rw [ofMembers, List.lookup_cons, List.lookup_cons, ih, Option.some_beq_some]
    cases key == m.1 <;> rfl

theorem lookup_of_mem (hkeys : (members.map (·.1)).Nodup) {m : String × Json} (hm : m ∈ members) :
    members.lookup m.1 = some m.2 := by
  induction members with
  | nil => cases hm
  | cons n rest ih =>
    obtain ⟨hn, hrest⟩ := List.nodup_cons.1 hkeys
    rw [List.lookup_cons]
    rcases List.mem_cons.1 hm with rfl | hm
    · rw [beq_self_eq_true]
    · have hne : m.1 ≠ n.1 := fun heq => hn (List.mem_map.2 ⟨m, hm, heq⟩)
      rw [beq_false_of_ne hne]
      exact ih hrest hm

theorem valueWithin_member (hkeys : (members.map (·.1)).Nodup)
    (h : (ofJson (.object members)).valueWithin (depth + 1) = some (.ofMembers members)) {m : String × Json}
    (hm : m ∈ members) : (ofJson m.2).valueWithin depth = some m.2 := by
  have hvalue : (membersWithin depth (ofMembers members)).map (fun ms => Json.object (Json.Object.ofList ms)) =
      some (.ofMembers members) := h
  obtain ⟨values, hvalues, hobject⟩ := Option.map_eq_some_iff.1 hvalue
  have hsame : Json.Object.ofList values = Json.Object.ofList members := Json.object.inj hobject
  have hlookup : values.lookup m.1 = members.lookup m.1 := by
    rw [← Json.Object.get?_ofList (keys_membersWithin hvalues ▸ hkeys), ← Json.Object.get?_ofList hkeys, hsame]
  rw [lookup_membersWithin hvalues, lookup_of_mem hkeys hm] at hlookup
  exact hlookup

theorem itemsWithin_self {items : List Json} (h : itemsWithin depth (ofItems items) = some items) :
    ∀ v ∈ items, (ofJson v).valueWithin depth = some v := by
  induction items with
  | nil => exact List.forall_mem_nil _
  | cons v rest ih =>
    simp only [ofItems, itemsWithin, Option.bind_eq_bind, Option.bind_eq_some_iff, Option.pure_def, Option.some.injEq,
      List.cons.injEq] at h
    obtain ⟨x, hx, xs, hxs, rfl, rfl⟩ := h
    exact List.forall_mem_cons.2 ⟨hx, ih hxs⟩

theorem valueWithin_item {items : List Json}
    (h : (ofJson (.array items)).valueWithin (depth + 1) = some (.array items)) {v : Json} (hv : v ∈ items) :
    (ofJson v).valueWithin depth = some v := by
  have hvalue : (itemsWithin depth (ofItems items)).map Json.array = some (.array items) := h
  obtain ⟨xs, hxs, harray⟩ := Option.map_eq_some_iff.1 hvalue
  exact itemsWithin_self (Json.array.inj harray ▸ hxs) v hv

theorem ofItems_eq_map (items : List Json) : ofItems items = items.map ofJson := by
  induction items with
  | nil => rfl
  | cons v rest ih => rw [ofItems, ih, List.map_cons]

/-- Whether a value is read back as it is within levels of nesting. -/
def Fits (depth : Nat) (v : Json) : Prop := (ofJson v).valueWithin depth = some v

theorem fits_string (s : String) : Fits depth (.string s) := rfl

theorem fits_array {items : List Json} (h : ∀ v ∈ items, Fits depth v) : Fits (depth + 1) (.array items) := by
  have hitems : itemsWithin depth (ofItems items) = some items := by
    induction items with
    | nil => rfl
    | cons v rest ih =>
      obtain ⟨hv, hrest⟩ := List.forall_mem_cons.1 h
      rw [ofItems, itemsWithin, show (ofJson v).valueWithin depth = some v from hv, ih hrest]
      rfl
  change (itemsWithin depth (ofItems items)).map Json.array = some (.array items)
  rw [hitems]
  rfl

theorem fits_ofMembers (h : ∀ m ∈ members, Fits depth m.2) : Fits (depth + 1) (.ofMembers members) := by
  have hmembers (o : Json.Object) (ho : ∀ m ∈ o, Fits depth m.2) : membersWithin depth (ofMembers o) = some o := by
    induction o with
    | nil => rfl
    | cons m rest ih =>
      obtain ⟨hm, hrest⟩ := List.forall_mem_cons.1 ho
      exact membersWithin_cons.2 ⟨m.2, rest, hm, ih hrest, rfl⟩
  change (membersWithin depth (ofMembers (Json.Object.ofList members))).map
    (fun ms => Json.object (Json.Object.ofList ms)) = some (.object (Json.Object.ofList members))
  rw [hmembers _ fun m hm => h m (Json.Object.mem_ofList hm), Option.map_some,
    Json.Object.ofList_of_sorted (Json.Object.sorted_ofList members)]

mutual

/-- What has been read of a document is read back: of a repeated key only the member that counts is left. -/
theorem fits_of_valueWithin : (d : Document) → ∀ {depth : Nat} {v : Json}, d.valueWithin depth = some v → Fits depth v
  | .null, depth, v, h => by
    obtain rfl : Json.null = v := Option.some.inj h
    rfl
  | .bool b, depth, v, h => by
    obtain rfl : Json.bool b = v := Option.some.inj h
    rfl
  | .number n, depth, v, h => by
    obtain ⟨x, -, rfl⟩ := Option.map_eq_some_iff.1 h
    rfl
  | .string s, depth, v, h => by
    obtain ⟨t, -, rfl⟩ := Option.map_eq_some_iff.1 h
    rfl
  | .array items, 0, v, h => by cases h
  | .array items, depth + 1, v, h => by
    obtain ⟨vs, hvs, rfl⟩ := Option.map_eq_some_iff.1
      (show (itemsWithin depth items).map Json.array = some v from h)
    exact fits_array (fits_of_itemsWithin items hvs)
  | .object members, 0, v, h => by cases h
  | .object members, depth + 1, v, h => by
    obtain ⟨vs, hvs, rfl⟩ := Option.map_eq_some_iff.1
      (show (membersWithin depth members).map (fun ms => Json.object (Json.Object.ofList ms)) = some v from h)
    exact fits_ofMembers (fits_of_membersWithin members hvs)

theorem fits_of_itemsWithin : (items : List Document) → ∀ {depth : Nat} {vs : List Json},
    itemsWithin depth items = some vs → ∀ v ∈ vs, Fits depth v
  | [], depth, vs, h => by
    obtain rfl : [] = vs := Option.some.inj h
    exact List.forall_mem_nil _
  | d :: rest, depth, vs, h => by
    simp only [itemsWithin, Option.bind_eq_bind, Option.bind_eq_some_iff, Option.pure_def, Option.some.injEq] at h
    obtain ⟨x, hx, xs, hxs, rfl⟩ := h
    exact List.forall_mem_cons.2 ⟨fits_of_valueWithin d hx, fits_of_itemsWithin rest hxs⟩

theorem fits_of_membersWithin : (members : List (Option String × Document)) →
    ∀ {depth : Nat} {vs : List (String × Json)}, membersWithin depth members = some vs → ∀ m ∈ vs, Fits depth m.2
  | [], depth, vs, h => by
    obtain rfl : [] = vs := Option.some.inj h
    exact List.forall_mem_nil _
  | (k, d) :: rest, depth, vs, h => by
    simp only [membersWithin, Option.bind_eq_bind, Option.bind_eq_some_iff, Option.pure_def, Option.some.injEq] at h
    obtain ⟨key, -, x, hx, xs, hxs, rfl⟩ := h
    exact List.forall_mem_cons.2 ⟨fits_of_valueWithin d hx, fits_of_membersWithin rest hxs⟩

end

end RuleFlow.Document
