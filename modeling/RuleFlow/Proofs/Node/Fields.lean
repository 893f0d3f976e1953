import Mathlib.Data.List.Basic
import RuleFlow.Node.Compile
import RuleFlow.Walk.Error
/-! # What a stored node has to hold

Each type of node reads some fields of the configuration, in a fixed order, and each field has to hold a value of some
form.  A stored node is compiled as soon as all of them do; else the first field that does not is the error.  Main
statement: `compile_by_fields`. -/
namespace RuleFlow

inductive FieldForm | text | optionalText | array | operation | level | anything

/-- The forms of the fields that a type of node reads, in the order of reading; other names are no types. -/
def fieldForms? (type : String) : Option (List (String × FieldForm)) :=
  match type with
  | "telemetry_change" => some [("telemetryKey", .optionalText), ("attributeKey", .optionalText)]
  | "attribute_change" => some [("telemetryKey", .optionalText), ("attributeKey", .optionalText)]
  | "status_change" => some [("telemetryKey", .optionalText), ("attributeKey", .optionalText)]
  | "schedule" => some [("telemetryKey", .optionalText), ("attributeKey", .optionalText)]
  | "manual" => some [("telemetryKey", .optionalText), ("attributeKey", .optionalText)]
  | "if" => some [("expression", .text)]
  | "get_telemetry" => some [("telemetryKey", .text)]
  | "get_attribute" => some [("attributeKey", .text)]
  | "math" => some [("operation", .operation), ("operands", .array)]
  | "formula" => some [("formula", .text)]
  | "set_computed" => some [("field", .text), ("value", .anything)]
  | "set_attribute" => some [("attribute", .text), ("value", .anything)]
  | "set_status" => some [("status", .text)]
  | "create_alarm" =>
    some [("alarmCode", .text), ("name", .text), ("message", .optionalText), ("severity", .optionalText)]
  | "log" => some [("message", .optionalText), ("level", .level)]
  | _ => none

namespace FieldForm

def operations : List String := ["add", "subtract", "multiply", "divide"]

/-- What may be written for a level; the empty text stands for the default. -/
def levels : List String := ["", "debug", "info", "warn", "warning", "error"]

/-- Whether what is under a key of a configuration, if anything is, has a form. -/
def Accepts : FieldForm → Option Json → Prop
  | .text, v => ∃ s, s ≠ "" ∧ v = some (.string s)
  | .optionalText, v => v = none ∨ v = some .null ∨ ∃ s, v = some (.string s)
  | .array, v => ∃ items, v = some (.array items)
  | .operation, v => ∃ s ∈ operations, v = some (.string s)
  | .level, v => v = none ∨ v = some .null ∨ ∃ s ∈ levels, v = some (.string s)
  | .anything, _ => True

def unlike (field type expected : String) (required : Bool) : Option Json → Option CompileError
  | none => if required then some (.missingField field type) else none
  | some .null => if required then some (.missingField field type) else none
  | some _ => some (.invalidField field type expected)

def refusal (field type : String) : FieldForm → Option Json → Option CompileError
  | .text, some (.string s) => if s = "" then some (.missingField field type) else none
  | .text, v => unlike field type "string" true v
  | .optionalText, some (.string _) => none
  | .optionalText, v => unlike field type "string" false v
  | .array, some (.array _) => none
  | .array, v => unlike field type "array" true v
  | .operation, some (.string s) =>
    if s = "" then some (.missingField field type) else if s ∈ operations then none else some (.unknownOperation s)
  | .operation, v => unlike field type "string" true v
  | .level, some (.string s) =>
    if s ∈ levels then none else some (.invalidField field type "one of debug, info, warn, error")
  | .level, v => unlike field type "string" false v
  | .anything, _ => none

theorem refusal_eq_none_iff {field type : String} {form : FieldForm} {v : Option Json} :
    form.refusal field type v = none ↔ form.Accepts v := by
  have hempty {s : String} (hs : s ∈ operations) : s ≠ "" := by
    rintro rfl
    exact absurd hs (by decide)
  rcases v with _ | _ | _ | _ | s | _ | _ <;> cases form <;> simp [refusal, unlike, Accepts]
  by_cases hs : s ∈ operations
  · simp [hs, hempty hs]
  · have hnot : "" ∉ operations := fun h => hempty h rfl
    by_cases h : s = "" <;> simp [h, hs, hnot]

end FieldForm

/-- Whether an attempt ends with an error, if there is one, and else with a result of which something holds. -/
def Settles {ε α : Type} (x : Except ε α) (e? : Option ε) (P : α → Prop) : Prop :=
  match e? with
  | some e => x = .error e
  | none => ∃ a, x = .ok a ∧ P a

namespace Settles

variable {ε α β ι : Type} {x : Except ε α} {e? : Option ε} {P : α → Prop} {Q : β → Prop} {f : α → Except ε β}

theorem pure {a : α} (h : P a) : Settles (.ok a : Except ε α) none P := ⟨a, rfl, h⟩

/-- An attempt that begins with another one fails with its error, if there is one. -/
theorem bind {error? : ι → Option ε} {i : ι} {is : List ι} (hx : Settles x (error? i) P)
    (hf : ∀ a, P a → Settles (f a) (is.findSome? error?) Q) : Settles (x >>= f) ((i :: is).findSome? error?) Q := by
  rw [List.findSome?_cons]
  cases he : error? i with
  | some e =>
    rw [he] at hx
    obtain rfl : x = .error e := hx
    rfl
  | none =>
    rw [he] at hx
    obtain ⟨a, rfl, ha⟩ := hx
    exact hf a ha

theorem map {g : α → β} (hx : Settles x e? P) (hg : ∀ a, P a → Q (g a)) : Settles (do return g (← x)) e? Q := by
  cases e? with
  | some e =>
    obtain rfl : x = .error e := hx
    rfl
  | none =>
    obtain ⟨a, rfl, ha⟩ := hx
    exact .pure (hg a ha)

theorem exists_ok_iff (h : Settles x e? P) : (∃ a, x = .ok a) ↔ e? = none := by
  cases e? with
  | some e =>
    obtain rfl : x = .error e := h
    simp
  | none =>
    obtain ⟨a, rfl, -⟩ := h
    simp

theorem eq_error_iff (h : Settles x e? P) {e : ε} : x = .error e ↔ e? = some e := by
  cases e? with
  | some e' =>
    obtain rfl : x = .error e' := h
    simp
  | none =>
    obtain ⟨a, rfl, -⟩ := h
    simp

theorem of_ok (h : Settles x e? P) {a : α} (ha : x = .ok a) : P a := by
  cases e? with
  | some e => cases ha.symm.trans h
  | none =>
    obtain ⟨b, hb, hP⟩ := h
    cases ha.symm.trans hb
    exact hP

end Settles

theorem MathOperation.isSome_ofName?_iff {s : String} : (ofName? s).isSome ↔ s ∈ FieldForm.operations := by
  have hnames : FieldForm.operations = all.map name := rfl
  rw [hnames, List.mem_map, ofName?, List.find?_isSome]
  simp only [decide_eq_true_eq]

namespace NodeDefinition

variable {n : NodeDefinition}

theorem isSome_levelNames_iff {s : String} (hs : s ≠ "") :
    (levelNames.lookup s).isSome ↔ s ∈ FieldForm.levels := by
  have hnames : FieldForm.levels.Perm ("" :: levelNames.map Prod.fst) := by decide
  rw [hnames.mem_iff, List.mem_cons, or_iff_right hs, Option.isSome_iff_ne_none, Ne, List.lookup_eq_none_iff]
  simp

def refusal (n : NodeDefinition) (f : String × FieldForm) : Option CompileError :=
  f.2.refusal f.1 n.type (Json.Object.get? n.config f.1)

theorem settles_optionalText (n : NodeDefinition) (field : String) :
    Settles (n.optionalText field) (n.refusal (field, .optionalText)) fun _ => True := by
  unfold optionalText refusal
  rcases Json.Object.get? n.config field with _ | _ | _ | _ | s | _ | _
  case none => exact .pure trivial
  case some.null => exact .pure trivial
  case some.string => exact .pure trivial
  all_goals rfl

theorem settles_requiredText (n : NodeDefinition) (field : String) :
    Settles (n.requiredText field) (n.refusal (field, .text)) fun _ => True := by
  unfold requiredText optionalText refusal
  rcases Json.Object.get? n.config field with _ | _ | _ | _ | s | _ | _
  case some.string =>
    by_cases hs : s = ""
    · simp only [FieldForm.refusal, if_pos hs]
      rfl
    · simp only [FieldForm.refusal, if_neg hs]
      exact .pure trivial
  all_goals rfl

theorem settles_requiredArray (n : NodeDefinition) (field : String) :
    Settles (n.requiredArray field) (n.refusal (field, .array)) fun _ => True := by
  unfold requiredArray refusal
  rcases Json.Object.get? n.config field with _ | _ | _ | _ | _ | items | _
  case some.array => exact .pure trivial
  all_goals rfl

theorem settles_operation (n : NodeDefinition) :
    Settles n.operation (n.refusal ("operation", .operation)) fun _ => True := by
  unfold operation requiredText optionalText refusal
  rcases Json.Object.get? n.config "operation" with _ | _ | _ | _ | s | _ | _
  case some.string =>
    by_cases hs : s = ""
    · simp only [FieldForm.refusal, if_pos hs]
      rfl
    · simp only [FieldForm.refusal, if_neg hs, ← MathOperation.isSome_ofName?_iff, bind, Except.bind, pure, Except.pure]
      cases MathOperation.ofName? s with
      | none => rfl
      | some o => exact .pure trivial
  all_goals rfl

theorem settles_level (n : NodeDefinition) : Settles n.level (n.refusal ("level", .level)) fun _ => True := by
  unfold level optionalText refusal
  rcases Json.Object.get? n.config "level" with _ | _ | _ | _ | s | _ | _
  case none => exact .pure trivial
  case some.null => exact .pure trivial
  case some.string =>
    by_cases hs : s = ""
    · rw [hs]
      exact .pure trivial
    · simp only [FieldForm.refusal, if_neg hs, ← isSome_levelNames_iff hs, bind, Except.bind, pure, Except.pure]
      cases levelNames.lookup s with
      | none => rfl
      | some l => exact .pure trivial
  all_goals rfl

/-- Whether a stored node has a known type, and all fields that nodes of the type read have the right form. -/
def Acceptable (n : NodeDefinition) : Prop :=
  ∃ fields, fieldForms? n.type = some fields ∧ ∀ f ∈ fields, f.2.Accepts (Json.Object.get? n.config f.1)

/-- The errors of a stored node: its type is not known, or a field has not the right form, unlike all fields that are
read before. -/
inductive Faulty (n : NodeDefinition) : CompileError → Prop
  | type (htype : fieldForms? n.type = none) : Faulty n (.unknownNodeType n.type n.id)
  | field {before after : List (String × FieldForm)} {f : String × FieldForm} {e : CompileError}
    (hfields : fieldForms? n.type = some (before ++ f :: after))
    (hbefore : ∀ g ∈ before, g.2.Accepts (Json.Object.get? n.config g.1)) (he : n.refusal f = some e) : Faulty n e

def firstRefusal (n : NodeDefinition) : Option CompileError :=
  match fieldForms? n.type with
  | none => some (.unknownNodeType n.type n.id)
  | some fields => fields.findSome? n.refusal

theorem refusal_eq_none_iff {f : String × FieldForm} :
    n.refusal f = none ↔ f.2.Accepts (Json.Object.get? n.config f.1) :=
  FieldForm.refusal_eq_none_iff

theorem firstRefusal_eq_none_iff : n.firstRefusal = none ↔ n.Acceptable := by
  unfold firstRefusal Acceptable
  cases fieldForms? n.type with
  | none => simp
  | some fields => simp only [List.findSome?_eq_none_iff, refusal_eq_none_iff, Option.some.injEq, exists_eq_left']

theorem firstRefusal_eq_some_iff {e : CompileError} : n.firstRefusal = some e ↔ n.Faulty e := by
  unfold firstRefusal
  constructor
  · intro h
    split at h
    · next htype =>
      obtain rfl : CompileError.unknownNodeType n.type n.id = e := Option.some_inj.1 h
      exact .type htype
    · next fields hfields =>
      obtain ⟨before, f, after, rfl, he, hbefore⟩ := List.findSome?_eq_some_iff.1 h
      exact .field hfields (fun g hg => refusal_eq_none_iff.1 (hbefore g hg)) he
  · intro h
    cases h with
    | type htype => rw [htype]
    | field hfields hbefore he =>
      rw [hfields]
      exact List.findSome?_eq_some_iff.2 ⟨_, _, _, rfl, he, fun g hg => refusal_eq_none_iff.2 (hbefore g hg)⟩

end NodeDefinition

open NodeDefinition

theorem NodeKind.settles_ofDefinition {n : NodeDefinition} (hkind : TriggerKind.ofName? n.type = none) :
    Settles (NodeKind.ofDefinition n) n.firstRefusal fun k => k.typeName = n.type := by
  unfold NodeKind.ofDefinition firstRefusal
  -- A case for each type that is no trigger, in the order of the definition.
  split
  case h_4 h =>
    rw [h]
    exact n.settles_operation.bind fun _ _ => (n.settles_requiredArray _).bind fun _ _ => .pure rfl
  case h_9 h =>
    rw [h]
    exact (n.settles_requiredText _).bind fun _ _ => (n.settles_requiredText _).bind fun _ _ =>
      (n.settles_optionalText _).bind fun _ _ => (n.settles_optionalText _).bind fun _ _ => .pure rfl
  case h_10 h =>
    rw [h]
    exact (n.settles_optionalText _).bind fun _ _ => n.settles_level.bind fun _ _ => .pure rfl
  case h_11 =>
    have hnone : fieldForms? n.type = none := by
      unfold fieldForms?
      split
      case h_16 => rfl
      case h_1 h | h_2 h | h_3 h | h_4 h | h_5 h =>
        rw [h] at hkind
        cases hkind
      all_goals contradiction
    rw [hnone]
    rfl
  all_goals
    -- Every other type begins with a text, and what comes behind it may be anything.
    next h =>
    rw [h]
    exact (n.settles_requiredText _).bind fun _ _ => .pure rfl

theorem TriggerKind.name_of_ofName? {name : String} {kind : TriggerKind} (h : ofName? name = some kind) :
    kind.name = name := by
  simpa using List.find?_some h

theorem fieldForms?_of_name {kind : TriggerKind} {type : String} (hkind : kind.name = type) :
    fieldForms? type = some [("telemetryKey", .optionalText), ("attributeKey", .optionalText)] := by
  rw [← hkind]
  cases kind <;> rfl

theorem NodeKind.settles_trigger? {n : NodeDefinition} {kind : TriggerKind} (hkind : kind.name = n.type) :
    Settles (NodeKind.trigger? kind n) n.firstRefusal fun t => t.kind = kind := by
  rw [firstRefusal, fieldForms?_of_name hkind]
  exact (n.settles_optionalText _).bind fun _ _ => (n.settles_optionalText _).bind fun _ _ => .pure rfl

theorem Node.settles_compile (n : NodeDefinition) :
    Settles (Node.compile n) n.firstRefusal fun node => node.id = n.id ∧ node.kind.typeName = n.type := by
  unfold Node.compile
  split
  · next kind hkind =>
    have hname := TriggerKind.name_of_ofName? hkind
    refine (NodeKind.settles_trigger? hname).map fun t ht => ⟨rfl, ?_⟩
    rw [NodeKind.typeName, ht, hname]
  · next hkind => exact (NodeKind.settles_ofDefinition hkind).map fun _ hk => ⟨rfl, hk⟩

namespace NodeDefinition

/-- Whether two stored nodes are the same as far as they are compiled. -/
structure Alike (n n' : NodeDefinition) : Prop where
  id : n'.id = n.id
  type : n'.type = n.type
  input : n'.inputs.head? = n.inputs.head?
  config : ∀ fields, fieldForms? n.type = some fields →
    ∀ f ∈ fields, Json.Object.get? n'.config f.1 = Json.Object.get? n.config f.1

variable {n n' : NodeDefinition} {field : String}

theorem optionalText_congr (htype : n'.type = n.type)
    (hfield : Json.Object.get? n'.config field = Json.Object.get? n.config field) :
    n'.optionalText field = n.optionalText field := by
  rw [optionalText, optionalText, htype, hfield]

theorem requiredText_congr (htype : n'.type = n.type)
    (hfield : Json.Object.get? n'.config field = Json.Object.get? n.config field) :
    n'.requiredText field = n.requiredText field := by
  rw [requiredText, requiredText, htype, optionalText_congr htype hfield]

theorem requiredArray_congr (htype : n'.type = n.type)
    (hfield : Json.Object.get? n'.config field = Json.Object.get? n.config field) :
    n'.requiredArray field = n.requiredArray field := by
  rw [requiredArray, requiredArray, htype, hfield]

theorem operation_congr (htype : n'.type = n.type)
    (hfield : Json.Object.get? n'.config "operation" = Json.Object.get? n.config "operation") :
    n'.operation = n.operation := by
  rw [operation, operation, requiredText_congr htype hfield]

theorem level_congr (htype : n'.type = n.type)
    (hfield : Json.Object.get? n'.config "level" = Json.Object.get? n.config "level") : n'.level = n.level := by
  rw [level, level, htype, optionalText_congr htype hfield]

theorem valueSource_congr (hinput : n'.inputs.head? = n.inputs.head?)
    (hfield : Json.Object.get? n'.config "value" = Json.Object.get? n.config "value") :
    n'.valueSource = n.valueSource := by
  rw [valueSource, valueSource, hinput, hfield]

theorem Alike.fields (h : n.Alike n') {fields : List (String × FieldForm)}
    (hfields : fieldForms? n.type = some fields) :
    fields.Forall fun f => Json.Object.get? n'.config f.1 = Json.Object.get? n.config f.1 :=
  List.forall_iff_forall_mem.2 (h.config fields hfields)

end NodeDefinition

theorem NodeKind.ofDefinition_congr {n n' : NodeDefinition} (h : n.Alike n') :
    NodeKind.ofDefinition n' = NodeKind.ofDefinition n := by
  unfold NodeKind.ofDefinition
  rw [h.type, h.id]
  split
  case h_4 htype =>
    obtain ⟨hoperation, hoperands⟩ := h.fields (congrArg fieldForms? htype)
    rw [operation_congr h.type hoperation, requiredArray_congr h.type hoperands]
  case h_6 htype | h_7 htype =>
    obtain ⟨htext, hvalue⟩ := h.fields (congrArg fieldForms? htype)
    rw [requiredText_congr h.type htext, valueSource_congr h.input hvalue]
  case h_9 htype =>
    obtain ⟨hcode, hname, hmessage, hseverity⟩ := h.fields (congrArg fieldForms? htype)
    rw [requiredText_congr h.type hcode, requiredText_congr h.type hname, optionalText_congr h.type hmessage,
      optionalText_congr h.type hseverity]
  case h_10 htype =>
    obtain ⟨hmessage, hlevel⟩ := h.fields (congrArg fieldForms? htype)
    rw [optionalText_congr h.type hmessage, level_congr h.type hlevel]
  case h_11 => rfl
  all_goals
    -- Every other type reads one text.
    next htype =>
    have htext := h.fields (congrArg fieldForms? htype)
    rw [requiredText_congr h.type htext]

theorem NodeKind.trigger?_congr {n n' : NodeDefinition} {kind : TriggerKind} (hkind : kind.name = n.type)
    (h : n.Alike n') : NodeKind.trigger? kind n' = NodeKind.trigger? kind n := by
  obtain ⟨htelemetry, hattribute⟩ := h.fields (fieldForms?_of_name hkind)
  rw [trigger?, trigger?, optionalText_congr h.type htelemetry, optionalText_congr h.type hattribute]

theorem Node.compile_congr {n n' : NodeDefinition} (h : n.Alike n') : Node.compile n' = Node.compile n := by
  unfold Node.compile
  rw [h.type, h.id]
  split
  · next kind hkind => rw [NodeKind.trigger?_congr (TriggerKind.name_of_ofName? hkind) h]
  · rw [NodeKind.ofDefinition_congr h]

/-- A stored node is compiled if and only if its type is known and all fields that the type reads have the right form.
Else the error, which is one of the rule itself, is that the type is not known, or that of the first field that has not
the right form.  The compiled node has the id and the type of the stored node, and it depends on no more than the id,
the type, the first input and the fields that the type reads. -/
theorem Node.compile_by_fields (n : NodeDefinition) :
    ((∃ node, Node.compile n = .ok node) ↔ n.Acceptable) ∧
      (∀ e, Node.compile n = .error e ↔ n.Faulty e) ∧
      (∀ e, Node.compile n = .error e → (RunError.invalidNode e).isConfigurationError = true) ∧
      (∀ node, Node.compile n = .ok node → node.id = n.id ∧ node.kind.typeName = n.type) ∧
      ∀ n', n.Alike n' → Node.compile n' = Node.compile n := by
  have hsettles := Node.settles_compile n
  refine ⟨?_, fun e => ?_, fun e _ => rfl, fun node hnode => hsettles.of_ok hnode, fun n' h => Node.compile_congr h⟩
  · rw [hsettles.exists_ok_iff, firstRefusal_eq_none_iff]
  · rw [hsettles.eq_error_iff, firstRefusal_eq_some_iff]

def reckoning (operation : String) (note : Json) (inputs : List String) : NodeDefinition where
  id := "m"
  type := "math"
  position := .origin
  config := [("note", note), ("operands", .array []), ("operation", .string operation)]
  inputs
  outputs := []

/-- A math node that adds is compiled, and the key that it does not read and its second input make no difference; one
with another operation is refused for it. -/
theorem compile_reckonings :
    (∃ node, Node.compile (reckoning "add" .null ["a"]) = .ok node ∧ node.id = "m" ∧ node.kind.typeName = "math") ∧
      Node.compile (reckoning "add" (.bool true) ["a", "b"]) = Node.compile (reckoning "add" .null ["a"]) ∧
      Node.compile (reckoning "power" .null []) = .error (.unknownOperation "power") := by
  have hforms : fieldForms? "math" = some ([] ++ ("operation", .operation) :: [("operands", .array)]) := rfl
  obtain ⟨hok, -, -, hresult, hsame⟩ := Node.compile_by_fields (reckoning "add" .null ["a"])
  have hacceptable : (reckoning "add" .null ["a"]).Acceptable := by
    refine ⟨_, hforms, ?_⟩
    simp only [List.nil_append, List.forall_mem_cons]
    exact ⟨⟨"add", by decide, rfl⟩, ⟨[], rfl⟩, nofun⟩
  have halike : (reckoning "add" .null ["a"]).Alike (reckoning "add" (.bool true) ["a", "b"]) := by
    refine ⟨rfl, rfl, rfl, fun fields hfields => ?_⟩
    obtain rfl := Option.some_inj.1 (hforms.symm.trans hfields)
    simp only [List.nil_append, List.forall_mem_cons]
    exact ⟨rfl, rfl, nofun⟩
  obtain ⟨-, herror, -⟩ := Node.compile_by_fields (reckoning "power" .null [])
  obtain ⟨node, hnode⟩ := hok.2 hacceptable
  exact ⟨⟨node, hnode, hresult node hnode⟩, hsame _ halike, (herror _).2 (.field hforms nofun rfl)⟩

end RuleFlow
