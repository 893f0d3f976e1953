import RuleFlow.Execution.Record
import RuleFlow.Json.Reader
import RuleFlow.Proofs.Json.Decoders
/-! # Execution records are read back

What a record file spells is the record that was written, so long as the text of a value and that of an instant read
back as what was printed, and no result is `null`: a result that is there is not told from none if it is `null`. -/
namespace RuleFlow

theorem ExecutedAction.nodup_members (a : ExecutedAction) : (a.members.map (·.1)).Nodup := by
  simp [members]

theorem ExecutedAction.ofMembers_members (a : ExecutedAction) : Json.ofMembers a.members = .object a.members := by
  have horder : ¬ "output" < "nodeId" := by decide
  simp [members, Json.ofMembers, Json.Object.ofList, Json.Object.insert, horder]

theorem ExecutedAction.decoder_object {depth : Nat} {a : ExecutedAction}
    (h : (Document.ofJson a.output).valueWithin depth = some a.output) :
    decoder (depth + 1) (Document.ofJson (.object a.members)) = some a := by
  rw [decoder, Decoder.record_object _ (by simp [members, Decoder.Named]) (by simp [members])]
  simp [Decoder.fieldsOf, members, Decoder.Given.required, Decoder.string, Decoder.json, Document.ofJson,
    List.lookup_cons, h]

namespace ExecutionRecord

/-- Whether the texts of a record read back as what was printed: that of its file as the value, and those of its
instants. -/
structure ReadsBack (r : ExecutionRecord) : Prop where
  text : Document.parse r.fileText = some (Document.ofJson (.object r.members))
  value : (Document.ofJson (.object r.members)).value? = some r.toJson
  startedAt : Instant.parse r.startedAt.text = some r.startedAt
  completedAt : Instant.parse r.completedAt.text = some r.completedAt

theorem nodup_members (r : ExecutionRecord) : (r.members.map (·.1)).Nodup := by
  unfold members
  cases r.result <;> cases r.error <;> simp [Json.optionalMember]

theorem lookup_result (r : ExecutionRecord) : r.members.lookup "result" = r.result.map fun v => v := by
  unfold members
  cases r.result <;> cases r.error <;> simp [Json.optionalMember, List.lookup_cons]

theorem lookup_error (r : ExecutionRecord) : r.members.lookup "error" = r.error.map .string := by
  unfold members
  cases r.result <;> cases r.error <;> simp [Json.optionalMember, List.lookup_cons]

/-- The record in a file is the one that was written. -/
theorem parse_fileText {r : ExecutionRecord} (h : r.ReadsBack) (hresult : r.result ≠ some .null) :
    (Document.parse r.fileText).bind decoder.run = some r := by
  have hvalue : (Document.ofJson (.object r.members)).valueWithin (126 + 1) = some r.toJson := h.value
  have hmember (key : String) {v : Json} (hm : (key, v) ∈ r.members) :
      (Document.ofJson v).valueWithin 126 = some v := Document.valueWithin_member r.nodup_members hvalue hm
  have hresultGiven : Decoder.Given.optional ⟨126, Decoder.fieldsOf r.members⟩ "result" .json = some r.result :=
    Decoder.Given.optional_fieldsOf r.lookup_result fun v hv =>
      ⟨fun hnull => hresult (hv.trans (congrArg some hnull)),
        hmember "result" (by simp [members, Json.optionalMember, hv])⟩
  have herrorGiven : Decoder.Given.optional ⟨126, Decoder.fieldsOf r.members⟩ "error" .string = some r.error :=
    Decoder.Given.optional_fieldsOf r.lookup_error fun s _ => ⟨nofun, rfl⟩
  have hactions : ("actionsExecuted", Json.array (r.actions.map fun a => .object a.members)) ∈ r.members := by
    simp [members]
  have hactionsGiven : Decoder.Given.withDefault ⟨126, Decoder.fieldsOf r.members⟩ "actionsExecuted" []
      (.list ExecutedAction.decoder) = some r.actions := by
    rw [Decoder.Given.withDefault, Decoder.lookup_fieldsOf, Document.lookup_of_mem r.nodup_members hactions]
    refine Decoder.list_array 125 fun a ha => ExecutedAction.decoder_object ?_
    have hitem := Document.valueWithin_item (hmember "actionsExecuted" hactions) (List.mem_map_of_mem ha)
    have hobject := hitem.trans (congrArg some a.ofMembers_members.symm)
    have houtput : ("output", a.output) ∈ a.members := by simp [ExecutedAction.members]
    exact Document.valueWithin_member a.nodup_members hobject houtput
  have hdata : (Document.ofJson r.triggerData).valueWithin 126 = some r.triggerData :=
    hmember "triggerData" (by simp [members])
  rw [h.text, Option.bind_some]
  unfold Decoder.run decoder
  rw [show Document.maxDepth = 126 + 1 from rfl, Decoder.record_object _ _ r.nodup_members]
  · simp only [hresultGiven, herrorGiven, hactionsGiven, Decoder.Given.required_fieldsOf]
    simp [members, List.lookup_cons, Decoder.string, Decoder.bool, Decoder.json, Decoder.instant,
      Decoder.uint64_ofUInt64, Instant.toJson, Document.ofJson, hdata, h.startedAt, h.completedAt]
  · unfold members
    cases r.result <;> cases r.error <;> simp [Json.optionalMember, Decoder.Named]

end ExecutionRecord

end RuleFlow
