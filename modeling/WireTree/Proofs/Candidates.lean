import WireTree.Proofs.Outline
import WireTree.Proofs.Truncation
import WireTree.Proofs.TypeSoundness

/-!
# Listing every type of a value

Where every type is listed that a value without a description could have, each entry tells what a description by that type
would give: the value, if it would be read without a complaint, or the complaint with which it would be kept. Both ways read
the payload as the same scalar; the entry for a message alone is worded otherwise, since only a description has a name.
-/

namespace WireTree

/-- Whether the description is one of a single value of the type, and refers to no other type. -/
structure FieldDescription.Bare (description : FieldDescription) (type : FieldType) : Prop where
  type : description.type = type
  single : description.multiplicity = .single
  noTypeRef : description.typeRef = none

namespace Candidate

/-- The error that the candidate stands for, where its type is described under `name`. -/
inductive FailsAs (candidate : Candidate) (name : String) : DecodeError → Prop
  | same (error : DecodeError) (htype : candidate.type ≠ .message) (hreading : candidate.reading = .error error) :
    FailsAs candidate name error
  /-- A message whose type is not known goes by the name of its description. -/
  | message (unknown : String) (htype : candidate.type = .message)
      (hreading : candidate.reading = .error (.unresolvedMessage unknown)) :
    FailsAs candidate name (.unresolvedMessage name)

/-- The candidate tells what a field is that is described by its type, under `name`: it is a value just when the field
has that value and nothing is wrong with it, and an error just when the field keeps the payload for that reason. -/
structure Agrees (candidate : Candidate) (payload : Payload) (name : String) (typed : Field) : Prop where
  ok : ∀ value, candidate.reading = .ok value ↔ typed.value = .scalar value ∧ typed.diagnostics = []
  error : ∀ error, candidate.FailsAs name error ↔
    typed.value = .scalar (.raw payload) ∧ ∃ span, typed.diagnostics = [⟨span, error⟩]

end Candidate

/-! ### Records -/

namespace Record

variable {options : Options} {description : FieldDescription} {type : FieldType}

theorem described_bare_message (hbare : description.Bare .message) (schema : Schema) (embed : Option Embed)
    {record : Record} {content : Bytes} (hpayload : record.payload = .bytes content) :
    record.described options schema embed description =
      record.keep .message (.unresolvedMessage description.name) := by
  have hpacked : description.isPacked = false := by
    rw [FieldDescription.isPacked, hbare.single]
    rfl
  have hnested : schema.messageOf? description = none := by rw [Schema.messageOf?, hbare.noTypeRef]
  rw [described_eq_asMessage hpayload hbare.type hpacked, hnested, asMessage, hbare.type]

theorem described_bare_scalar (hbare : description.Bare type) (schema : Schema) (embed : Option Embed)
    {record : Record} (hother : ∀ content, record.payload = .bytes content → type ≠ .message) :
    record.described options schema embed description = record.asScalar options none description := by
  have hrepeated : description.isRepeated = false := by
    rw [FieldDescription.isRepeated, hbare.single]
    rfl
  have henum : schema.enumOf? description = none := by rw [Schema.enumOf?, hbare.noTypeRef]
  unfold described
  split
  · rename_i content hpayload
    have htype : description.type ≠ .message := hbare.type ▸ hother content hpayload
    simp only [hrepeated, henum, Bool.false_and, Bool.false_eq_true, if_false, if_neg htype]
  · rw [henum]

theorem agrees_asScalar (htype : type ≠ .message) (hbare : description.Bare type) (record : Record) :
    Candidate.Agrees ⟨type, Scalar.read options none type record.valueSpan.length record.payload⟩ record.payload
      description.name (record.field (some description.name) (record.asScalar options none description)) := by
  rw [asScalar, hbare.type]
  cases hread : Scalar.read options none type record.valueSpan.length record.payload with
  | ok value =>
    refine ⟨fun other => ⟨?_, ?_⟩, fun error => ⟨?_, ?_⟩⟩
    · rintro ⟨⟩
      exact ⟨rfl, rfl⟩
    · rintro ⟨⟨⟩, -⟩
      rfl
    · intro hfails
      cases hfails with
      | same _ _ hreading => cases hreading
      | message _ hmessage => exact absurd hmessage htype
    · rintro ⟨-, span, ⟨⟩⟩
  | error error =>
    refine ⟨fun value => ⟨?_, ?_⟩, fun other => ⟨?_, ?_⟩⟩
    · rintro ⟨⟩
    · rintro ⟨-, ⟨⟩⟩
    · intro hfails
      cases hfails with
      | same _ _ hreading =>
        cases hreading
        exact ⟨rfl, _, rfl⟩
      | message _ hmessage => exact absurd hmessage htype
    · rintro ⟨-, span, ⟨⟩⟩
      exact .same _ htype rfl

theorem agrees_keep (options : Options) (name : String) {record : Record} {content : Bytes}
    (hpayload : record.payload = .bytes content) :
    Candidate.Agrees ⟨.message, Scalar.read options none .message record.valueSpan.length record.payload⟩ record.payload
      name (record.field (some name) (record.keep .message (.unresolvedMessage name))) := by
  have hread : Scalar.read options none .message record.valueSpan.length record.payload =
      .error (.unresolvedMessage "<unknown>") := by
    rw [hpayload]
    rfl
  rw [hread]
  refine ⟨fun value => ⟨?_, ?_⟩, fun error => ⟨?_, ?_⟩⟩
  · rintro ⟨⟩
  · rintro ⟨-, ⟨⟩⟩
  · intro hfails
    cases hfails with
    | same _ hother => exact absurd rfl hother
    | message => exact ⟨rfl, _, rfl⟩
  · rintro ⟨-, span, ⟨⟩⟩
    exact .message _ rfl rfl

theorem bytes_of_message_mem_candidates {payload : Payload} (h : .message ∈ payload.wireType.candidates) :
    ∃ content, payload = .bytes content := by
  cases payload with
  | bytes content => exact ⟨content, rfl⟩
  | _ => simp [Payload.wireType, WireType.candidates] at h

theorem agrees_described {record : Record} (hcandidate : type ∈ record.payload.wireType.candidates)
    (hbare : description.Bare type) (schema : Schema) (embed : Option Embed) :
    Candidate.Agrees ⟨type, Scalar.read options none type record.valueSpan.length record.payload⟩ record.payload
      description.name (record.field (some description.name) (record.described options schema embed description)) := by
  by_cases htype : type = .message
  · subst htype
    obtain ⟨content, hpayload⟩ := bytes_of_message_mem_candidates hcandidate
    rw [described_bare_message hbare schema embed hpayload]
    exact agrees_keep options description.name hpayload
  · rw [described_bare_scalar hbare schema embed fun _ _ => htype]
    exact agrees_asScalar htype hbare record

end Record

namespace Message

variable {options : Options} {schema : Schema} {embed : Option Embed} {type : Option MessageType} {start : Nat}
  {window : Bytes}

theorem exists_record_of_getElem? {index : Nat} {field : Field}
    (hfield : (ofWindow options schema embed type start window).fields[index]? = some field)
    (hcomplete : field.isIncomplete = false) :
    ∃ record ∈ (Framing.ofWindow start window).records, field = record.decode options schema embed type ∧
      ∀ schema' embed' type', (ofWindow options schema' embed' type' start window).fields[index]? =
        some (record.decode options schema' embed' type') := by
  rw [fields_ofWindow, List.getElem?_append, List.length_map] at hfield
  by_cases hindex : index < (Framing.ofWindow start window).records.length
  · rw [if_pos hindex, List.getElem?_map, Option.map_eq_some_iff] at hfield
    obtain ⟨record, hrecord, rfl⟩ := hfield
    refine ⟨record, List.mem_of_getElem? hrecord, rfl, fun schema' embed' type' => ?_⟩
    rw [fields_ofWindow, List.getElem?_append, List.length_map, if_pos hindex, List.getElem?_map, hrecord,
      Option.map_some]
  · rw [if_neg hindex] at hfield
    obtain ⟨stop, -, hlast⟩ := Option.bind_eq_some_iff.1 (Option.mem_toList.1 (List.mem_of_getElem? hfield))
    rw [Stop.isIncomplete_of_field? hlast] at hcomplete
    cases hcomplete

/-- Where every type is listed, each field without a description keeps its payload as it came, and lists just the types
that its wire type allows. Each entry tells what the field at the same place is where its number is described by that type
alone. -/
theorem candidates_decodeWindow {options : Options} (hall : options.allCandidates = true) (data : Bytes)
    (offset length : Nat) {index : Nat} {field : Field}
    (hfield : (decodeWindow options {} none data offset length).fields[index]? = some field)
    (hcomplete : field.isIncomplete = false) :
    ∃ located, field.OnWire data (.ok located) ∧ field.value = .scalar (.raw located.payload) ∧ field.type = .none ∧
      field.diagnostics = [] ∧ field.candidates.map (·.type) = field.wireType.candidates ∧
      ∀ candidate ∈ field.candidates, ∀ (schema : Schema) (type : MessageType) (description : FieldDescription),
        type.field? field.number = some description → description.Bare candidate.type →
          ∃ typed, (decodeWindow options schema (some type) data offset length).fields[index]? = some typed ∧
            typed.span = field.span ∧ candidate.Agrees located.payload description.name typed := by
  obtain ⟨front, window, back, hdata, hfront, -, hwindow⟩ := exists_window data offset length
  rw [fields_decodeWindow options {} none hfront hwindow] at hfield
  obtain ⟨record, hrecord, rfl, hplace⟩ := exists_record_of_getElem? hfield hcomplete
  obtain ⟨before, item, behind, rfl, rfl⟩ := Framing.exists_item_of_mem_records hrecord
  have hundescribed : (item.record (front.length + before.length)).undescribed options =
      ⟨.none, .scalar (.raw item.body.payload),
        item.body.payload.candidates options (item.record (front.length + before.length)).valueSpan.length, []⟩ :=
    if_pos hall
  have honWire := Field.onWire_item options {} (entering options {} options.maxDepth) none (front ++ before) item
    (behind ++ back)
  have hbytes : front ++ before ++ (item.bytes ++ (behind ++ back)) = data := by simp [hdata]
  rw [List.length_append, hbytes] at honWire
  rw [Record.decode_undescribed rfl, hundescribed] at honWire ⊢
  refine ⟨_, honWire, rfl, rfl, rfl, ?_, fun candidate hcandidate schema type description hdescribed hbare => ?_⟩
  · show (List.map _ (List.map _ _)) = item.body.wireType.candidates
    rw [List.map_map, ItemBody.wireType_payload]
    exact List.map_id _
  · obtain ⟨candidateType, hmem, rfl⟩ := List.mem_map.1 hcandidate
    refine ⟨_, ?_, ?_, Record.agrees_described hmem hbare schema (entering options schema options.maxDepth)⟩
    · rw [fields_decodeWindow options schema (some type) hfront hwindow, hplace, Record.decode]
      have hnumber : describe (some type) (item.record (front.length + before.length)).number = some description :=
        hdescribed
      rw [hnumber]
    · rfl

theorem candidates_decodeWindow_refused :
    let options : Options := { allCandidates := true }
    let flag : FieldDescription := ⟨"flag", 1, .bool, .single, none⟩
    let child : FieldDescription := ⟨"child", 2, .message, .single, none⟩
    let schema := Schema.build [.insertMessage "M", .addField ⟨0⟩ flag, .addField ⟨0⟩ child]
    let type : MessageType := ⟨"M", ⟨0⟩, [(1, flag), (2, child)]⟩
    let data : Bytes := [8, 129, 0, 18, 1, 97]
    let number : Field := ⟨1, .varint, ⟨0, 3⟩, none, .none, .scalar (.raw (.varint 1)),
      Payload.candidates options 2 (.varint 1), []⟩
    let content : Field := ⟨2, .lengthDelimited, ⟨3, 6⟩, none, .none, .scalar (.raw (.bytes [97])),
      Payload.candidates options 1 (.bytes [97]), []⟩
    schema.messages = [type] ∧ (decodeSchemaless options data).fields = [number, content] ∧
      (∃ typed, (decode options schema (some type) data).fields[0]? = some typed ∧ typed.span = number.span ∧
        Candidate.Agrees ⟨.bool, .error (.boolLength 2)⟩ (.varint 1) "flag" typed) ∧
      ∃ typed, (decode options schema (some type) data).fields[1]? = some typed ∧ typed.span = content.span ∧
        Candidate.Agrees ⟨.message, .error (.unresolvedMessage "<unknown>")⟩ (.bytes [97]) "child" typed := by
  intro options flag child schema type data number content
  have hfields : (decodeSchemaless options data).fields = [number, content] := by with_unfolding_all rfl
  have hnumber : (decodeSchemaless options data).fields[0]? = some number := by rw [hfields]; rfl
  have hcontent : (decodeSchemaless options data).fields[1]? = some content := by rw [hfields]; rfl
  refine ⟨by decide, hfields, ?_, ?_⟩
  · obtain ⟨located, -, hvalue, -, -, -, hagrees⟩ :=
      candidates_decodeWindow (show options.allCandidates = true from rfl) data 0 data.length hnumber rfl
    cases located
    cases hvalue
    exact hagrees ⟨.bool, .error (.boolLength 2)⟩ (List.mem_iff_getElem?.2 ⟨6, rfl⟩) schema type flag rfl
      ⟨rfl, rfl, rfl⟩
  · obtain ⟨located, -, hvalue, -, -, -, hagrees⟩ :=
      candidates_decodeWindow (show options.allCandidates = true from rfl) data 0 data.length hcontent rfl
    cases located
    cases hvalue
    exact hagrees ⟨.message, .error (.unresolvedMessage "<unknown>")⟩ (List.mem_iff_getElem?.2 ⟨2, rfl⟩) schema type child
      rfl ⟨rfl, rfl, rfl⟩

end Message

end WireTree
