import WireTree.Proofs.Building
import WireTree.Proofs.Checked.Packed

/-!
# Decoding in words

The decoder with every operation checked: fields are read one after the other at offsets of the buffer, references are
followed into the schema, and messages in messages are counted by their depth. In a schema that was built, and with a
buffer of less than 2^63 bytes, no operation fails, and the decoder does what `Message.decodeWindow` does.
-/

namespace WireTree.Checked

/-! ### Reading by a description -/

/-- The enum type that a field refers to. -/
def enumOf (schema : Schema) (field : FieldDescription) : Except Fault (Option EnumType) := do
  match field.typeRef with
  | some (.enum ref) => return some (← resolve schema.enums ref.index)
  | _ => return none

/-- The message type that a field refers to. -/
def messageOf (schema : Schema) (field : FieldDescription) : Except Fault (Option MessageType) := do
  match field.typeRef with
  | some (.message ref) => return some (← resolve schema.messages ref.index)
  | _ => return none

/-- Decodes the bytes of a span as a message of a type, so many levels down. -/
abbrev Enter := MessageType → Span → (depth : Nat) → Except Fault Message

theorem enumOf_eq {schema : Schema} {field : FieldDescription} (h : schema.Resolves field) :
    enumOf schema field = .ok (schema.enumOf? field) := by
  unfold Schema.Resolves at h
  unfold enumOf Schema.enumOf?
  cases href : field.typeRef with
  | none => rfl
  | some typeRef =>
    rw [href] at h
    cases typeRef with
    | message ref => rfl
    | enum ref =>
      have hfound : schema.enum? ref = some schema.enums[ref.index] := List.getElem?_eq_getElem h
      simp only [resolve_of_getElem? hfound, hfound]
      rfl

theorem messageOf_eq {schema : Schema} {field : FieldDescription} (h : schema.Resolves field) :
    messageOf schema field = .ok (schema.messageOf? field) := by
  unfold Schema.Resolves at h
  unfold messageOf Schema.messageOf?
  cases href : field.typeRef with
  | none => rfl
  | some typeRef =>
    rw [href] at h
    cases typeRef with
    | message ref =>
      have hfound : schema.message? ref = some schema.messages[ref.index] := List.getElem?_eq_getElem h
      simp only [resolve_of_getElem? hfound, hfound]
      rfl
    | enum ref => rfl

/-- Reads a record by its description, `depth` levels down. -/
def described (options : Options) (schema : Schema) (data : Bytes) (enter : Enter) (depth : Nat)
    (description : FieldDescription) (record : Record) : Except Fault Reading := do
  let enumType ← enumOf schema description
  let valueSpan := record.valueSpan
  if record.wireType = .lengthDelimited ∧ description.isRepeated ∧
      (description.isPacked ∨ description.type.isPackable) then
    let content ← slice data valueSpan.start valueSpan.stop
    match ← readPacked options enumType description.type valueSpan.start content with
    | .error error => return record.keep description.type error
    | .ok elements =>
      return ⟨description.type, .packed elements, [],
        elements.flatMap fun element => enumNotes enumType element.span element.value⟩
  else if description.type = .message ∧ record.wireType = .lengthDelimited then
    match ← messageOf schema description with
    | none => return record.keep description.type (.unresolvedMessage description.name)
    | some nested =>
      if options.maxDepth ≤ depth then return record.keep description.type (.nestingLimit options.maxDepth)
      else return ⟨description.type, .message (← enter nested valueSpan (← add depth 1)), [], []⟩
  else
    discard (length valueSpan)
    return record.asScalar options enumType description

def undescribed (options : Options) (record : Record) : Except Fault Reading := do
  discard (length record.valueSpan)
  return record.undescribed options

/-- The bytes and the levels can be counted in words, and the references of the schema lead somewhere. -/
structure Fits (options : Options) (schema : Schema) (data : Bytes) : Prop where
  data : data.length < 2 ^ 63
  depth : options.maxDepth < 2 ^ 64
  linked : schema.Linked

/-- `enter` does what `embed` does one level below `depth`, and that is not the last level if there is an `embed`. -/
structure Follows (options : Options) (schema : Schema) (data : Bytes) (enter : Enter) (depth : Nat)
    (embed : Option Embed) : Prop where
  none_iff : embed = none ↔ options.maxDepth ≤ depth
  enter_eq : ∀ next, embed = some next → ∀ type ∈ schema.messages, ∀ span : Span, span.start ≤ span.stop →
    span.stop ≤ data.length → enter type span (depth + 1) = .ok (next type span.start (span.slice data))

/-- The value of the record is in the data, and its content is the bytes of its span. -/
structure Lies (data : Bytes) (record : Record) : Prop where
  wireType : record.payload.wireType = record.wireType
  ordered : record.valueSpan.start ≤ record.valueSpan.stop
  within : record.valueSpan.stop ≤ data.length
  content : ∀ content, record.payload = .bytes content → content = record.valueSpan.slice data

section

variable {options : Options} {schema : Schema} {data : Bytes} {enter : Enter} {depth : Nat} {embed : Option Embed}

theorem described_eq (hfits : Fits options schema data)
    (hfollows : Follows options schema data enter depth embed) {description : FieldDescription}
    (hresolves : schema.Resolves description) {record : Record} (hlies : Lies data record) :
    described options schema data enter depth description record =
      .ok (record.described options schema embed description) := by
  have hlength : (discard (length record.valueSpan) : Except Fault Unit) = .ok () := by
    rw [length_of_le hlies.ordered]
    rfl
  rw [described, enumOf_eq hresolves]
  by_cases hwireType : record.wireType = .lengthDelimited
  · obtain ⟨content, hpayload⟩ : ∃ content, record.payload = .bytes content := by
      have hkind := hlies.wireType
      rw [hwireType] at hkind
      cases hfound : record.payload with
      | bytes content => exact ⟨content, rfl⟩
      | _ => rw [hfound] at hkind; cases hkind
    have hcontent := hlies.content content hpayload
    simp only [ok_bind, hwireType, true_and, and_true, Record.described, hpayload, Bool.and_eq_true, Bool.or_eq_true]
    by_cases hrow : description.isRepeated = true ∧ (description.isPacked = true ∨ description.type.isPackable = true)
    · have hroom : record.valueSpan.start + content.length < 2 ^ 64 := by
        have hordered := hlies.ordered
        have hwithin := hlies.within
        have hdata := hfits.data
        rw [hcontent, length_slice hwithin, Span.length]
        omega
      rw [if_pos hrow, if_pos hrow, slice_of_le hlies.ordered hlies.within, ok_bind, Record.asPacked]
      rw [show Span.slice ⟨record.valueSpan.start, record.valueSpan.stop⟩ data = content from hcontent.symm,
        readPacked_eq options _ _ hroom, ok_bind]
      cases Packed.read options (schema.enumOf? description) description.type record.valueSpan.start content <;> rfl
    · rw [if_neg hrow, if_neg hrow]
      by_cases hmessage : description.type = .message
      · rw [if_pos hmessage, if_pos hmessage, messageOf_eq hresolves, ok_bind]
        unfold Record.asMessage
        cases hnested : schema.messageOf? description with
        | none => rfl
        | some nested =>
          cases hembed : embed with
          | none =>
            have hlast := hfollows.none_iff.1 hembed
            simp only [if_pos hlast]
            rfl
          | some next =>
            have hmore : ¬ options.maxDepth ≤ depth := by
              rw [← hfollows.none_iff, hembed]
              simp
            have henter := hfollows.enter_eq next hembed nested (Schema.mem_of_messageOf? hnested) _ hlies.ordered
              hlies.within
            have hdepth := hfits.depth
            simp only [if_neg hmore, add_of_lt (show depth + 1 < 2 ^ 64 by omega), ok_bind, henter, ← hcontent]
            rfl
      · rw [if_neg hmessage, if_neg hmessage, hlength]
        rfl
  · have hbytes : ∀ content, record.payload ≠ .bytes content := by
      intro content hcontent
      have hkind := hlies.wireType
      rw [hcontent] at hkind
      exact hwireType hkind.symm
    rw [Record.described_eq_asScalar fun content hcontent => absurd hcontent (hbytes content)]
    simp only [ok_bind, hwireType, false_and, and_false, if_false, hlength]
    rfl

theorem undescribed_eq {record : Record} (hlies : Lies data record) :
    undescribed options record = .ok (record.undescribed options) := by
  rw [undescribed, length_of_le hlies.ordered]
  rfl

end

/-! ### Fields -/

def complete (options : Options) (schema : Schema) (data : Bytes) (enter : Enter) (depth : Nat)
    (description : Option FieldDescription) (record : Record) : Except Fault Field := do
  match description with
  | some description =>
    return record.field (some description.name) (← described options schema data enter depth description record)
  | none => return record.field none (← undescribed options record)

/-- What reading a field comes to. -/
inductive Step where
  /-- The field was read, and the next one is behind it. -/
  | field (field : Field)
  /-- The value of the field cannot be read. -/
  | halt (field : Field)
  /-- There is no tag. -/
  | garbage (diagnostic : Diagnostic)

/-- What reading a record comes to, if it is then decoded. -/
def Step.ofRead (options : Options) (schema : Schema) (embed : Option Embed) (type : Option MessageType) :
    Except Stop Record → Step
  | .ok record => .field (record.decode options schema embed type)
  | .error (.garbage span _ error) => .garbage ⟨span, error⟩
  | .error (.incomplete number wireType span content error) =>
    .halt ⟨number, wireType, span, (describe type number).map (·.name),
      ((describe type number).map (·.type)).getD .none, .incomplete content, [], [⟨span, error⟩]⟩

/-- Reads the field at `offset`, which has to end before `stop`. -/
def field (options : Options) (schema : Schema) (data : Bytes) (enter : Enter) (depth : Nat)
    (type : Option MessageType) (stop offset : Nat) : Except Fault Step := do
  match ← readTag data offset (← sub stop offset) with
  | .error error => return .garbage ⟨← span offset stop, error⟩
  | .ok tag =>
    match WireType.ofRaw? tag.wireType with
    | none => return .garbage ⟨← span offset stop, .unsupportedWireType tag.wireType⟩
    | some wireType =>
      let description := describe type tag.number
      let valueOffset ← add offset tag.length
      discard (span offset valueOffset)
      match ← readPayload data valueOffset stop wireType with
      | .error error =>
        let rest ← span offset stop
        return .halt ⟨tag.number, wireType, rest, description.map (·.name), (description.map (·.type)).getD .none,
          .incomplete (← slice data valueOffset stop), [], [⟨rest, error⟩]⟩
      | .ok located =>
        let record : Record :=
          ⟨tag.number, wireType, ← span offset located.span.stop, located.payload, located.span⟩
        return .field (← complete options schema data enter depth description record)

/-- The fields from `offset` to `stop`, what is left behind them, and what is wrong with it. -/
def fields (options : Options) (schema : Schema) (data : Bytes) (enter : Enter) (depth : Nat)
    (type : Option MessageType) (stop offset : Nat) : Except Fault (List Field × Option Bytes × List Diagnostic) := do
  if _ : offset < stop then
    match ← field options schema data enter depth type stop offset with
    | .field found =>
      if _ : offset < found.span.stop then
        let rest ← fields options schema data enter depth type stop found.span.stop
        return (found :: rest.1, rest.2)
      else .error .stalled
    | .halt found => return ([found], none, [])
    | .garbage diagnostic => return ([], some (← slice data offset stop), [diagnostic])
  else return ([], none, [])
termination_by stop - offset

section

variable {options : Options} {schema : Schema} {data : Bytes} {enter : Enter} {depth : Nat} {embed : Option Embed}
  {type : Option MessageType} (hfits : Fits options schema data)
  (hfollows : Follows options schema data enter depth embed)
  (htype : ∀ known, type = some known → known ∈ schema.messages)

include hfits hfollows htype

theorem complete_eq {record : Record} (hlies : Lies data record) :
    complete options schema data enter depth (describe type record.number) record =
      .ok (record.decode options schema embed type) := by
  unfold complete Record.decode
  cases hdescribed : describe type record.number with
  | none =>
    simp only [undescribed_eq hlies]
    rfl
  | some description =>
    obtain ⟨known, hknown, hfield⟩ := Option.bind_eq_some_iff.1 hdescribed
    have hresolves := hfits.linked.resolves_of_field? (htype known hknown) hfield
    simp only [described_eq hfits hfollows hresolves hlies]
    rfl

theorem field_eq {stop offset : Nat} (hordered : offset ≤ stop) (hwithin : stop ≤ data.length) :
    field options schema data enter depth type stop offset =
      .ok (.ofRead options schema embed type (Record.read offset (Span.slice ⟨offset, stop⟩ data))) := by
  have hdata := hfits.data
  have hrest : Span.ofLength offset (Span.slice ⟨offset, stop⟩ data).length = ⟨offset, stop⟩ :=
    ofLength_slice ⟨offset, stop⟩ hordered hwithin
  have htag : Tag.readAt data offset (stop - offset) = Tag.read offset (Span.slice ⟨offset, stop⟩ data) := by
    rw [Tag.readAt, Span.slice, List.drop_take]
  rw [field, sub_of_le hordered, ok_bind, readTag_eq hdata, ok_bind, htag, Record.read]
  simp only [hrest]
  cases hfound : Tag.read offset (Span.slice ⟨offset, stop⟩ data) with
  | error error =>
    simp only [span_of_le hordered]
    rfl
  | ok tag =>
    cases hkind : WireType.ofRaw? tag.wireType with
    | none =>
      simp only [hkind, span_of_le hordered]
      rfl
    | some wireType =>
      have hvalue : offset + tag.length ≤ stop := by
        have hshort := (Tag.length_of_read hfound).2.2
        rw [length_slice hwithin, Span.length] at hshort
        simp only at hshort
        omega
      have hvalues := readPayload_eq hdata hvalue hwithin wireType
      simp only [hkind, add_of_lt (show offset + tag.length < 2 ^ 64 by omega), ok_bind,
        span_of_le (Nat.le_add_right offset tag.length), hvalues]
      rw [drop_slice, show Payload.read wireType (offset + tag.length) (Span.slice ⟨offset + tag.length, stop⟩ data) =
        Payload.readAt data (offset + tag.length) stop wireType from rfl]
      cases hread : Payload.readAt data (offset + tag.length) stop wireType with
      | error error =>
        simp only [span_of_le hordered, slice_of_le hvalue hwithin]
        rfl
      | ok located =>
        obtain ⟨hstart, hspan, hbehindTag, hend⟩ := Payload.span_of_read hread
        rw [List.length_drop, List.length_take] at hend
        have hlies : Lies data ⟨tag.number, wireType, ⟨offset, located.span.stop⟩, located.payload, located.span⟩ :=
          ⟨wireType_of_read hread, hspan, show located.span.stop ≤ data.length by omega,
            fun content => content_of_readAt hread⟩
        have hcomplete := complete_eq hfits hfollows htype hlies
        simp only [span_of_le (show offset ≤ located.span.stop by omega), ok_bind, hcomplete]
        rfl

theorem fields_eq {stop offset : Nat} (hordered : offset ≤ stop) (hwithin : stop ≤ data.length) :
    fields options schema data enter depth type stop offset =
      let framing := Framing.ofWindow offset (Span.slice ⟨offset, stop⟩ data)
      .ok (framing.records.map (Record.decode options schema embed type) ++
          (framing.stop.bind (Stop.field? type)).toList,
        framing.stop.bind Stop.garbage?, (framing.stop.map Stop.diagnostics).getD []) := by
  induction hlength : stop - offset using Nat.strongRecOn generalizing offset with
  | ind length ih =>
    rw [fields]
    by_cases hmore : offset < stop
    · have hnonempty : Span.slice ⟨offset, stop⟩ data ≠ [] := by
        apply List.ne_nil_of_length_pos
        rw [length_slice hwithin]
        exact Nat.sub_pos_of_lt hmore
      rw [dif_pos hmore, field_eq hfits hfollows htype hordered hwithin, ok_bind]
      cases hread : Record.read offset (Span.slice ⟨offset, stop⟩ data) with
      | error cause =>
        rw [Framing.ofWindow_of_read_error hnonempty hread]
        cases cause with
        | garbage span content error =>
          obtain rfl : content = Span.slice ⟨offset, stop⟩ data := by
            cases Record.explains_of_read hread <;> rfl
          simp only [Step.ofRead, slice_of_le hordered hwithin]
          rfl
        | incomplete number wireType span content error => rfl
      | ok record =>
        rw [Framing.ofWindow_of_read_ok hread]
        obtain ⟨hstart, hbehind, hend⟩ := Record.span_of_read hread
        have hstop : record.span.stop ≤ stop := by
          rw [length_slice hwithin, Span.length] at hend
          simp only at hend
          omega
        have hrest : (Span.slice ⟨offset, stop⟩ data).drop record.span.length =
            Span.slice ⟨record.span.stop, stop⟩ data := by
          rw [drop_slice, Span.length, hstart, Nat.add_sub_cancel' (Nat.le_of_lt hbehind)]
        have hfields := ih _ (show stop - record.span.stop < length by omega) hstop rfl
        simp only [Step.ofRead, Record.span_decode, dif_pos hbehind, hfields, hrest]
        rfl
    · have hempty : Span.slice ⟨offset, stop⟩ data = [] := by
        apply List.eq_nil_of_length_eq_zero
        rw [length_slice hwithin]
        exact Nat.sub_eq_zero_of_le (Nat.le_of_not_lt hmore)
      rw [dif_neg hmore, hempty, Framing.ofWindow_nil]
      rfl

end

/-! ### Messages -/

/-- Decodes the bytes of a span, `depth` levels down. -/
def messageWith (options : Options) (schema : Schema) (data : Bytes) (enter : Enter) (type : Option MessageType)
    (span : Span) (depth : Nat) : Except Fault Message := do
  let rest ← fields options schema data enter depth type span.stop span.start
  return ⟨(type.map (·.fullName)).getD Message.unknownName, span, rest.1, rest.2.1, rest.2.2⟩

theorem messageWith_eq {options : Options} {schema : Schema} {data : Bytes} {enter : Enter} {depth : Nat}
    {embed : Option Embed} {type : Option MessageType} (hfits : Fits options schema data)
    (hfollows : Follows options schema data enter depth embed)
    (htype : ∀ known, type = some known → known ∈ schema.messages) {span : Span} (hordered : span.start ≤ span.stop)
    (hwithin : span.stop ≤ data.length) :
    messageWith options schema data enter type span depth =
      .ok (Message.ofWindow options schema embed type span.start (span.slice data)) := by
  rw [messageWith, fields_eq hfits hfollows htype hordered hwithin, Message.ofWindow, ofLength_slice span hordered hwithin]
  rfl

/-- Decodes the bytes of a span, `depth` levels down and with `budget` levels to go. -/
def message (options : Options) (schema : Schema) (data : Bytes) :
    (budget : Nat) → Option MessageType → Span → (depth : Nat) → Except Fault Message
  | 0 => messageWith options schema data fun _ _ _ => .error .stalled
  | budget + 1 => messageWith options schema data fun type => message options schema data budget (some type)

/-- The budget is what is left of the levels, so it runs out just where no further level is entered. -/
theorem message_eq {options : Options} {schema : Schema} {data : Bytes} {budget depth : Nat}
    {type : Option MessageType} (hfits : Fits options schema data)
    (htype : ∀ known, type = some known → known ∈ schema.messages)
    (hbudget : depth + budget = options.maxDepth) (span : Span) (hordered : span.start ≤ span.stop)
    (hwithin : span.stop ≤ data.length) :
    message options schema data budget type span depth =
      .ok (Message.ofBudget options schema budget type span.start (span.slice data)) := by
  induction budget generalizing depth type span with
  | zero =>
    refine messageWith_eq hfits ⟨?_, ?_⟩ htype hordered hwithin
    · exact iff_of_true rfl (by omega)
    · rintro next ⟨⟩
  | succ budget ih =>
    refine messageWith_eq hfits ⟨?_, ?_⟩ htype hordered hwithin
    · exact iff_of_false (by simp) (by omega)
    · rintro next ⟨⟩ nested hnested inner hordered hwithin
      refine ih ?_ (by omega) inner hordered hwithin
      rintro known ⟨⟩
      exact hnested

/-! ### Windows -/

def decodeWindow (options : Options) (schema : Schema) (type : Option MessageType) (data : Bytes)
    (offset length : Nat) : Except Fault Message := do
  let start := min offset data.length
  let requested := saturatingAdd offset length
  let window ← span start (min requested data.length)
  let message ← message options schema data options.maxDepth type window 0
  if data.length < requested then
    let missing : Diagnostic := ⟨window, .truncated start length (← Checked.length window)⟩
    return { message with diagnostics := missing :: message.diagnostics }
  else return message

def decode (options : Options) (schema : Schema) (type : Option MessageType) (data : Bytes) : Except Fault Message :=
  decodeWindow options schema type data 0 data.length

def decodeSchemaless (options : Options) (data : Bytes) : Except Fault Message := decode options {} none data

/-- Decodes all of the data as the message type of a name, found through its reference. -/
def decodeNamed (options : Options) (schema : Schema) (name : String) (data : Bytes) : Except Fault Message := do
  match schema.typeNamed? name with
  | some (.message ref) => decode options schema (some (← resolve schema.messages ref.index)) data
  | _ =>
    let message ← decodeSchemaless options data
    return { message with diagnostics := ⟨message.span, .unresolvedMessage name⟩ :: message.diagnostics }

section

variable {options : Options} {schema : Schema} {data : Bytes} (hfits : Fits options schema data)

include hfits

theorem decodeWindow_eq {type : Option MessageType} (htype : ∀ known, type = some known → known ∈ schema.messages)
    (offset length : Nat) :
    decodeWindow options schema type data offset length =
      .ok (Message.decodeWindow options schema type data offset length) := by
  have hdata := hfits.data
  have hordered : min offset data.length ≤ min (saturatingAdd offset length) data.length := by
    unfold saturatingAdd
    omega
  have hwindow : Span.slice ⟨min offset data.length, min (saturatingAdd offset length) data.length⟩ data =
      (data.drop (min offset data.length)).take length := by
    rw [Span.slice, List.drop_take, List.take_eq_take_iff, List.length_drop, saturatingAdd]
    simp only
    omega
  have hspan := ofLength_slice ⟨min offset data.length, min (saturatingAdd offset length) data.length⟩ hordered
    (Nat.min_le_right _ _)
  have hmessage := message_eq hfits htype (Nat.zero_add _)
    ⟨min offset data.length, min (saturatingAdd offset length) data.length⟩ hordered (Nat.min_le_right _ _)
  rw [hwindow] at hspan hmessage
  rw [decodeWindow, span_of_le hordered, ok_bind, hmessage, ok_bind, Message.decodeWindow]
  by_cases hinside : offset + length ≤ data.length
  · have hrequested : ¬ data.length < saturatingAdd offset length := by
      unfold saturatingAdd
      omega
    rw [if_neg hrequested, if_pos hinside]
    rfl
  · have hrequested : data.length < saturatingAdd offset length := by
      unfold saturatingAdd
      omega
    rw [if_pos hrequested, if_neg hinside, length_of_le hordered, ok_bind, Message.span_ofBudget, ← hspan,
      Span.length_ofLength]
    rfl

theorem decodeSchemaless_eq : decodeSchemaless options data = .ok (Message.decodeSchemaless options data) :=
  decodeWindow_eq ⟨hfits.data, hfits.depth, Schema.linked_build []⟩ (by simp) 0 data.length

theorem decodeNamed_eq (name : String) :
    decodeNamed options schema name data = .ok (Message.decodeNamed options schema name data) := by
  rw [decodeNamed, Schema.typeNamed?, Message.decodeNamed]
  cases hnamed : schema.messageNamed? name with
  | none =>
    have hschemaless := decodeSchemaless_eq hfits
    cases henum : schema.enumNamed? name <;> simp only [Option.map, hschemaless] <;> rfl
  | some known =>
    have hmember : known ∈ schema.messages := List.mem_of_find?_eq_some hnamed
    have hdecode : decode options schema (some known) data = .ok (Message.decode options schema (some known) data) :=
      decodeWindow_eq hfits (by rintro _ ⟨⟩; exact hmember) 0 data.length
    simp only [resolve_of_getElem? (hfits.linked.message?_ref hmember), ok_bind, hdecode]

end

/-- In a schema that was built, no operation of the decoder fails: it decodes every window of the data, as every type of the
schema or as none, by every name, and does what the decoder without checks does. -/
theorem decoders_eq (steps : List BuildStep) (options : Options) (data : Bytes) (hdata : data.length < 2 ^ 63)
    (hdepth : options.maxDepth < 2 ^ 64) :
    let schema := Schema.build steps
    (∀ type, (∀ known, type = some known → known ∈ schema.messages) →
      (∀ offset length, decodeWindow options schema type data offset length =
        .ok (Message.decodeWindow options schema type data offset length)) ∧
      decode options schema type data = .ok (Message.decode options schema type data)) ∧
    decodeSchemaless options data = .ok (Message.decodeSchemaless options data) ∧
    ∀ name, decodeNamed options schema name data = .ok (Message.decodeNamed options schema name data) := by
  intro schema
  have hfits : Fits options schema data := ⟨hdata, hdepth, Schema.linked_build steps⟩
  refine ⟨fun type htype => ⟨decodeWindow_eq hfits htype, ?_⟩, decodeSchemaless_eq hfits, decodeNamed_eq hfits⟩
  exact decodeWindow_eq hfits htype 0 data.length

/-- A message in itself, with an enum in it, as deep as a word can say, and a window that ends far behind the data. Of the
steps, one refers to an enum type that is not there and is refused. -/
theorem decoders_eq_nested :
    let kind : FieldDescription := ⟨"kind", 1, .enum, .single, some (.enum ⟨0⟩)⟩
    let child : FieldDescription := ⟨"child", 2, .message, .single, some (.message ⟨0⟩)⟩
    let schema := Schema.build
      [.insertMessage "M", .addField ⟨0⟩ kind, .insertEnum "E", .addField ⟨0⟩ kind, .addField ⟨0⟩ child]
    let type : MessageType := ⟨"M", ⟨0⟩, [(1, kind), (2, child)]⟩
    let options : Options := { maxDepth := 2 ^ 64 - 1 }
    let data : Bytes := [8, 1, 18, 2, 8, 2]
    schema.messages = [type] ∧ decodeWindow options schema (some type) data 2 (2 ^ 64 - 1) =
      .ok (Message.decodeWindow options schema (some type) data 2 (2 ^ 64 - 1)) := by
  intro kind child schema type options data
  have hmessages : schema.messages = [type] := by decide
  have htype : ∀ known, some type = some known → known ∈ schema.messages := by
    rintro known ⟨⟩
    rw [hmessages]
    exact List.mem_singleton.2 rfl
  exact ⟨hmessages, ((decoders_eq _ options data (by decide) (by decide)).1 (some type) htype).1 2 (2 ^ 64 - 1)⟩

/-- A reference that leads nowhere does fail. -/
example : decode {} { messages := [⟨"M", ⟨0⟩, [(1, ⟨"kind", 1, .enum, .single, some (.enum ⟨0⟩)⟩)]⟩] }
    (some ⟨"M", ⟨0⟩, [(1, ⟨"kind", 1, .enum, .single, some (.enum ⟨0⟩)⟩)]⟩) [8, 1] = .error .reference := by
  with_unfolding_all rfl

end WireTree.Checked
