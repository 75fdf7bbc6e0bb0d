import WireTree.Proofs.RoundTrip
import WireTree.Proofs.Tiling

/-!
# What a described field can hold

A field that a message type describes holds a value of the declared type, a row of such values, the payload as it came, or
nothing but the bytes that are left. Its diagnostics tell the four apart: notes on enum numbers without a name, one reason
why the payload was kept, or one reason why there is no payload. So nothing is shown in place of a value without a word.
The proof takes one record at a time, and a record apart by its payload and its description.
-/

namespace WireTree

/-! ### Values of a type -/

/-- The type that the values of a field type have: bytes may be shown as text. -/
def FieldType.shown (options : Options) (type : FieldType) : FieldType :=
  match type with
  | .bytes => if options.bytesAsString then .string else .bytes
  | _ => type

namespace Value

/-- Whether the value is one of the type. -/
def HasType (options : Options) (type : FieldType) : Value → Prop
  | .scalar value => value.type = type.shown options
  | .message _ => type = .message
  | .packed _ | .incomplete _ => False

/-- The notes on the enum numbers of a value that takes the bytes of `span`. -/
def notes (enumType : Option EnumType) (span : Span) : Value → List Diagnostic
  | .scalar value => value.notes enumType span
  | .packed elements => elements.flatMap fun element => element.value.notes enumType element.span
  | .message _ | .incomplete _ => []

end Value

/-! ### Verdicts -/

/-- Whether a value of the wire type is taken for a row of elements. -/
def FieldDescription.TakesRow (description : FieldDescription) (wireType : WireType) : Prop :=
  wireType = .lengthDelimited ∧ description.isRepeated = true ∧
    (description.isPacked = true ∨ description.type.isPackable = true)

/-- Why a payload of `length` bytes was kept as it came, `level` levels down. -/
inductive Kept (options : Options) (schema : Schema) (description : FieldDescription) (level : Nat)
    (wireType : WireType) (length : Nat) : DecodeError → Prop
  /-- Only numbers stand in rows. -/
  | notPackable (hrow : description.TakesRow wireType) (hpackable : description.type.isPackable = false) :
    Kept options schema description level wireType length (.notPackable description.type)
  /-- The content is no row of elements of the type. -/
  | noRow (hrow : description.TakesRow wireType) (hpackable : description.type.isPackable = true)
      (fault : PackedFault) :
    Kept options schema description level wireType length (.packed description.type fault)
  /-- The message type is not known. -/
  | unknownMessage (hrow : ¬ description.TakesRow wireType) (hwireType : wireType = .lengthDelimited)
      (htype : description.type = .message) (hnested : schema.messageOf? description = none) :
    Kept options schema description level wireType length (.unresolvedMessage description.name)
  /-- No further level may be entered. -/
  | tooDeep (hrow : ¬ description.TakesRow wireType) (hwireType : wireType = .lengthDelimited)
      (htype : description.type = .message) (nested : MessageType)
      (hnested : schema.messageOf? description = some nested) (hlevel : level = options.maxDepth) :
    Kept options schema description level wireType length (.nestingLimit options.maxDepth)
  /-- Groups are not read. -/
  | group (hrow : ¬ description.TakesRow wireType) (htype : description.type = .group) :
    Kept options schema description level wireType length (.unsupportedWireType WireType.startGroup.raw)
  /-- The type is written with another wire type. -/
  | otherWireType (hrow : ¬ description.TakesRow wireType) (htype : description.type ≠ .group)
      (expected : WireType) (hexpected : description.type.wireType? = some expected) (hother : expected ≠ wireType) :
    Kept options schema description level wireType length (.wireTypeMismatch expected wireType)
  /-- A boolean takes one byte. -/
  | longBoolean (hwireType : wireType = .varint) (htype : description.type = .bool)
      (hlength : length ≠ 1) :
    Kept options schema description level wireType length (.boolLength length)

/-- Why no payload can be read off the wire. -/
inductive DecodeError.OffWire : DecodeError → Prop
  | truncated (offset needed available : Nat) : OffWire (.truncated offset needed available)
  | overlongVarint (offset : Nat) : OffWire (.overlongVarint offset)
  | malformedLength (offset : Nat) : OffWire (.malformedLength offset)
  | unsupportedWireType (raw : Nat) : OffWire (.unsupportedWireType raw)

/-- What is read off the wire behind the tag of the field. -/
def Field.OnWire (data : Bytes) (field : Field) (outcome : Except DecodeError Located) : Prop :=
  ∃ tag, Tag.readAt data field.span.start field.span.length = .ok tag ∧ tag.number = field.number ∧
    tag.wireType = field.wireType.raw ∧
    Payload.readAt data (field.span.start + tag.length) field.span.stop field.wireType = outcome

/-- What the value of a described field can be. -/
inductive Verdict where
  /-- A value of the declared type. -/
  | typed
  /-- A row of values of the declared type. -/
  | row
  /-- The payload as it came. -/
  | kept
  /-- No payload. -/
  | missing
deriving DecidableEq

namespace Verdict

/-- What the verdict says about the value. -/
def Holds (options : Options) (data : Bytes) (description : FieldDescription) (field : Field) : Verdict → Prop
  | typed => field.value.HasType options description.type
  | row => field.wireType = .lengthDelimited ∧ description.isRepeated = true ∧
      description.type.isPackable = true ∧
      ∃ elements, field.value = .packed elements ∧ ∀ element ∈ elements, element.value.type = description.type
  | kept => ∃ located, field.OnWire data (.ok located) ∧ field.value = .scalar (.raw located.payload)
  | missing => ∃ content, field.value = .incomplete content

/-- What the verdict says about the diagnostics of a field that lies `level` levels down. -/
def Complains (options : Options) (schema : Schema) (data : Bytes) (description : FieldDescription) (level : Nat)
    (field : Field) : Verdict → Prop
  | typed | row => ∃ located, field.OnWire data (.ok located) ∧
      field.diagnostics = field.value.notes (schema.enumOf? description) located.span
  | kept => ∃ located error, field.OnWire data (.ok located) ∧ field.diagnostics = [⟨located.span, error⟩] ∧
      Kept options schema description level field.wireType located.span.length error
  | missing => ∃ error, field.OnWire data (.error error) ∧ field.diagnostics = [⟨field.span, error⟩] ∧ error.OffWire

/-- The verdict that the value alone admits. -/
def ofValue : Value → Verdict
  | .scalar (.raw _) => kept
  | .scalar _ | .message _ => typed
  | .packed _ => row
  | .incomplete _ => missing

theorem ofValue_of_holds {options : Options} {data : Bytes} {description : FieldDescription} {field : Field}
    {verdict : Verdict} (htype : description.type ≠ .none) (h : verdict.Holds options data description field) :
    ofValue field.value = verdict := by
  cases verdict with
  | typed =>
    rw [Holds] at h
    cases hvalue : field.value with
    | scalar value =>
      rw [hvalue, Value.HasType] at h
      cases value with
      | raw payload =>
        have hshown : description.type.shown options ≠ .none := by
          unfold FieldType.shown
          split
          · split <;> simp
          · exact htype
        exact absurd h.symm hshown
      | _ => rfl
    | message embedded => rfl
    | packed elements =>
      rw [hvalue] at h
      cases h
    | incomplete content =>
      rw [hvalue] at h
      cases h
  | row =>
    obtain ⟨-, -, -, elements, hvalue, -⟩ := h
    rw [hvalue, ofValue]
  | kept =>
    obtain ⟨located, -, hvalue⟩ := h
    rw [hvalue, ofValue]
  | missing =>
    obtain ⟨content, hvalue⟩ := h
    rw [hvalue, ofValue]

end Verdict

/-- One verdict holds of the field, and its diagnostics are what that verdict has to say. -/
structure Field.Sound (options : Options) (schema : Schema) (data : Bytes) (description : FieldDescription)
    (level : Nat) (field : Field) : Prop where
  verdict : ∃! verdict : Verdict, verdict.Holds options data description field
  diagnostics : ∀ verdict : Verdict, verdict.Holds options data description field →
    verdict.Complains options schema data description level field

theorem Field.Sound.of_verdict {options : Options} {schema : Schema} {data : Bytes} {description : FieldDescription}
    {level : Nat} {field : Field} (htype : description.type ≠ .none) (verdict : Verdict)
    (hholds : verdict.Holds options data description field)
    (hcomplains : verdict.Complains options schema data description level field) :
    field.Sound options schema data description level := by
  have honly : ∀ other : Verdict, other.Holds options data description field → other = verdict := by
    intro other hother
    rw [← Verdict.ofValue_of_holds htype hholds, Verdict.ofValue_of_holds htype hother]
  refine ⟨⟨verdict, hholds, honly⟩, fun other hother => ?_⟩
  rw [honly other hother]
  exact hcomplains

/-! ### Scalars -/

theorem FieldType.ne_none_of_isPackable {type : FieldType} (h : type.isPackable = true) : type ≠ .none := by
  rintro rfl
  cases h

theorem FieldType.shown_of_isPackable (options : Options) {type : FieldType} (h : type.isPackable = true) :
    type.shown options = type := by
  cases type <;> first | rfl | cases h

theorem FieldType.eq_none_of_wireType? {type : FieldType} (h : type.wireType? = Option.none) : type = .none := by
  cases type <;> simp [wireType?] at h ⊢

namespace Scalar

variable {options : Options} {enumType : Option EnumType} {length : Nat} {type : FieldType} {payload : Payload}

theorem type_of_convert {value : Scalar} (hkind : type.wireType? = some payload.wireType)
    (h : convert options enumType length type payload = .ok value) : value.type = type.shown options := by
  cases type <;> cases payload <;>
    simp only [FieldType.wireType?, Payload.wireType, Option.some.injEq, reduceCtorEq] at hkind <;>
    simp only [convert] at h
  case bool.varint =>
    split at h
    · cases h
      rfl
    · cases h
  case bytes.bytes =>
    cases h
    simp only [FieldType.shown]
    split <;> rfl
  case message.bytes => cases h
  all_goals
    cases h
    rfl

theorem name_of_convert {number : Int32} {name : Option String}
    (h : convert options enumType length type payload = .ok (.enum number name)) :
    name = enumType.bind (·.name? number) := by
  unfold convert at h
  split at h
  case h_7 => split at h <;> cases h
  case h_8 =>
    cases h
    rfl
  case h_16 => split at h <;> cases h
  all_goals cases h

theorem notes_of_convert {value : Scalar} (span : Span)
    (h : convert options enumType length type payload = .ok value) :
    enumNotes enumType span value = value.notes enumType span := by
  cases value with
  | enum number name =>
    rw [name_of_convert h]
    exact enumNotes_named enumType span (.enum number none)
  | _ => cases enumType <;> rfl

theorem convert_of_read {value : Scalar} (htype : type ≠ .none)
    (h : read options enumType type length payload = .ok value) :
    type.wireType? = some payload.wireType ∧ convert options enumType length type payload = .ok value := by
  unfold read at h
  split at h
  · cases h
  · rename_i hnone
    exact absurd (FieldType.eq_none_of_wireType? hnone) htype
  · rename_i expected _ hexpected
    split at h
    · rename_i hkind
      exact ⟨by rw [hexpected, hkind], h⟩
    · cases h

theorem type_of_read {value : Scalar} (hpackable : type.isPackable = true)
    (h : read options enumType type length payload = .ok value) : value.type = type := by
  obtain ⟨hkind, hconvert⟩ := convert_of_read (FieldType.ne_none_of_isPackable hpackable) h
  rw [type_of_convert hkind hconvert, FieldType.shown_of_isPackable options hpackable]

end Scalar

/-! ### Rows -/

theorem exists_error_of_mapM {α β ε : Type} {f : α → Except ε β} {values : List α} {error : ε}
    (h : values.mapM f = .error error) : ∃ value ∈ values, f value = .error error := by
  induction values with
  | nil => cases h
  | cons value values ih =>
    rw [List.mapM_cons] at h
    cases hvalue : f value with
    | error found =>
      rw [hvalue] at h
      cases h
      exact ⟨value, List.mem_cons_self, hvalue⟩
    | ok result =>
      cases hvalues : values.mapM f with
      | ok results =>
        rw [hvalue, hvalues] at h
        cases h
      | error found =>
        rw [hvalue, hvalues] at h
        cases h
        obtain ⟨other, hmem, hother⟩ := ih hvalues
        exact ⟨other, List.mem_cons_of_mem _ hmem, hother⟩

namespace Packed

variable {options : Options} {enumType : Option EnumType} {type : FieldType} {start : Nat} {content : Bytes}

theorem error_of_read {error : DecodeError} (h : read options enumType type start content = .error error) :
    (type.isPackable = false ∧ error = .notPackable type) ∨
    (type.isPackable = true ∧ ∃ fault, error = .packed type fault) := by
  unfold read at h
  split at h
  · rename_i wireType hpackable hwireType
    refine .inr ⟨hpackable, ?_⟩
    split at h
    · cases h
      exact ⟨_, rfl⟩
    · obtain ⟨located, -, hlocated⟩ := exists_error_of_mapM h
      unfold readElement at hlocated
      split at hlocated
      · cases hlocated
      · cases hlocated
        exact ⟨_, rfl⟩
  · rename_i hnone
    cases h
    refine .inl ⟨?_, rfl⟩
    by_contra hpackable
    have hpackable : type.isPackable = true := by simpa using hpackable
    cases hwireType : type.wireType? with
    | none => simp [FieldType.isPackable, hwireType] at hpackable
    | some wireType => exact hnone wireType hpackable hwireType

theorem value_of_readElement {located : Located} {element : Element} (hpackable : type.isPackable = true)
    (h : readElement options enumType type located = .ok element) :
    element.value.type = type ∧
      enumNotes enumType element.span element.value = element.value.notes enumType element.span := by
  unfold readElement at h
  split at h
  · rename_i value hvalue
    cases h
    exact ⟨Scalar.type_of_read hpackable hvalue,
      Scalar.notes_of_convert _ (Scalar.convert_of_read (FieldType.ne_none_of_isPackable hpackable) hvalue).2⟩
  · cases h

theorem values_of_read {elements : List Element} (h : read options enumType type start content = .ok elements) :
    type.isPackable = true ∧ (∀ element ∈ elements, element.value.type = type) ∧
      (elements.flatMap fun element => enumNotes enumType element.span element.value) =
        elements.flatMap fun element => element.value.notes enumType element.span := by
  obtain ⟨wireType, values, hpackable, -, -, helements⟩ := read_eq_ok_iff.1 h
  refine ⟨hpackable, ?_, ?_⟩
  · clear h
    induction helements with
    | nil => simp
    | cons hread _ ih => exact List.forall_mem_cons.2 ⟨(value_of_readElement hpackable hread).1, ih⟩
  · clear h
    induction helements with
    | nil => rfl
    | cons hread _ ih => rw [List.flatMap_cons, List.flatMap_cons, (value_of_readElement hpackable hread).2, ih]

end Packed

/-! ### Records -/

namespace Record

/-- What reading a record by its description can give, `level` levels down: a value with its diagnostics. -/
inductive Gives (options : Options) (schema : Schema) (description : FieldDescription) (level : Nat)
    (record : Record) : Value → List Diagnostic → Prop
  | scalar (value : Scalar) (htype : value.type = description.type.shown options) :
    Gives options schema description level record (.scalar value)
      (value.notes (schema.enumOf? description) record.valueSpan)
  | message (embedded : Message) (htype : description.type = .message) :
    Gives options schema description level record (.message embedded) []
  | row (elements : List Element) (hwireType : record.wireType = .lengthDelimited)
      (hrepeated : description.isRepeated = true) (hpackable : description.type.isPackable = true)
      (htype : ∀ element ∈ elements, element.value.type = description.type) :
    Gives options schema description level record (.packed elements)
      ((Value.packed elements).notes (schema.enumOf? description) record.valueSpan)
  | kept (error : DecodeError)
      (hkept : Kept options schema description level record.wireType record.valueSpan.length error) :
    Gives options schema description level record (.scalar (.raw record.payload)) [⟨record.valueSpan, error⟩]

variable {options : Options} {schema : Schema} {embed : Option Embed} {description : FieldDescription} {level : Nat}
  {record : Record}

theorem gives_asScalar (hkind : record.payload.wireType = record.wireType) (htype : description.type ≠ .none)
    (hrow : ¬ description.TakesRow record.wireType)
    (hmessage : description.type = .message → record.wireType ≠ .lengthDelimited) :
    Gives options schema description level record
      (record.asScalar options (schema.enumOf? description) description).value
      (record.asScalar options (schema.enumOf? description) description).diagnostics := by
  unfold asScalar
  split
  · rename_i value hvalue
    obtain ⟨hwireType, hconvert⟩ := Scalar.convert_of_read htype hvalue
    rw [Scalar.notes_of_convert _ hconvert]
    exact .scalar value (Scalar.type_of_convert hwireType hconvert)
  · rename_i error herror
    refine .kept error ?_
    rcases Scalar.error_of_read herror with
      ⟨hgroup, rfl⟩ | ⟨hgroup, expected, hexpected, hother, rfl⟩ | ⟨hwireType, hconvert⟩
    · exact .group hrow hgroup
    · rw [hkind] at hother ⊢
      exact .otherWireType hrow hgroup expected hexpected hother
    · rw [hkind] at hwireType
      rcases Scalar.error_of_convert hconvert with ⟨hbool, hlength, rfl⟩ | ⟨hembedded, -⟩
      · rw [hbool] at hwireType
        exact .longBoolean (Option.some.inj hwireType).symm hbool hlength
      · rw [hembedded] at hwireType
        exact absurd (Option.some.inj hwireType).symm (hmessage hembedded)

theorem gives_asPacked (hrow : description.TakesRow record.wireType) (content : Bytes) :
    Gives options schema description level record
      (record.asPacked options (schema.enumOf? description) description content).value
      (record.asPacked options (schema.enumOf? description) description content).diagnostics := by
  unfold asPacked
  split
  · rename_i elements helements
    obtain ⟨hpackable, htype, hnotes⟩ := Packed.values_of_read helements
    rw [hnotes]
    exact .row elements hrow.1 hrow.2.1 hpackable htype
  · rename_i error herror
    refine .kept error ?_
    rcases Packed.error_of_read herror with ⟨hpackable, rfl⟩ | ⟨hpackable, fault, rfl⟩
    · exact .notPackable hrow hpackable
    · exact .noRow hrow hpackable fault

theorem gives_asMessage (hrow : ¬ description.TakesRow record.wireType)
    (hwireType : record.wireType = .lengthDelimited) (htype : description.type = .message)
    (hlevel : embed = none → level = options.maxDepth) (content : Bytes) :
    Gives options schema description level record
      (record.asMessage options embed (schema.messageOf? description) description content).value
      (record.asMessage options embed (schema.messageOf? description) description content).diagnostics := by
  unfold asMessage
  split
  · rename_i hnested
    exact .kept _ (.unknownMessage hrow hwireType htype hnested)
  · rename_i nested hnested
    exact .kept _ (.tooDeep hrow hwireType htype nested hnested (hlevel rfl))
  · exact .message _ htype

/-- Reading a record by its description gives a value of the declared type, or says why not. -/
theorem gives_described (hkind : record.payload.wireType = record.wireType) (htype : description.type ≠ .none)
    (hlevel : embed = none → level = options.maxDepth) :
    Gives options schema description level record (record.described options schema embed description).value
      (record.described options schema embed description).diagnostics := by
  unfold described
  split
  · rename_i content hpayload
    have hwireType : record.wireType = .lengthDelimited := by rw [← hkind, hpayload]; rfl
    split
    · rename_i hrow
      rw [Bool.and_eq_true, Bool.or_eq_true] at hrow
      exact gives_asPacked ⟨hwireType, hrow⟩ content
    · rename_i hrow
      rw [Bool.and_eq_true, Bool.or_eq_true] at hrow
      have hrow : ¬ description.TakesRow record.wireType := fun h => hrow h.2
      split
      · rename_i hmessage
        exact gives_asMessage hrow hwireType hmessage hlevel content
      · rename_i hmessage
        exact gives_asScalar hkind htype hrow fun h => absurd h hmessage
  · rename_i hpayload
    have hwireType : record.wireType ≠ .lengthDelimited := by
      rw [← hkind]
      cases hfound : record.payload with
      | bytes content => exact absurd hfound (hpayload content)
      | _ => simp [Payload.wireType]
    exact gives_asScalar hkind htype (fun h => hwireType h.1) fun _ => hwireType

end Record

/-! ### Fields -/

namespace Field

variable {embed : Option Embed} {type : Option MessageType} {description : FieldDescription} {level : Nat}

theorem onWire {field : Field} (front : Bytes) (tag : Varint.Spelling) (content back : Bytes)
    (hnumber : field.number = tag.value.toNat / 8) (hkind : tag.value.toNat % 8 = field.wireType.raw)
    (hspan : field.span = .ofLength front.length (tag.bytes ++ content).length) :
    field.OnWire (front ++ (tag.bytes ++ content ++ back))
      (Payload.read field.wireType (front.length + tag.bytes.length) content) := by
  have htag := Tag.readAt_append front tag content back
  have hcontent : Span.slice ⟨front.length + tag.bytes.length, front.length + (tag.bytes ++ content).length⟩
      (front ++ (tag.bytes ++ content ++ back)) = content := by
    simpa [Nat.add_assoc] using Span.slice_append (front ++ tag.bytes) content back
  refine ⟨⟨tag.value.toNat / 8, tag.value.toNat % 8, tag.bytes.length⟩, ?_, hnumber.symm, hkind, ?_⟩
  · rw [hspan, Span.start_ofLength, Span.length_ofLength]
    exact htag
  · rw [hspan]
    exact congrArg (Payload.read _ _) hcontent

theorem onWire_item (options : Options) (schema : Schema) (embed : Option Embed) (type : Option MessageType)
    (front : Bytes) (item : Item) (back : Bytes) :
    ((item.record front.length).decode options schema embed type).OnWire (front ++ (item.bytes ++ back))
      (.ok (item.body.located (front.length + item.tag.bytes.length))) := by
  have hwireType : ((item.record front.length).decode options schema embed type).wireType = item.body.wireType :=
    Record.wireType_decode _
  have hkind : item.tag.value.toNat % 8 = _ := item.announces.trans (congrArg WireType.raw hwireType).symm
  have h := onWire front item.tag item.body.bytes back (Record.number_decode _) hkind (Record.span_decode _)
  have hbody := Payload.read_append item.body (front.length + item.tag.bytes.length) []
  rw [List.append_nil] at hbody
  rwa [hwireType, hbody] at h

theorem sound_item (options : Options) (schema : Schema) (hlevel : embed = none → level = options.maxDepth)
    (front : Bytes) (item : Item) (back : Bytes)
    (hdescribed : describe type item.number = some description) (htype : description.type ≠ .none) :
    ((item.record front.length).decode options schema embed type).Sound options schema
      (front ++ (item.bytes ++ back)) description level := by
  have hdecode : (item.record front.length).decode options schema embed type =
      (item.record front.length).field (some description.name)
        ((item.record front.length).described options schema embed description) := by
    have hnumber : describe type (item.record front.length).number = some description := hdescribed
    rw [Record.decode, hnumber]
  have hgives : Record.Gives options schema description level (item.record front.length)
      ((item.record front.length).decode options schema embed type).value
      ((item.record front.length).decode options schema embed type).diagnostics := by
    rw [hdecode]
    exact Record.gives_described item.body.wireType_payload htype hlevel
  have hwireType : ((item.record front.length).decode options schema embed type).wireType =
      (item.record front.length).wireType := Record.wireType_decode _
  have honWire := onWire_item options schema embed type front item back
  generalize (item.record front.length).decode options schema embed type = field at *
  obtain ⟨number, wireType, span, name, fieldType, value, candidates, diagnostics⟩ := field
  cases hgives with
  | scalar value hvalue => exact .of_verdict htype .typed hvalue ⟨_, honWire, rfl⟩
  | message embedded hmessage => exact .of_verdict htype .typed hmessage ⟨_, honWire, rfl⟩
  | row elements hrow hrepeated hpackable helements =>
    exact .of_verdict htype .row ⟨hwireType.trans hrow, hrepeated, hpackable, elements, rfl, helements⟩
      ⟨_, honWire, rfl⟩
  | kept error hkept =>
    refine .of_verdict htype .kept ⟨_, honWire, rfl⟩ ⟨_, error, honWire, rfl, ?_⟩
    rw [hwireType]
    exact hkept

end Field

theorem DecodeError.offWire_of_read {wireType : WireType} {start : Nat} {window : Bytes} {error : DecodeError}
    (h : Payload.read wireType start window = .error error) : error.OffWire := by
  cases wireType with
  | varint =>
    simp only [Payload.read] at h
    split at h <;> cases h
    · exact .truncated _ _ _
    · exact .overlongVarint _
  | fixed64 =>
    simp only [Payload.read, Payload.ofWidth] at h
    split at h <;> cases h
    exact .truncated _ _ _
  | fixed32 =>
    simp only [Payload.read, Payload.ofWidth] at h
    split at h <;> cases h
    exact .truncated _ _ _
  | lengthDelimited =>
    simp only [Payload.read] at h
    split at h
    · cases h
      exact .malformedLength _
    · split at h <;> cases h
      exact .truncated _ _ _
  | startGroup =>
    cases h
    exact .unsupportedWireType _
  | endGroup =>
    cases h
    exact .unsupportedWireType _

/-! ### Messages -/

namespace Message

variable {options : Options} {schema : Schema} {embed : Option Embed} {type : Option MessageType}
  {description : FieldDescription} {level : Nat}

theorem sound_ofWindow (hlevel : embed = none → level = options.maxDepth) (front window back : Bytes) {field : Field}
    (hfield : field ∈ (ofWindow options schema embed type front.length window).fields)
    (hdescribed : describe type field.number = some description) (htype : description.type ≠ .none) :
    field.Sound options schema (front ++ (window ++ back)) description level := by
  rcases item_or_stop_of_mem_fields hfield with
    ⟨before, item, behind, rfl, rfl⟩ | ⟨before, rest, stop, rfl, hexplains, hstop⟩
  · rw [Record.number_decode] at hdescribed
    rw [← List.length_append] at hdescribed ⊢
    have hsound := Field.sound_item options schema hlevel (front ++ before) item (behind ++ back) hdescribed htype
    simpa using hsound
  · cases hexplains with
    | malformed => cases hstop
    | unsupported => cases hstop
    | incomplete tag wireType content error hrest hkind hbody =>
      cases hstop
      subst hrest
      rw [← List.length_append] at hbody ⊢
      refine .of_verdict htype .missing ⟨content, rfl⟩ ⟨error, ?_, rfl, DecodeError.offWire_of_read hbody⟩
      have hdata : front ++ (before ++ (tag.bytes ++ content) ++ back) =
          front ++ before ++ (tag.bytes ++ content ++ back) := by simp
      rw [← hbody, hdata]
      exact Field.onWire (front ++ before) tag content back rfl hkind rfl

/-- Every message of a decoded tree has a type, if the message around it refers to one, and by that type each described
field holds what it should, or says why not. -/
theorem sound_decodeWindow (options : Options) (schema : Schema) (type : Option MessageType) (data : Bytes)
    (offset length : Nat) :
    let outer := decodeWindow options schema type data offset length
    (∀ level inner, outer.Nests level inner → ∃ innerType, outer.NestsAs schema type level innerType inner) ∧
    ∀ level innerType inner, outer.NestsAs schema type level innerType inner →
      ∀ field ∈ inner.fields, ∀ description, describe innerType field.number = some description →
        description.type ≠ .none → field.Sound options schema data description level := by
  intro outer
  refine ⟨fun _ _ => exists_type_of_nests_decodeWindow, fun level innerType inner hinner => ?_⟩
  refine of_nestsAs_decodeWindow (motive := fun level type message => ∀ field ∈ message.fields, ∀ description,
    describe type field.number = some description → description.type ≠ .none →
      field.Sound options schema data description level) ?_ (fun _ _ _ _ h => h) hinner
  intro level type front window back hlevel hdata field hfield description hdescribed htype
  rw [ofBudget_eq] at hfield
  rw [hdata]
  refine sound_ofWindow ?_ front window back hfield hdescribed htype
  intro hnone
  cases hbudget : options.maxDepth - level with
  | zero => omega
  | succ budget =>
    rw [hbudget] at hnone
    cases hnone

theorem sound_decodeWindow_longBoolean :
    let flag : FieldDescription := ⟨"flag", 1, .bool, .single, none⟩
    let child : FieldDescription := ⟨"child", 2, .message, .single, some (.message ⟨0⟩)⟩
    let schema := Schema.build [.insertMessage "M", .addField ⟨0⟩ flag, .addField ⟨0⟩ child]
    let type : MessageType := ⟨"M", ⟨0⟩, [(1, flag), (2, child)]⟩
    let data : Bytes := [18, 3, 8, 129, 0]
    let field : Field :=
      ⟨1, .varint, ⟨2, 5⟩, some "flag", .bool, .scalar (.raw (.varint 1)), [], [⟨⟨3, 5⟩, .boolLength 2⟩]⟩
    let inner : Message := ⟨"M", ⟨2, 5⟩, [field], none, []⟩
    (decodeWindow {} schema (some type) data 0 5).NestsAs schema (some type) 1 (some type) inner ∧
      field.Sound {} schema data flag 1 := by
  intro flag child schema type data field inner
  have hfields : (decodeWindow {} schema (some type) data 0 5).fields =
      [⟨2, .lengthDelimited, ⟨0, 5⟩, some "child", .message, .message inner, [], []⟩] := by with_unfolding_all rfl
  have hchild : describe (some type) 2 = some child := by decide
  have hnested : schema.messageOf? child = some type := by decide
  have hinner : (decodeWindow {} schema (some type) data 0 5).NestsAs schema (some type) 1 (some type) inner :=
    .inside (by rw [hfields]; exact List.mem_singleton.2 rfl) rfl hchild hnested (.self _ _)
  refine ⟨hinner, ?_⟩
  exact (sound_decodeWindow {} schema (some type) data 0 5).2 1 (some type) inner hinner field
    (List.mem_singleton.2 rfl) flag (by decide) (by decide)

end Message

end WireTree
