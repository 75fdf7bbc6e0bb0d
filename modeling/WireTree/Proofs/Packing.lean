import WireTree.Proofs.Row
import WireTree.Proofs.TypeSoundness

/-!
# Packed and unpacked values

A field of numbers may come packed into one value or one by one, and both say the same: the content is read as a row of
elements just when it is a row of bodies each of which is read on its own, and then element by element as they are. If
one of them is not, none is read. Both ways end in one reading of a body of the wire type of the field type, so the proof
only has to bring splitting and decoding there.
-/

namespace WireTree

/-! ### Messages of one field -/

/-- The message is one field of the number, with the value and the diagnostics, and there is nothing else to it. -/
def Message.Shows (message : Message) (number : Nat) (value : Value) (diagnostics : List Diagnostic) : Prop :=
  ∃ field, message.fields = [field] ∧ message.garbage = none ∧ message.diagnostics = [] ∧
    field.number = number ∧ field.value = value ∧ field.diagnostics = diagnostics

namespace Message

theorem Shows.unique {message : Message} {number : Nat} {value value' : Value} {diagnostics diagnostics' : List Diagnostic}
    (h : message.Shows number value diagnostics) (h' : message.Shows number value' diagnostics') :
    value = value' ∧ diagnostics = diagnostics' := by
  obtain ⟨field, hfields, -, -, -, rfl, rfl⟩ := h
  obtain ⟨field', hfields', -, -, -, rfl, rfl⟩ := h'
  rw [hfields, List.singleton_inj] at hfields'
  subst hfields'
  exact ⟨rfl, rfl⟩

theorem shows_item (options : Options) (schema : Schema) {type : MessageType} {description : FieldDescription}
    (item : Item) (hdescribed : type.field? item.number = some description) :
    let reading := (item.record 0).described options schema (entering options schema options.maxDepth) description
    (decode options schema (some type) item.bytes).Shows item.number reading.value reading.diagnostics := by
  intro reading
  have hframing := Framing.ofWindow_spell 0 [item]
  simp only [Item.spell_cons, Item.spell_nil, List.append_nil, Item.records] at hframing
  have hdecode : (item.record 0).decode options schema (entering options schema options.maxDepth) (some type) =
      (item.record 0).field (some description.name) reading := by
    have hnumber : describe (some type) (item.record 0).number = some description := hdescribed
    rw [Record.decode, hnumber]
  refine ⟨(item.record 0).field (some description.name) reading, ?_, ?_, ?_, rfl, rfl, rfl⟩
  · rw [decode_eq, ofBudget_eq, fields_ofWindow, hframing, ← hdecode]
    rfl
  · rw [decode_eq, ofBudget_eq, garbage_ofWindow, hframing]
    rfl
  · rw [decode_eq, ofBudget_eq, diagnostics_ofWindow, hframing]
    rfl

end Message

/-! ### One by one -/

namespace Packed

/-- Behind a tag of its own, the body is decoded as a value of some type, and not kept as it came. -/
def Alone (options : Options) (schema : Schema) (type : MessageType) (number : Nat) (body : ItemBody) (value : Scalar)
    (notes : List Diagnostic) : Prop :=
  (Message.decode options schema (some type) (Tag.encode number body.wireType ++ body.bytes)).Shows number
      (.scalar value) notes ∧ value.type ≠ .none

/-- The content is the row of the bodies, each of which is decoded on its own. -/
structure Splits (options : Options) (schema : Schema) (type : MessageType) (number : Nat) (wireType : WireType)
    (content : Bytes) (bodies : List ItemBody) : Prop where
  spells : ItemBody.spell bodies = content
  wireType : ∀ body ∈ bodies, body.wireType = wireType
  alone : ∀ body ∈ bodies, ∃ value notes, Alone options schema type number body value notes

/-- From `start` on, the elements are the values of the bodies, each with the bytes of its body, and the diagnostics are
those of the bodies, each with the span of its element. -/
inductive Agrees (options : Options) (schema : Schema) (type : MessageType) (number : Nat) :
    (start : Nat) → List ItemBody → List Element → List Diagnostic → Prop
  | nil (start : Nat) : Agrees options schema type number start [] [] []
  | cons {start : Nat} {body : ItemBody} {bodies : List ItemBody} {value : Scalar} {elements : List Element}
      {notes rest : List Diagnostic} (halone : Alone options schema type number body value notes)
      (hnotes : ∀ note ∈ notes, ∃ name value, note.error = .unresolvedEnumValue name value)
      (hrest : Agrees options schema type number (start + body.bytes.length) bodies elements rest) :
    Agrees options schema type number start (body :: bodies)
      (⟨.ofLength start body.bytes.length, value⟩ :: elements)
      (notes.map (fun note => ⟨.ofLength start body.bytes.length, note.error⟩) ++ rest)

theorem unresolved_of_mem_enumNotes {enumType : Option EnumType} {span : Span} {value : Scalar} {note : Diagnostic}
    (h : note ∈ enumNotes enumType span value) : ∃ name number, note.error = .unresolvedEnumValue name number := by
  unfold enumNotes at h
  split at h
  · rw [List.mem_singleton.1 h]
    exact ⟨_, _, rfl⟩
  · cases h

theorem enumNotes_moved (enumType : Option EnumType) (span span' : Span) (value : Scalar) :
    (enumNotes enumType span value).map (fun note => ⟨span', note.error⟩) = enumNotes enumType span' value := by
  unfold enumNotes
  split <;> rfl

section

variable {options : Options} {schema : Schema} {type : MessageType} {description : FieldDescription} {number : Nat}

theorem shows_body (options : Options) (schema : Schema) (hnumber : number < 2 ^ 61)
    (hdescribed : type.field? number = some description) {body : ItemBody} (hlead : body.wireType ≠ .lengthDelimited) :
    let span : Span := .ofLength (Tag.encode number body.wireType).length body.bytes.length
    let message := Message.decode options schema (some type) (Tag.encode number body.wireType ++ body.bytes)
    match Scalar.read options (schema.enumOf? description) description.type body.bytes.length body.payload with
    | .ok value => message.Shows number (.scalar value) (enumNotes (schema.enumOf? description) span value)
    | .error error => message.Shows number (.scalar (.raw body.payload)) [⟨span, error⟩] := by
  obtain ⟨item, htag, rfl, rfl⟩ := Item.exists_of_body hnumber body
  have hspan : (item.record 0).valueSpan =
      .ofLength (Tag.encode item.number item.body.wireType).length item.body.bytes.length := by
    simp [Item.record, ItemBody.span_located hlead, htag]
  have hbytes : ∀ content, (item.record 0).payload ≠ .bytes content := by
    intro content hcontent
    refine hlead ?_
    rw [← item.body.wireType_payload, show item.body.payload = .bytes content from hcontent]
    rfl
  have hshows := Message.shows_item options schema item hdescribed
  rw [Record.described_eq_asScalar fun content hcontent => absurd hcontent (hbytes content), Item.bytes, htag] at hshows
  unfold Record.asScalar Record.keep at hshows
  rw [hspan, Span.length_ofLength, show (item.record 0).payload = item.body.payload from rfl] at hshows
  intro span message
  cases hread : Scalar.read options (schema.enumOf? description) description.type item.body.bytes.length
      item.body.payload with
  | ok value =>
    simp only [hread] at hshows
    exact hshows
  | error error =>
    simp only [hread] at hshows
    exact hshows

/-- Alone, a body is read as it is in a row. -/
theorem alone_iff (hnumber : number < 2 ^ 61) (hdescribed : type.field? number = some description)
    (hpackable : description.type.isPackable = true) {body : ItemBody}
    (hkind : description.type.wireType? = some body.wireType) {value : Scalar} {notes : List Diagnostic} :
    Alone options schema type number body value notes ↔
      Scalar.read options (schema.enumOf? description) description.type body.bytes.length body.payload = .ok value ∧
        notes = enumNotes (schema.enumOf? description)
          (.ofLength (Tag.encode number body.wireType).length body.bytes.length) value := by
  have hshows := shows_body options schema hnumber hdescribed
    (FieldType.ne_lengthDelimited_of_isPackable hpackable hkind)
  cases hread : Scalar.read options (schema.enumOf? description) description.type body.bytes.length body.payload with
  | ok found =>
    simp only [hread] at hshows
    constructor
    · rintro ⟨hvalue, -⟩
      obtain ⟨hfound, hnotes⟩ := hshows.unique hvalue
      cases hfound
      exact ⟨rfl, hnotes.symm⟩
    · rintro ⟨hvalue, rfl⟩
      cases hvalue
      refine ⟨hshows, ?_⟩
      rw [Scalar.type_of_read hpackable hread]
      exact FieldType.ne_none_of_isPackable hpackable
  | error error =>
    simp only [hread] at hshows
    constructor
    · rintro ⟨hvalue, htype⟩
      obtain ⟨hraw, -⟩ := hshows.unique hvalue
      cases hraw
      exact absurd rfl htype
    · rintro ⟨hvalue, -⟩
      cases hvalue

theorem Agrees.alone {start : Nat} {bodies : List ItemBody} {elements : List Element} {notes : List Diagnostic}
    (h : Agrees options schema type number start bodies elements notes) :
    ∀ body ∈ bodies, ∃ value notes, Alone options schema type number body value notes := by
  induction h with
  | nil start => simp
  | cons halone _ _ ih => exact List.forall_mem_cons.2 ⟨⟨_, _, halone⟩, ih⟩

theorem Splits.unique {wireType : WireType} {content : Bytes} {bodies bodies' : List ItemBody}
    (h : Splits options schema type number wireType content bodies)
    (h' : Splits options schema type number wireType content bodies') : bodies = bodies' :=
  ItemBody.spell_inj h.wireType h'.wireType (h.spells.trans h'.spells.symm)

theorem readElement_located {enumType : Option EnumType} {type : FieldType} {body : ItemBody}
    (hlead : body.wireType ≠ .lengthDelimited) {start : Nat} {element : Element} :
    readElement options enumType type (body.located start) = .ok element ↔
      ∃ value, Scalar.read options enumType type body.bytes.length body.payload = .ok value ∧
        element = ⟨.ofLength start body.bytes.length, value⟩ := by
  rw [readElement, ItemBody.span_located hlead, Span.length_ofLength,
    show (body.located start).payload = body.payload from rfl]
  cases hread : Scalar.read options enumType type body.bytes.length body.payload with
  | ok value =>
    constructor
    · intro h
      cases h
      exact ⟨value, rfl, rfl⟩
    · rintro ⟨_, hvalue, rfl⟩
      cases hvalue
      rfl
  | error error => simp

/-! ### In a row -/

section

variable (hnumber : number < 2 ^ 61) (hdescribed : type.field? number = some description)
  (hpackable : description.type.isPackable = true)

include hnumber hdescribed hpackable

theorem agrees_of_readElement {bodies : List ItemBody} {start : Nat} {elements : List Element}
    (hkind : ∀ body ∈ bodies, description.type.wireType? = some body.wireType)
    (h : List.Forall₂ (fun located element =>
      readElement options (schema.enumOf? description) description.type located = .ok element)
      (ItemBody.locate start bodies) elements) :
    Agrees options schema type number start bodies elements
      (elements.flatMap fun element => enumNotes (schema.enumOf? description) element.span element.value) := by
  induction bodies generalizing start elements with
  | nil =>
    cases h
    exact .nil start
  | cons body bodies ih =>
    obtain ⟨hbody, hkind⟩ := List.forall_mem_cons.1 hkind
    cases h with
    | cons hread hrest =>
      have hlead := FieldType.ne_lengthDelimited_of_isPackable hpackable hbody
      obtain ⟨value, hvalue, rfl⟩ := (readElement_located hlead).1 hread
      have halone := (alone_iff hnumber hdescribed hpackable hbody).2 ⟨hvalue, rfl⟩
      rw [List.flatMap_cons, ← enumNotes_moved _ (.ofLength _ _)]
      exact .cons halone (fun note hnote => unresolved_of_mem_enumNotes hnote) (ih hkind hrest)

theorem exists_elements_of_alone {bodies : List ItemBody} (start : Nat)
    (hkind : ∀ body ∈ bodies, description.type.wireType? = some body.wireType)
    (halone : ∀ body ∈ bodies, ∃ value notes, Alone options schema type number body value notes) :
    ∃ elements, List.Forall₂ (fun located element =>
      readElement options (schema.enumOf? description) description.type located = .ok element)
      (ItemBody.locate start bodies) elements := by
  induction bodies generalizing start with
  | nil => exact ⟨[], .nil⟩
  | cons body bodies ih =>
    obtain ⟨hbody, hkind⟩ := List.forall_mem_cons.1 hkind
    obtain ⟨⟨value, notes, hvalue⟩, halone⟩ := List.forall_mem_cons.1 halone
    obtain ⟨elements, helements⟩ := ih (start + body.bytes.length) hkind halone
    have hread := ((alone_iff hnumber hdescribed hpackable hbody).1 hvalue).1
    have hlead := FieldType.ne_lengthDelimited_of_isPackable hpackable hbody
    exact ⟨_ :: elements, .cons ((readElement_located hlead).2 ⟨value, hread, rfl⟩) helements⟩

theorem exists_splits_of_read {wireType : WireType} (hkind : description.type.wireType? = some wireType) {start : Nat}
    {content : Bytes} {elements : List Element}
    (h : read options (schema.enumOf? description) description.type start content = .ok elements) :
    ∃ bodies, Splits options schema type number wireType content bodies := by
  obtain ⟨expected, values, -, hexpected, hvalues, helements⟩ := read_eq_ok_iff.1 h
  obtain rfl : expected = wireType := Option.some.inj (hexpected.symm.trans hkind)
  obtain ⟨bodies, hbodies, rfl, rfl⟩ := exists_bodies_of_split hvalues
  have hkinds : ∀ body ∈ bodies, description.type.wireType? = some body.wireType := fun body hmem => by
    rw [hkind, hbodies body hmem]
  exact ⟨bodies, rfl, hbodies, (agrees_of_readElement hnumber hdescribed hpackable hkinds helements).alone⟩

theorem read_of_splits {wireType : WireType} (hkind : description.type.wireType? = some wireType) {content : Bytes}
    {bodies : List ItemBody} (h : Splits options schema type number wireType content bodies) (start : Nat) :
    ∃ elements, read options (schema.enumOf? description) description.type start content = .ok elements ∧
      Agrees options schema type number start bodies elements
        (elements.flatMap fun element => enumNotes (schema.enumOf? description) element.span element.value) := by
  have hkinds : ∀ body ∈ bodies, description.type.wireType? = some body.wireType := fun body hmem => by
    rw [hkind, h.wireType body hmem]
  obtain ⟨elements, helements⟩ := exists_elements_of_alone hnumber hdescribed hpackable start hkinds h.alone
  have hsplit := split_spell h.wireType start
  rw [h.spells] at hsplit
  exact ⟨elements, read_eq_ok_iff.2 ⟨wireType, _, hpackable, hkind, hsplit, helements⟩,
    agrees_of_readElement hnumber hdescribed hpackable hkinds helements⟩

end

end

/-! ### One field -/

/-- A packed value is a row of elements just when its content is a row of bodies that are decoded one by one, and then
there is one such row and the elements are those values. Otherwise the content is kept whole, for one reason. -/
theorem agrees_decode (options : Options) (schema : Schema) {type : MessageType} {description : FieldDescription}
    {number : Nat} {wireType : WireType} (hnumber : number < 2 ^ 61)
    (hdescribed : type.field? number = some description) (hrepeated : description.isRepeated = true)
    (hpackable : description.type.isPackable = true) (hkind : description.type.wireType? = some wireType)
    (content : Bytes) (hshort : ((Payload.bytes content).encodeUnder number).length < 2 ^ 63) :
    let packed := Message.decode options schema (some type) ((Payload.bytes content).encodeUnder number)
    let first := (Payload.bytes content).contentStart 0 number
    ((∃ elements notes, packed.Shows number (.packed elements) notes) ↔
      ∃ bodies, Splits options schema type number wireType content bodies) ∧
    (∀ bodies, Splits options schema type number wireType content bodies →
      (∀ bodies', Splits options schema type number wireType content bodies' → bodies' = bodies) ∧
      ∃ elements notes, packed.Shows number (.packed elements) notes ∧
        Agrees options schema type number first bodies elements notes) ∧
    ((¬ ∃ bodies, Splits options schema type number wireType content bodies) →
      ∃ fault, packed.Shows number (.scalar (.raw (.bytes content)))
        [⟨.ofLength first content.length, .packed description.type fault⟩]) := by
  intro packed first
  have hlength : (Payload.bytes content).content.length < 2 ^ 64 := by
    have := hshort
    simp only [Payload.encodeUnder, Payload.encode, List.length_append] at this
    omega
  obtain ⟨item, hbytes, hrecord⟩ := Payload.exists_item hnumber hlength
  have hitem : item.number = number := congrArg Record.number (hrecord 0)
  have hshows := Message.shows_item options schema item (hitem.symm ▸ hdescribed)
  rw [hrecord, hitem, hbytes, Record.described_eq_asPacked rfl hrepeated hpackable] at hshows
  unfold Record.asPacked at hshows
  have hall : ∀ bodies, Splits options schema type number wireType content bodies →
      ∃ elements notes, packed.Shows number (.packed elements) notes ∧
        Agrees options schema type number first bodies elements notes := by
    intro bodies hbodies
    obtain ⟨elements, helements, hagrees⟩ := read_of_splits hnumber hdescribed hpackable hkind hbodies first
    rw [show (Payload.record 0 number (.bytes content)).valueSpan.start = first from rfl, helements] at hshows
    exact ⟨elements, _, hshows, hagrees⟩
  have hkept : (¬ ∃ bodies, Splits options schema type number wireType content bodies) →
      ∃ fault, packed.Shows number (.scalar (.raw (.bytes content)))
        [⟨.ofLength first content.length, .packed description.type fault⟩] := by
    intro hnone
    cases hread : read options (schema.enumOf? description) description.type
        (Payload.record 0 number (.bytes content)).valueSpan.start content with
    | ok elements => exact absurd (exists_splits_of_read hnumber hdescribed hpackable hkind hread) hnone
    | error error =>
      rw [hread] at hshows
      rcases error_of_read hread with ⟨hother, -⟩ | ⟨-, fault, rfl⟩
      · rw [hpackable] at hother
        cases hother
      · exact ⟨fault, hshows⟩
  refine ⟨⟨?_, ?_⟩, ?_, hkept⟩
  · rintro ⟨elements, notes, hrow⟩
    by_contra hnone
    obtain ⟨fault, hraw⟩ := hkept hnone
    cases (hrow.unique hraw).1
  · rintro ⟨bodies, hbodies⟩
    obtain ⟨elements, notes, hrow, -⟩ := hall bodies hbodies
    exact ⟨elements, notes, hrow⟩
  · exact fun bodies hbodies => ⟨fun bodies' hbodies' => hbodies'.unique hbodies, hall bodies hbodies⟩

/-- Two numbers of an enum type, of two bytes and of one, and a name for the second only. -/
theorem agrees_decode_enum :
    let kind : FieldDescription := ⟨"kind", 1, .enum, .repeated, some (.enum ⟨0⟩)⟩
    let type : MessageType := ⟨"M", ⟨0⟩, [(1, kind)]⟩
    let schema := Schema.build
      [.insertMessage "M", .insertEnum "E", .addEnumValue ⟨0⟩ "ONE" 1, .addField ⟨0⟩ kind]
    let elements : List Element := [⟨⟨2, 4⟩, .enum 300 none⟩, ⟨⟨4, 5⟩, .enum 1 (some "ONE")⟩]
    let notes : List Diagnostic := [⟨⟨2, 4⟩, .unresolvedEnumValue "E" 300⟩]
    (Message.decode {} schema (some type) [10, 3, 172, 2, 1]).Shows 1 (.packed elements) notes ∧
      ∃ bodies, Splits {} schema type 1 .varint [172, 2, 1] bodies ∧
        Agrees {} schema type 1 2 bodies elements notes := by
  intro kind type schema elements notes
  have hshows : (Message.decode {} schema (some type) [10, 3, 172, 2, 1]).Shows 1 (.packed elements) notes := by
    refine ⟨⟨1, .lengthDelimited, ⟨0, 5⟩, some "kind", .enum, .packed elements, [], notes⟩, ?_, ?_, ?_, rfl, rfl, rfl⟩
    all_goals with_unfolding_all rfl
  have hdescribed : type.field? 1 = some kind := by decide
  have h := agrees_decode {} schema (by decide) hdescribed rfl rfl rfl [172, 2, 1] (by decide)
  obtain ⟨bodies, hbodies⟩ := h.1.1 ⟨elements, notes, hshows⟩
  obtain ⟨elements', notes', hshows', hagrees⟩ := (h.2.1 bodies hbodies).2
  obtain ⟨helements, rfl⟩ := Message.Shows.unique hshows hshows'
  cases helements
  exact ⟨hshows, bodies, hbodies, hagrees⟩

end Packed

end WireTree
