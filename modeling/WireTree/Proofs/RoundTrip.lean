import WireTree.Proofs.Nesting
import WireTree.Proofs.Writing
import WireTree.Schema.Build

/-!
# Round trip

A message that conforms to a message type is a list of entries, each a field of the type and what it is to hold: one
value, values packed into one, or a message again. Written and decoded, it gives a field for each entry, in the same
order, with the value that was written. Only enum numbers without a name are noted. The proof goes down the levels of
messages; at each level every entry is an item, and its record is read by the description it was written for.
-/

namespace WireTree

/-! ### What is to be written -/

mutual

/-- A field of a message type, and what it is to hold. -/
structure Entry where
  field : FieldDescription
  datum : Datum

inductive Datum where
  | scalar (value : Scalar)
  | packed (values : List Scalar)
  | message (entries : List Entry)

end

mutual

/-- What may stand in a field of a message type. Text and bytes do not stand in packed fields. -/
inductive Datum.Conforms (schema : Schema) : FieldDescription → Datum → Prop
  | scalar {field : FieldDescription} {value : Scalar} (htype : value.type = field.type)
      (hpacked : field.isPacked = true → field.type.isPackable = true) :
    Datum.Conforms schema field (.scalar value)
  | packed {field : FieldDescription} {values : List Scalar} (hrepeated : field.isRepeated = true)
      (hpackable : field.type.isPackable = true) (htype : ∀ value ∈ values, value.type = field.type) :
    Datum.Conforms schema field (.packed values)
  | message {field : FieldDescription} {entries : List Entry} {nested : MessageType} (htype : field.type = .message)
      (hpacked : field.isPacked = false) (hnested : schema.messageOf? field = some nested)
      (hentries : ∀ entry ∈ entries, Entry.Conforms schema nested entry) :
    Datum.Conforms schema field (.message entries)

inductive Entry.Conforms (schema : Schema) : MessageType → Entry → Prop
  | intro {type : MessageType} {field : FieldDescription} {datum : Datum} (hnumber : field.number < 2 ^ 61)
      (hfield : type.field? field.number = some field) (hdatum : Datum.Conforms schema field datum) :
    Entry.Conforms schema type ⟨field, datum⟩

end

mutual

/-- How many levels of messages there are in the datum. -/
def Datum.depth : Datum → Nat
  | .message entries => Entry.depthAll entries + 1
  | _ => 0

def Entry.depth : Entry → Nat
  | ⟨_, datum⟩ => datum.depth

def Entry.depthAll : List Entry → Nat
  | [] => 0
  | entry :: rest => max entry.depth (Entry.depthAll rest)

end

/-! ### How it is written -/

/-- The values end to end, without tags. -/
def Scalar.row (values : List Scalar) : Bytes := values.flatMap fun value => value.payload.encode

mutual

def Datum.payload : Datum → Payload
  | .scalar value => value.payload
  | .packed values => .bytes (Scalar.row values)
  | .message entries => .bytes (Entry.encodeAll entries)

def Entry.encode : Entry → Bytes
  | ⟨field, datum⟩ => datum.payload.encodeUnder field.number

/-- The bytes of a message. -/
def Entry.encodeAll : List Entry → Bytes
  | [] => []
  | entry :: rest => entry.encode ++ Entry.encodeAll rest

end

/-! ### What it is read as -/

/-- The values with the bytes that each of them takes, if they lie end to end from `start` on. -/
def Scalar.placed : (start : Nat) → List Scalar → List (Span × Scalar)
  | _, [] => []
  | start, value :: rest =>
    (.ofLength start value.payload.encode.length, value) :: placed (start + value.payload.encode.length) rest

/-- A note for an enum number that the enum type has no name for. -/
def Scalar.notes (enumType : Option EnumType) (span : Span) : Scalar → List Diagnostic
  | .enum number _ =>
    match enumType with
    | some type => if (type.name? number).isSome then [] else [⟨span, .unresolvedEnumValue type.fullName number⟩]
    | none => []
  | _ => []

def Datum.notes (enumType : Option EnumType) (start : Nat) : Datum → List Diagnostic
  | .scalar value => value.notes enumType (.ofLength start value.payload.content.length)
  | .packed values => (Scalar.placed start values).flatMap fun (span, value) => value.notes enumType span
  | .message _ => []

mutual

/-- What the datum of a field is read as, if its content starts at `start`. -/
def Datum.value (schema : Schema) (field : FieldDescription) (start : Nat) : Datum → Value
  | .scalar value => .scalar (value.named (schema.enumOf? field))
  | .packed values =>
    .packed ((Scalar.placed start values).map fun (span, value) => ⟨span, value.named (schema.enumOf? field)⟩)
  | .message entries =>
    let name := ((schema.messageOf? field).map (·.fullName)).getD Message.unknownName
    .message ⟨name, .ofLength start (Entry.encodeAll entries).length, Entry.fields schema start entries, none, []⟩

/-- The field that the entry is read as, if its tag starts at `start`. -/
def Entry.shown (schema : Schema) (start : Nat) : Entry → Field
  | ⟨field, datum⟩ =>
    let first := datum.payload.contentStart start field.number
    ⟨field.number, datum.payload.wireType, .ofLength start (datum.payload.encodeUnder field.number).length,
      some field.name, field.type, datum.value schema field first, [], datum.notes (schema.enumOf? field) first⟩

def Entry.fields (schema : Schema) (start : Nat) : List Entry → List Field
  | [] => []
  | entry :: rest => entry.shown schema start :: Entry.fields schema (start + entry.encode.length) rest

end

/-- The message of a type that entries are read as, if they start at `start`. -/
def Entry.message (schema : Schema) (type : MessageType) (start : Nat) (entries : List Entry) : Message :=
  ⟨type.fullName, .ofLength start (encodeAll entries).length, fields schema start entries, none, []⟩

/-! ### Packed values -/

namespace Scalar

theorem lead_of_isPackable {value : Scalar} (h : value.type.isPackable = true) :
    value.payload.lead = [] ∧ value.type.wireType? = some value.payload.wireType := by
  cases value <;> first
    | exact ⟨rfl, rfl⟩
    | (simp [type, FieldType.isPackable, FieldType.wireType?] at h)

theorem not_isPackable_of_bytes {value : Scalar} {content : Bytes} (h : value.payload = .bytes content) :
    value.type.isPackable = false ∧ value.type ≠ .message := by
  cases value <;> simp [payload, type, FieldType.isPackable, FieldType.wireType?] at h ⊢

theorem exists_element {options : Options} (hbytes : options.bytesAsString = false) (enumType : Option EnumType)
    {value : Scalar} (hpackable : value.type.isPackable = true) (hshort : value.payload.encode.length < 2 ^ 64) :
    ∃ body : ItemBody, body.wireType = value.payload.wireType ∧ body.bytes = value.payload.encode ∧
      ∀ start, Packed.readElement options enumType value.type (body.located start) =
        .ok ⟨.ofLength start value.payload.encode.length, value.named enumType⟩ := by
  obtain ⟨hlead, -⟩ := lead_of_isPackable hpackable
  have hcontent : value.payload.encode = value.payload.content := by rw [Payload.encode, hlead, List.nil_append]
  rw [hcontent] at hshort
  obtain ⟨body, hpayload, hbodyLead, hbodyContent⟩ := value.payload.exists_body hshort
  refine ⟨body, ?_, ?_, ?_⟩
  · rw [← body.wireType_payload, hpayload]
  · rw [ItemBody.bytes, hbodyLead, hbodyContent, Payload.encode]
  · intro start
    have hspan : (body.located start).span = .ofLength start value.payload.content.length := by
      simp [ItemBody.located, hbodyLead, hbodyContent, hlead]
    have hread := read_payload hbytes enumType value
    rw [Packed.readElement, hspan, Span.length_ofLength, hcontent]
    simp only [ItemBody.located, hpayload, hread]

theorem split_row {options : Options} {type : FieldType} {wireType : WireType} {values : List Scalar}
    (hbytes : options.bytesAsString = false) (enumType : Option EnumType) (hpackable : type.isPackable = true)
    (hwireType : type.wireType? = some wireType) (htype : ∀ value ∈ values, value.type = type)
    (hshort : (row values).length < 2 ^ 64) (start : Nat) :
    ∃ located, Packed.split wireType start (row values) = .ok located ∧
      located.mapM (Packed.readElement options enumType type) =
        .ok ((placed start values).map fun (span, value) => ⟨span, value.named enumType⟩) := by
  induction values generalizing start with
  | nil => exact ⟨[], Packed.split_nil wireType start, rfl⟩
  | cons value values ih =>
    obtain rfl : value.type = type := htype value List.mem_cons_self
    obtain rfl : value.payload.wireType = wireType :=
      Option.some.inj ((lead_of_isPackable hpackable).2.symm.trans hwireType)
    have hrow : row (value :: values) = value.payload.encode ++ row values := rfl
    rw [hrow, List.length_append] at hshort
    obtain ⟨body, hkind, hbody, helement⟩ := exists_element hbytes enumType hpackable (by omega)
    have hread := Payload.read_append body start (row values)
    rw [hkind, hbody] at hread
    have hstop : (body.located start).span.stop = start + value.payload.encode.length := by
      rw [ItemBody.stop_located, hbody]
    obtain ⟨located, hsplit, helements⟩ := ih (fun v hv => htype v (List.mem_cons_of_mem _ hv)) (by omega)
      (start + value.payload.encode.length)
    refine ⟨body.located start :: located, ?_, ?_⟩
    · rw [hrow, Packed.split_of_read_ok hread, hstop, Nat.add_sub_cancel_left, List.drop_left, hsplit]
      rfl
    · rw [List.mapM_cons, helement, helements]
      rfl

theorem read_row {options : Options} {type : FieldType} {values : List Scalar}
    (hbytes : options.bytesAsString = false) (enumType : Option EnumType) (hpackable : type.isPackable = true)
    (htype : ∀ value ∈ values, value.type = type) (hshort : (row values).length < 2 ^ 64) (start : Nat) :
    Packed.read options enumType type start (row values) =
      .ok ((placed start values).map fun (span, value) => ⟨span, value.named enumType⟩) := by
  obtain ⟨wireType, hwireType⟩ : ∃ wireType, type.wireType? = some wireType := by
    cases hwireType : type.wireType? with
    | some wireType => exact ⟨wireType, rfl⟩
    | none => simp [FieldType.isPackable, hwireType] at hpackable
  obtain ⟨located, hsplit, helements⟩ := split_row hbytes enumType hpackable hwireType htype hshort start
  simp only [Packed.read, hpackable, hwireType, hsplit, helements]

theorem enumNotes_named (enumType : Option EnumType) (span : Span) (value : Scalar) :
    enumNotes enumType span (value.named enumType) = value.notes enumType span := by
  cases value with
  | enum number name =>
    cases enumType with
    | none => rfl
    | some type =>
      simp only [named, notes, Option.bind_some]
      cases hname : type.name? number with
      | none => rfl
      | some found => rfl
  | _ => cases enumType <;> rfl

end Scalar

/-! ### One entry -/

namespace Record

variable {options : Options} {schema : Schema} {embed : Option Embed} {field : FieldDescription}

theorem described_scalar (hbytes : options.bytesAsString = false) {value : Scalar} (htype : value.type = field.type)
    (hpacked : field.isPacked = true → field.type.isPackable = true) (start number : Nat) :
    let first := value.payload.contentStart start number
    (value.payload.record start number).described options schema embed field =
      ⟨field.type, (Datum.scalar value).value schema field first, [],
        (Datum.scalar value).notes (schema.enumOf? field) first⟩ := by
  intro first
  have hread := Scalar.read_payload hbytes (schema.enumOf? field) value
  rw [described_eq_asScalar]
  · simp only [asScalar, Payload.record, Span.length_ofLength, ← htype, hread, Scalar.enumNotes_named]
    rw [Datum.value, Datum.notes]
  · intro content hpayload
    obtain ⟨hpackable, hmessage⟩ := Scalar.not_isPackable_of_bytes hpayload
    rw [htype] at hpackable hmessage
    refine ⟨?_, hpackable, hmessage⟩
    by_contra hfield
    rw [hpacked (Bool.eq_true_of_not_eq_false hfield)] at hpackable
    cases hpackable

theorem described_packed (hbytes : options.bytesAsString = false) {values : List Scalar}
    (hrepeated : field.isRepeated = true) (hpackable : field.type.isPackable = true)
    (htype : ∀ value ∈ values, value.type = field.type) (hshort : (Scalar.row values).length < 2 ^ 64)
    (start number : Nat) :
    let first := (Payload.bytes (Scalar.row values)).contentStart start number
    ((Payload.bytes (Scalar.row values)).record start number).described options schema embed field =
      ⟨field.type, (Datum.packed values).value schema field first, [],
        (Datum.packed values).notes (schema.enumOf? field) first⟩ := by
  intro first
  have hread := Scalar.read_row hbytes (schema.enumOf? field) hpackable htype hshort first
  rw [described_eq_asPacked rfl hrepeated hpackable]
  simp only [asPacked, Payload.record, Span.start_ofLength, first, hread]
  rw [Datum.value, Datum.notes, List.flatMap_map]
  simp only [Scalar.enumNotes_named]

theorem described_message {entries : List Entry} {nested : MessageType} {enter : Embed}
    (htype : field.type = .message) (hpacked : field.isPacked = false)
    (hnested : schema.messageOf? field = some nested) (start number : Nat)
    (hinner : ∀ first, enter nested first (Entry.encodeAll entries) = Entry.message schema nested first entries) :
    let first := (Payload.bytes (Entry.encodeAll entries)).contentStart start number
    ((Payload.bytes (Entry.encodeAll entries)).record start number).described options schema (some enter) field =
      ⟨field.type, (Datum.message entries).value schema field first, [],
        (Datum.message entries).notes (schema.enumOf? field) first⟩ := by
  intro first
  rw [described_eq_asMessage rfl htype hpacked]
  simp only [asMessage, hnested, Payload.record, Span.start_ofLength, hinner]
  rw [Datum.value, Datum.notes, hnested]
  rfl

end Record

namespace Entry

/-- The record that the entry is written as, if its tag starts at `start`. -/
def record (start : Nat) (entry : Entry) : Record := entry.datum.payload.record start entry.field.number

variable {options : Options} {schema : Schema} {embed : Option Embed} {type : MessageType}

theorem length_content_le (entry : Entry) : entry.datum.payload.content.length ≤ entry.encode.length := by
  obtain ⟨field, datum⟩ := entry
  simp only [encode, Payload.encodeUnder, Payload.encode, List.length_append]
  omega

theorem decode_record (hbytes : options.bytesAsString = false) {entry : Entry} (hentry : entry.Conforms schema type)
    (hshort : entry.encode.length < 2 ^ 64)
    (hinner : ∀ nested entries, entry.datum = .message entries → (∀ inner ∈ entries, inner.Conforms schema nested) →
      ∃ enter, embed = some enter ∧ ∀ first, enter nested first (encodeAll entries) = message schema nested first entries)
    (start : Nat) :
    (entry.record start).decode options schema embed (some type) = entry.shown schema start := by
  have hcontent := Nat.lt_of_le_of_lt entry.length_content_le hshort
  cases hentry with
  | @intro type field datum hnumber hfield hdatum =>
    have hdescribe : describe (some type) (record start ⟨field, datum⟩).number = some field := hfield
    have hdescribed : (record start ⟨field, datum⟩).described options schema embed field =
        ⟨field.type, datum.value schema field (datum.payload.contentStart start field.number), [],
          datum.notes (schema.enumOf? field) (datum.payload.contentStart start field.number)⟩ := by
      cases hdatum with
      | scalar htype hpacked => exact Record.described_scalar hbytes htype hpacked start field.number
      | packed hrepeated hpackable htype =>
        exact Record.described_packed hbytes hrepeated hpackable htype hcontent start field.number
      | message htype hpacked hnested hentries =>
        obtain ⟨enter, rfl, henter⟩ := hinner _ _ rfl hentries
        exact Record.described_message htype hpacked hnested start field.number henter
    unfold Record.decode
    rw [hdescribe]
    show (record start ⟨field, datum⟩).field (some field.name) _ = _
    rw [hdescribed]
    rfl

theorem exists_item {entry : Entry} (hentry : entry.Conforms schema type) (hshort : entry.encode.length < 2 ^ 64) :
    ∃ item : Item, item.bytes = entry.encode ∧ ∀ start, item.record start = entry.record start := by
  have hcontent := Nat.lt_of_le_of_lt entry.length_content_le hshort
  cases hentry with
  | intro hnumber => exact Payload.exists_item hnumber hcontent

/-! ### All entries -/

theorem exists_items {entries : List Entry} (hentries : ∀ entry ∈ entries, entry.Conforms schema type)
    (hshort : (encodeAll entries).length < 2 ^ 64)
    (hdecode : ∀ entry ∈ entries, ∀ start,
      (entry.record start).decode options schema embed (some type) = entry.shown schema start) (start : Nat) :
    ∃ items, Item.spell items = encodeAll entries ∧
      (Item.records start items).map (Record.decode options schema embed (some type)) = fields schema start entries := by
  induction entries generalizing start with
  | nil => exact ⟨[], rfl, rfl⟩
  | cons entry entries ih =>
    have hlength : (encodeAll (entry :: entries)).length = entry.encode.length + (encodeAll entries).length :=
      List.length_append
    obtain ⟨item, hbytes, hrecord⟩ := exists_item (hentries entry List.mem_cons_self) (by omega)
    obtain ⟨items, hspell, hfields⟩ := ih (fun e he => hentries e (List.mem_cons_of_mem _ he)) (by omega)
      (fun e he => hdecode e (List.mem_cons_of_mem _ he)) (start + entry.encode.length)
    refine ⟨item :: items, ?_, ?_⟩
    · rw [Item.spell_cons, hbytes, hspell, encodeAll]
    · rw [Item.records, List.map_cons, hrecord, hdecode entry List.mem_cons_self, hbytes, hfields, fields]

theorem depth_le_depthAll {entry : Entry} {entries : List Entry} (h : entry ∈ entries) :
    entry.depth ≤ depthAll entries := by
  induction entries with
  | nil => cases h
  | cons first rest ih =>
    rw [depthAll]
    rcases List.mem_cons.1 h with rfl | h
    · exact Nat.le_max_left _ _
    · exact Nat.le_trans (ih h) (Nat.le_max_right _ _)

theorem length_encode_le {entry : Entry} {entries : List Entry} (h : entry ∈ entries) :
    entry.encode.length ≤ (encodeAll entries).length := by
  induction entries with
  | nil => cases h
  | cons first rest ih =>
    rw [encodeAll, List.length_append]
    rcases List.mem_cons.1 h with rfl | h
    · omega
    · have := ih h
      omega

/-- Entries are decoded as the message that they show, if the budget covers their levels. -/
theorem ofBudget_encodeAll (hbytes : options.bytesAsString = false) {budget : Nat} {entries : List Entry}
    (hentries : ∀ entry ∈ entries, entry.Conforms schema type) (hdepth : depthAll entries ≤ budget)
    (hshort : (encodeAll entries).length < 2 ^ 64) (start : Nat) :
    Message.ofBudget options schema budget (some type) start (encodeAll entries) =
      message schema type start entries := by
  induction budget using Nat.strongRecOn generalizing type entries start with
  | ind budget ih =>
    have hdecode : ∀ entry ∈ entries, ∀ start,
        (entry.record start).decode options schema (Message.entering options schema budget) (some type) =
          entry.shown schema start := by
      intro entry hentry start
      have hlength := length_encode_le hentry
      refine decode_record hbytes (hentries entry hentry) (by omega) ?_ start
      intro nested inner hdatum hinner
      -- A message in an entry takes one level of the budget, and the rest of its budget covers it.
      have hlevels : depthAll inner + 1 ≤ budget := by
        have := depth_le_depthAll hentry
        obtain ⟨field, datum⟩ := entry
        subst hdatum
        simp only [depth, Datum.depth] at this
        omega
      have hcontent : (encodeAll inner).length < 2 ^ 64 := by
        have := entry.length_content_le
        rw [hdatum] at this
        exact Nat.lt_of_le_of_lt (Nat.le_trans this hlength) hshort
      obtain ⟨fewer, rfl⟩ : ∃ fewer, budget = fewer + 1 := ⟨budget - 1, by omega⟩
      exact ⟨_, rfl, fun first => ih fewer (Nat.lt_succ_self _) hinner (by omega) hcontent first⟩
    obtain ⟨items, hspell, hfields⟩ := exists_items hentries hshort hdecode start
    rw [Message.ofBudget_eq, Message.ofWindow, ← hspell, Framing.ofWindow_spell, hspell]
    simp only [hfields, Option.bind_none, Option.toList_none, List.append_nil]
    rfl

end Entry

/-! ### Notes -/

theorem Scalar.info_of_mem_notes {enumType : Option EnumType} {span : Span} {value : Scalar} {diagnostic : Diagnostic}
    (h : diagnostic ∈ value.notes enumType span) : diagnostic.severity = .info := by
  unfold notes at h
  split at h
  · split at h
    · split at h
      · cases h
      · rw [List.mem_singleton.1 h]
        rfl
    · cases h
  · cases h

theorem Datum.info_of_mem_notes {enumType : Option EnumType} {start : Nat} {datum : Datum} {diagnostic : Diagnostic}
    (h : diagnostic ∈ datum.notes enumType start) : diagnostic.severity = .info := by
  cases datum with
  | scalar value => exact Scalar.info_of_mem_notes h
  | packed values =>
    obtain ⟨placed, -, h⟩ := List.mem_flatMap.1 h
    exact Scalar.info_of_mem_notes h
  | message entries => cases h

mutual

theorem Datum.info_of_mem {schema : Schema} {field : FieldDescription} {start : Nat} {diagnostic : Diagnostic} :
    (datum : Datum) → diagnostic ∈ (datum.value schema field start).allDiagnostics → diagnostic.severity = .info
  | .scalar value, h => by
    simp only [Datum.value, Value.allDiagnostics] at h
    cases h
  | .packed values, h => by
    simp only [Datum.value, Value.allDiagnostics] at h
    cases h
  | .message entries, h => by
    rw [Datum.value, Value.allDiagnostics, Message.allDiagnostics] at h
    exact Entry.info_of_mem_fields entries h

theorem Entry.info_of_mem {schema : Schema} {start : Nat} {diagnostic : Diagnostic} :
    (entry : Entry) → diagnostic ∈ (entry.shown schema start).allDiagnostics → diagnostic.severity = .info
  | ⟨field, datum⟩, h => by
    rw [Entry.shown, Field.allDiagnostics] at h
    rcases List.mem_append.1 h with h | h
    · exact Datum.info_of_mem_notes h
    · exact datum.info_of_mem h

theorem Entry.info_of_mem_fields {schema : Schema} {start : Nat} {diagnostic : Diagnostic} :
    (entries : List Entry) → diagnostic ∈ allFieldDiagnostics (Entry.fields schema start entries) →
      diagnostic.severity = .info
  | [], h => by cases h
  | entry :: rest, h => by
    rw [Entry.fields, allFieldDiagnostics] at h
    rcases List.mem_append.1 h with h | h
    · exact entry.info_of_mem h
    · exact Entry.info_of_mem_fields rest h

end

/-! ### Round trip -/

/-- A message that was written is decoded as what was written, and nothing in it is wrong. -/
theorem Message.decode_encodeAll {options : Options} {schema : Schema} {type : MessageType} {entries : List Entry}
    (hentries : ∀ entry ∈ entries, entry.Conforms schema type) (hdepth : Entry.depthAll entries ≤ options.maxDepth)
    (hbytes : options.bytesAsString = false) (hshort : (Entry.encodeAll entries).length < 2 ^ 63) :
    decode options schema (some type) (Entry.encodeAll entries) = Entry.message schema type 0 entries ∧
      (decode options schema (some type) (Entry.encodeAll entries)).isComplete = true := by
  have hdecode : decode options schema (some type) (Entry.encodeAll entries) = Entry.message schema type 0 entries := by
    rw [decode_eq]
    exact Entry.ofBudget_encodeAll hbytes hentries hdepth (by omega) 0
  refine ⟨hdecode, ?_⟩
  rw [hdecode, isComplete, List.all_eq_true]
  intro diagnostic h
  rw [Entry.message, allDiagnostics, List.nil_append] at h
  rw [Entry.info_of_mem_fields entries h]
  rfl

theorem Message.decode_encodeAll_leaf :
    let hue : FieldDescription := ⟨"hue", 1, .enum, .packed, some (.enum ⟨0⟩)⟩
    let child : FieldDescription := ⟨"child", 2, .message, .repeated, some (.message ⟨0⟩)⟩
    let schema := Schema.build [.insertMessage "Leaf", .insertEnum "Hue", .addEnumValue ⟨0⟩ "RED" (-1),
      .addField ⟨0⟩ hue, .addField ⟨0⟩ child]
    let leaf : MessageType := ⟨"Leaf", ⟨0⟩, [(1, hue), (2, child)]⟩
    let entries : List Entry :=
      [⟨child, .message [⟨hue, .scalar (.enum (-1) none)⟩]⟩, ⟨hue, .packed [.enum (-1) none, .enum 7 none]⟩]
    (∀ entry ∈ entries, entry.Conforms schema leaf) ∧ Entry.depthAll entries ≤ ({} : Options).maxDepth ∧
      ({} : Options).bytesAsString = false ∧ (Entry.encodeAll entries).length < 2 ^ 63 ∧
      decode {} schema (some leaf) (Entry.encodeAll entries) = Entry.message schema leaf 0 entries ∧
      (decode {} schema (some leaf) (Entry.encodeAll entries)).isComplete = true := by
  intro hue child schema leaf entries
  have hnested : schema.messageOf? child = some leaf := by decide
  have hentries : ∀ entry ∈ entries, entry.Conforms schema leaf := by
    intro entry h
    rcases List.mem_cons.1 h with rfl | h
    · refine .intro (by decide) (by decide) (.message rfl rfl hnested fun inner h => ?_)
      rw [List.mem_singleton.1 h]
      exact .intro (by decide) (by decide) (.scalar rfl fun _ => rfl)
    · rw [List.mem_singleton.1 h]
      exact .intro (by decide) (by decide) (.packed rfl rfl (by decide))
  have hdepth : Entry.depthAll entries ≤ ({} : Options).maxDepth := by decide
  have hshort : (Entry.encodeAll entries).length < 2 ^ 63 := by decide
  exact ⟨hentries, hdepth, rfl, hshort, decode_encodeAll hentries hdepth rfl hshort⟩

/-- Text in a packed field is not read back as text. -/
theorem Message.decode_text_of_packed :
    let field : FieldDescription := ⟨"s", 1, .string, .packed, none⟩
    let schema := Schema.build [.insertMessage "M", .addField ⟨0⟩ field]
    let type : MessageType := ⟨"M", ⟨0⟩, [(1, field)]⟩
    let entries : List Entry := [⟨field, .scalar (.string "a")⟩]
    schema.messageNamed? "M" = some type ∧ type.field? 1 = some field ∧ field.number < 2 ^ 61 ∧
      (Scalar.string "a").type = field.type ∧ Entry.depthAll entries ≤ ({} : Options).maxDepth ∧
      ({} : Options).bytesAsString = false ∧ (Entry.encodeAll entries).length < 2 ^ 63 ∧
      decode {} schema (some type) (Entry.encodeAll entries) ≠ Entry.message schema type 0 entries := by
  intro field schema type entries
  refine ⟨by decide, by decide, by decide, rfl, by decide, rfl, by decide, fun h => ?_⟩
  have hbytes : Entry.encodeAll entries = [10, 1, 97] := by decide
  have hread : Record.read 0 [10, 1, 97] = .ok ⟨1, .lengthDelimited, ⟨0, 3⟩, .bytes [97], ⟨2, 3⟩⟩ := by decide
  have hkept : (Record.decode {} schema (entering {} schema 100) (some type)
      ⟨1, .lengthDelimited, ⟨0, 3⟩, .bytes [97], ⟨2, 3⟩⟩).diagnostics = [⟨⟨2, 3⟩, .notPackable .string⟩] := by
    have hdescribe : describe (some type) 1 = some field := by decide
    simp only [Record.decode, hdescribe]
    rw [Record.described_eq_keep rfl rfl rfl]
    rfl
  have hdiagnostics := congrArg (fun message => message.fields.map (·.diagnostics)) h
  simp only [hbytes, decode_eq, ofBudget_eq, fields_ofWindow, Framing.ofWindow_of_read_ok hread] at hdiagnostics
  rw [List.map_cons, List.cons_append, List.map_cons, hkept] at hdiagnostics
  cases (List.cons.inj hdiagnostics).1

end WireTree
