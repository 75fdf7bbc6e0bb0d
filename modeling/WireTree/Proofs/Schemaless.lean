import WireTree.Proofs.Nesting

/-!
# Decoding without schema

Without schema a buffer decodes without a complaint just when it is a row of items, and the items are then settled by the
bytes. Each becomes one field: a number is shown in the smaller of two widths that holds it, so none of its bits is lost,
and other content is kept as it is, or as text on request.
-/

namespace WireTree

/-! ### How an item is shown -/

/-- The number that a body holds, if it holds one. -/
def ItemBody.number? : ItemBody → Option Nat
  | varint number => some number.value.toNat
  | fixed64 content _ | fixed32 content _ => some (LittleEndian.decode content)
  | lengthDelimited .. => none

/-- The one type and value that a body is shown as, when nothing describes it. -/
inductive ItemBody.Plain (options : Options) : ItemBody → FieldType → Scalar → Prop
  | small {body : ItemBody} (value : UInt32) (hnumber : body.number? = some value.toNat) :
    Plain options body .uint32 (.uint32 value)
  | large {body : ItemBody} (value : UInt64) (hnumber : body.number? = some value.toNat)
      (hlarge : 2 ^ 32 ≤ value.toNat) : Plain options body .uint64 (.uint64 value)
  | kept (lead : Varint.Spelling) (content : Bytes) (hfits : content.length = lead.value.toNat)
      (hguess : options.guessString = false) :
    Plain options (.lengthDelimited lead content hfits) .none (.raw (.bytes content))
  | text (lead : Varint.Spelling) (content : Bytes) (hfits : content.length = lead.value.toNat)
      (hguess : options.guessString = true) :
    Plain options (.lengthDelimited lead content hfits) .string (.string (Utf8.lossyText content))

/-- How a field without description shows an item that starts at `start`. -/
structure Item.ShownAs (options : Options) (start : Nat) (item : Item) (field : Field) : Prop where
  number : field.number = item.number
  wireType : field.wireType = item.body.wireType
  span : field.span = .ofLength start item.bytes.length
  name : field.name = none
  diagnostics : field.diagnostics = []
  value : options.allCandidates = false →
    field.candidates = [] ∧ ∃ scalar, field.value = .scalar scalar ∧ item.body.Plain options field.type scalar

/-- The fields show the items one by one, the first of which starts at `start`. -/
inductive Item.Show (options : Options) : (start : Nat) → List Item → List Field → Prop
  | nil (start : Nat) : Show options start [] []
  | cons {start : Nat} {item : Item} {field : Field} {items : List Item} {fields : List Field}
      (hfield : item.ShownAs options start field) (hrest : Show options (start + item.bytes.length) items fields) :
    Show options start (item :: items) (field :: fields)

/-! ### Guessing -/

theorem LittleEndian.decode_lt (bytes : Bytes) : decode bytes < 256 ^ bytes.length := by
  induction bytes with
  | nil => simp [decode]
  | cons byte rest ih =>
    have hbyte := byte.toNat_lt
    simp only [decode, List.length_cons, Nat.pow_succ]
    omega

namespace Record

theorem guessed_of_number {options : Options} {record : Record} {value : UInt64}
    (hkind : record.wireType = .varint ∨ record.wireType = .fixed64 ∨ record.wireType = .fixed32)
    (hnumber : record.payload.number? = some value) :
    record.guessed options =
      if value.toNat < UInt32.size then .ofScalar .uint32 (.uint32 value.toUInt32)
      else .ofScalar .uint64 (.uint64 value) := by
  have htype : guessType options record.wireType (some value) =
      if value.toNat < UInt32.size then .uint32 else .uint64 := by
    rcases hkind with hkind | hkind | hkind <;> rw [hkind] <;> rfl
  by_cases hsmall : value.toNat < UInt32.size
  · rw [if_pos hsmall] at htype ⊢
    simp only [guessed, hnumber, htype]
  · rw [if_neg hsmall] at htype ⊢
    simp only [guessed, hnumber, htype]

theorem guessed_of_content {options : Options} {record : Record} {content : Bytes}
    (hkind : record.wireType = .lengthDelimited) (hpayload : record.payload = .bytes content) :
    record.guessed options =
      if options.guessString then .ofScalar .string (.string (Utf8.lossyText content))
      else .ofScalar .none (.raw (.bytes content)) := by
  unfold guessed
  by_cases hguess : options.guessString = true
  · simp [guessType, hkind, hpayload, hguess, Payload.number?, Scalar.read, Scalar.convert, FieldType.wireType?,
      Payload.wireType]
  · simp [guessType, hkind, hpayload, hguess, Payload.number?, Scalar.read, FieldType.wireType?]

end Record

namespace Item

variable {options : Options}

theorem ShownAs.of_reading {start : Nat} {item : Item} {type : FieldType} {scalar : Scalar}
    (hguessed : (item.record start).guessed options = .ofScalar type scalar)
    (hplain : item.body.Plain options type scalar) (hall : options.allCandidates = false) :
    item.ShownAs options start ((item.record start).field none ((item.record start).undescribed options)) := by
  have hundescribed : (item.record start).undescribed options = .ofScalar type scalar := by
    simp [Record.undescribed, hall, hguessed]
  rw [hundescribed]
  exact ⟨rfl, rfl, rfl, rfl, rfl, fun _ => ⟨rfl, scalar, rfl, hplain⟩⟩

theorem shownAs_of_number {start : Nat} {item : Item} {value : UInt64} (hall : options.allCandidates = false)
    (hkind : item.body.wireType = .varint ∨ item.body.wireType = .fixed64 ∨ item.body.wireType = .fixed32)
    (hpayload : item.body.payload.number? = some value) (hnumber : item.body.number? = some value.toNat) :
    item.ShownAs options start ((item.record start).field none ((item.record start).undescribed options)) := by
  have hguessed : (item.record start).guessed options = _ := Record.guessed_of_number hkind hpayload
  by_cases hsmall : value.toNat < UInt32.size
  · rw [if_pos hsmall] at hguessed
    refine .of_reading hguessed (.small _ ?_) hall
    rw [hnumber, UInt64.toNat_toUInt32, Nat.mod_eq_of_lt hsmall]
  · rw [if_neg hsmall] at hguessed
    exact .of_reading hguessed (.large _ hnumber (Nat.not_lt.1 hsmall)) hall

theorem shownAs_undescribed (options : Options) (start : Nat) (item : Item) :
    item.ShownAs options start ((item.record start).field none ((item.record start).undescribed options)) := by
  by_cases hall : options.allCandidates = true
  · have hundescribed : (item.record start).undescribed options = ⟨.none, .scalar (.raw item.body.payload),
        item.body.payload.candidates options (item.record start).valueSpan.length, []⟩ := by
      simp only [Record.undescribed, hall, if_true]
      rfl
    rw [hundescribed]
    refine ⟨rfl, rfl, rfl, rfl, rfl, fun hall' => ?_⟩
    rw [hall] at hall'
    cases hall'
  have hall : options.allCandidates = false := by simpa using hall
  obtain ⟨tag, body, hkind⟩ := item
  cases body with
  | varint number => exact shownAs_of_number hall (.inl rfl) rfl rfl
  | fixed64 content hwidth =>
    have hbound := LittleEndian.decode_lt content
    rw [hwidth] at hbound
    refine shownAs_of_number hall (.inr (.inl rfl)) rfl ?_
    rw [UInt64.toNat_ofNat_of_lt' hbound]
    rfl
  | fixed32 content hwidth =>
    have hbound := LittleEndian.decode_lt content
    rw [hwidth] at hbound
    refine shownAs_of_number hall (.inr (.inr rfl)) rfl ?_
    rw [UInt32.toNat_toUInt64, UInt32.toNat_ofNat_of_lt' hbound]
    rfl
  | lengthDelimited lead content hfits =>
    have hguessed : (Item.record start ⟨tag, .lengthDelimited lead content hfits, hkind⟩).guessed options = _ :=
      Record.guessed_of_content rfl rfl
    by_cases hguess : options.guessString = true
    · rw [if_pos hguess] at hguessed
      exact .of_reading hguessed (.text lead content hfits hguess) hall
    · rw [if_neg hguess] at hguessed
      exact .of_reading hguessed (.kept lead content hfits (by simpa using hguess)) hall

theorem show_records (options : Options) (schema : Schema) (embed : Option Embed) (start : Nat) (items : List Item) :
    Show options start items ((records start items).map (Record.decode options schema embed none)) := by
  induction items generalizing start with
  | nil => exact .nil start
  | cons item items ih => exact .cons (shownAs_undescribed options start item) (ih _)

end Item

/-! ### Complaints -/

theorem Field.allDiagnostics_eq (field : Field) :
    field.allDiagnostics = field.diagnostics ++ field.value.allDiagnostics := by
  obtain ⟨number, wireType, span, name, type, value, candidates, diagnostics⟩ := field
  rw [allDiagnostics]

theorem DecodeError.severity_of_read {wireType : WireType} {start : Nat} {window : Bytes} {error : DecodeError}
    (h : Payload.read wireType start window = .error error) : error.severity = .error := by
  cases wireType with
  | varint =>
    simp only [Payload.read] at h
    split at h <;> cases h <;> rfl
  | fixed64 =>
    simp only [Payload.read, Payload.ofWidth] at h
    split at h <;> cases h
    rfl
  | fixed32 =>
    simp only [Payload.read, Payload.ofWidth] at h
    split at h <;> cases h
    rfl
  | lengthDelimited =>
    simp only [Payload.read] at h
    split at h
    · cases h
      rfl
    · split at h <;> cases h
      rfl
  | startGroup =>
    cases h
    rfl
  | endGroup =>
    cases h
    rfl

namespace Message

variable {options : Options} {schema : Schema} {embed : Option Embed} {type : Option MessageType} {start : Nat}
  {window : Bytes}

theorem allDiagnostics_eq (message : Message) :
    message.allDiagnostics = message.diagnostics ++ message.fields.flatMap Field.allDiagnostics := by
  obtain ⟨name, span, fields, garbage, diagnostics⟩ := message
  rw [allDiagnostics, allFieldDiagnostics_eq_flatMap]

theorem isComplete_eq_false {message : Message} {diagnostic : Diagnostic}
    (hmem : diagnostic ∈ message.allDiagnostics) (herror : diagnostic.severity = .error) :
    message.isComplete = false := by
  rw [isComplete, List.all_eq_false]
  exact ⟨diagnostic, hmem, by simp [herror]⟩

theorem exists_error_of_explains (type : Option MessageType) {start : Nat} {rest : Bytes} {stop : Stop}
    (h : stop.Explains start rest) :
    ∃ diagnostic : Diagnostic, diagnostic.severity = .error ∧
      (diagnostic ∈ stop.diagnostics ∨ ∃ field, stop.field? type = some field ∧ diagnostic ∈ field.diagnostics) := by
  cases h with
  | malformed => exact ⟨_, rfl, .inl (List.mem_singleton.2 rfl)⟩
  | unsupported => exact ⟨_, rfl, .inl (List.mem_singleton.2 rfl)⟩
  | incomplete tag wireType content error hrest hkind hbody =>
    refine ⟨⟨.ofLength start rest.length, error⟩, DecodeError.severity_of_read hbody, .inr ⟨_, rfl, ?_⟩⟩
    exact List.mem_singleton.2 rfl

theorem isComplete_of_stop {stop : Stop} {rest : Bytes} {offset : Nat} (hexplains : stop.Explains offset rest)
    (hstop : (Framing.ofWindow start window).stop = some stop) :
    (ofWindow options schema embed type start window).isComplete = false := by
  obtain ⟨diagnostic, herror, hmem⟩ := exists_error_of_explains type hexplains
  refine isComplete_eq_false ?_ herror
  rw [allDiagnostics_eq, diagnostics_ofWindow, fields_ofWindow, hstop]
  rcases hmem with hmem | ⟨field, hfield, hmem⟩
  · exact List.mem_append_left _ hmem
  · refine List.mem_append_right _ (List.mem_flatMap.2 ⟨field, ?_, ?_⟩)
    · exact List.mem_append_right _ (by simp [hfield])
    · rw [Field.allDiagnostics_eq]
      exact List.mem_append_left _ hmem

theorem allDiagnostics_of_show {items : List Item} {fields : List Field}
    (h : Item.Show options start items fields)
    (hscalar : ∀ field ∈ fields, ∃ scalar, field.value = .scalar scalar) :
    fields.flatMap Field.allDiagnostics = [] := by
  induction h with
  | nil => rfl
  | @cons start item field items fields hfield _ ih =>
    obtain ⟨scalar, hvalue⟩ := hscalar field List.mem_cons_self
    rw [List.flatMap_cons, Field.allDiagnostics_eq, hfield.diagnostics, hvalue,
      ih fun field hmem => hscalar field (List.mem_cons_of_mem _ hmem)]
    rfl

theorem decodeSchemaless_eq (options : Options) (data : Bytes) :
    decodeSchemaless options data =
      ofWindow options {} (entering options {} options.maxDepth) none 0 data := by
  rw [decodeSchemaless, decode_eq, ofBudget_eq]

theorem decodeSchemaless_spell (options : Options) (items : List Item) :
    Item.Show options 0 items (decodeSchemaless options (Item.spell items)).fields ∧
      (decodeSchemaless options (Item.spell items)).garbage = none ∧
        (decodeSchemaless options (Item.spell items)).allDiagnostics = [] := by
  have hframing := Framing.ofWindow_spell 0 items
  have hfields : (decodeSchemaless options (Item.spell items)).fields =
      (Item.records 0 items).map (Record.decode options {} (entering options {} options.maxDepth) none) := by
    rw [decodeSchemaless_eq, fields_ofWindow, hframing]
    simp
  have hshow := Item.show_records options {} (entering options {} options.maxDepth) 0 items
  rw [← hfields] at hshow
  refine ⟨hshow, by rw [decodeSchemaless_eq, garbage_ofWindow, hframing]; rfl, ?_⟩
  rw [allDiagnostics_eq, allDiagnostics_of_show hshow, List.append_nil, decodeSchemaless_eq,
    diagnostics_ofWindow, hframing]
  · rfl
  · intro field hfield
    rw [hfields] at hfield
    obtain ⟨record, -, rfl⟩ := List.mem_map.1 hfield
    exact Record.scalar_of_undescribed options record

/-- Without schema a buffer is complete just when it is a row of items, which its bytes settle and its fields show. -/
theorem isComplete_decodeSchemaless_iff (options : Options) (data : Bytes) :
    ((decodeSchemaless options data).isComplete = true ↔ ∃ items, Item.spell items = data) ∧
      ∀ items, Item.spell items = data →
        (∀ others, Item.spell others = data → others = items) ∧
          (decodeSchemaless options data).allDiagnostics = [] ∧
          (decodeSchemaless options data).garbage = none ∧
          Item.Show options 0 items (decodeSchemaless options data).fields := by
  constructor
  · constructor
    · intro hcomplete
      obtain ⟨items, rest, rfl, ⟨rfl, -⟩ | ⟨stop, -, hexplains, hends⟩⟩ := Framing.exists_items 0 data
      · exact ⟨items, by simp⟩
      · rw [decodeSchemaless_eq, isComplete_of_stop hexplains (by rw [hends])] at hcomplete
        cases hcomplete
    · rintro ⟨items, rfl⟩
      rw [isComplete, (decodeSchemaless_spell options items).2.2]
      rfl
  · rintro items rfl
    obtain ⟨hshow, hgarbage, hdiagnostics⟩ := decodeSchemaless_spell options items
    exact ⟨fun others hothers => Item.spell_inj hothers, hdiagnostics, hgarbage, hshow⟩

end Message

end WireTree
