import WireTree.Proofs.TypeSoundness

/-!
# Records that are entered

A record is entered if its content is to be read as a message: its number is described as a single or repeated field of a
message type that the schema has. Only then does its field depend on how many levels may be entered, and on what they are
entered with. Every other record gives one field, whatever the limit is, and that field neither holds a message nor
complains that one lies too deep. So two runs that differ in the limit are compared record by record.
-/

namespace WireTree

/-- Whether the error says that a message lies too deep. -/
def DecodeError.isNestingLimit : DecodeError → Bool
  | .nestingLimit _ => true
  | _ => false

/-- Whether the field holds no message and leaves none out for lying too deep. -/
structure Field.Flat (field : Field) : Prop where
  value : ∀ embedded, field.value ≠ .message embedded
  diagnostics : ∀ diagnostic ∈ field.diagnostics, diagnostic.error.isNestingLimit = false

/-! ### Errors that do not tell the limit -/

namespace Scalar

theorem read_withLimit (options : Options) (limit : Nat) :
    read { options with maxDepth := limit } = read options := by
  funext enumType type length payload
  unfold read convert
  rfl

theorem isNestingLimit_of_read {options : Options} {enumType : Option EnumType} {type : FieldType} {length : Nat}
    {payload : Payload} {error : DecodeError} (h : read options enumType type length payload = .error error) :
    error.isNestingLimit = false := by
  rcases error_cases h with rfl | ⟨expected, actual, rfl⟩ | rfl | rfl <;> rfl

end Scalar

namespace Packed

theorem read_withLimit (options : Options) (limit : Nat) :
    read { options with maxDepth := limit } = read options := by
  funext enumType type start content
  unfold read readElement
  rw [Scalar.read_withLimit]

theorem isNestingLimit_of_read {options : Options} {enumType : Option EnumType} {type : FieldType} {start : Nat}
    {content : Bytes} {error : DecodeError} (h : read options enumType type start content = .error error) :
    error.isNestingLimit = false := by
  rcases error_of_read h with ⟨-, rfl⟩ | ⟨-, fault, rfl⟩ <;> rfl

end Packed

theorem DecodeError.isNestingLimit_of_offWire {error : DecodeError} (h : error.OffWire) :
    error.isNestingLimit = false := by
  cases h <;> rfl

theorem isNestingLimit_of_mem_enumNotes {enumType : Option EnumType} {span : Span} {value : Scalar}
    {diagnostic : Diagnostic} (h : diagnostic ∈ enumNotes enumType span value) :
    diagnostic.error.isNestingLimit = false := by
  unfold enumNotes at h
  split at h
  · obtain rfl := List.mem_singleton.1 h
    rfl
  · cases h

/-! ### Fields without messages -/

namespace Record

variable {options : Options} {schema : Schema} {embed : Option Embed} {type : Option MessageType} {record : Record}

theorem flat_scalar (record : Record) (name : Option String) (type : FieldType) (value : Scalar)
    (candidates : List Candidate) : (record.field name ⟨type, .scalar value, candidates, []⟩).Flat :=
  ⟨fun _ => Value.noConfusion, fun _ h => absurd h List.not_mem_nil⟩

theorem flat_keep (record : Record) (name : Option String) (type : FieldType) {error : DecodeError}
    (herror : error.isNestingLimit = false) : (record.field name (record.keep type error)).Flat := by
  refine ⟨fun _ => Value.noConfusion, fun diagnostic h => ?_⟩
  obtain rfl := List.mem_singleton.1 h
  exact herror

theorem flat_asScalar (options : Options) (enumType : Option EnumType) (description : FieldDescription)
    (record : Record) (name : Option String) :
    (record.field name (record.asScalar options enumType description)).Flat := by
  unfold asScalar
  split
  · exact ⟨fun _ => Value.noConfusion, fun _ h => isNestingLimit_of_mem_enumNotes h⟩
  · rename_i error hread
    exact flat_keep record name _ (Scalar.isNestingLimit_of_read hread)

theorem flat_asPacked (options : Options) (enumType : Option EnumType) (description : FieldDescription)
    (record : Record) (content : Bytes) (name : Option String) :
    (record.field name (record.asPacked options enumType description content)).Flat := by
  unfold asPacked
  split
  · refine ⟨fun _ => Value.noConfusion, fun diagnostic h => ?_⟩
    obtain ⟨element, -, hnote⟩ := List.mem_flatMap.1 h
    exact isNestingLimit_of_mem_enumNotes hnote
  · rename_i error hread
    exact flat_keep record name _ (Packed.isNestingLimit_of_read hread)

theorem flat_undescribed (options : Options) (record : Record) (name : Option String) :
    (record.field name (record.undescribed options)).Flat := by
  rcases undescribed_cases options record with ⟨-, hreading⟩ | ⟨-, scalar, hreading⟩ | ⟨-, error, hread, hreading⟩
  · rw [hreading]
    exact flat_scalar record name _ _ _
  · rw [hreading]
    exact flat_scalar record name _ _ _
  · rw [hreading]
    exact flat_keep record name _ (Scalar.isNestingLimit_of_read hread)

/-! ### Entering -/

/-- Whether the content of the record is to be read as a message of the type `nested`. -/
structure Enters (schema : Schema) (type : Option MessageType) (record : Record) (description : FieldDescription)
    (nested : MessageType) (content : Bytes) : Prop where
  described : describe type record.number = some description
  payload : record.payload = .bytes content
  message : description.type = .message
  notPacked : description.isPacked = false
  nested : schema.messageOf? description = some nested

theorem decode_of_enters {description : FieldDescription} {nested : MessageType} {content : Bytes}
    (h : record.Enters schema type description nested content) (options : Options) (embed : Option Embed) :
    record.decode options schema embed type =
      record.field (some description.name) (record.asMessage options embed (some nested) description content) := by
  rw [decode, h.described]
  simp only [described_eq_asMessage h.payload h.message h.notPacked, h.nested]

theorem exists_flat_described {description : FieldDescription} (options : Options)
    (hdescribed : describe type record.number = some description)
    (hnone : ¬ ∃ nested content, record.Enters schema type description nested content) :
    ∃ reading : Reading, (record.field (some description.name) reading).Flat ∧ ∀ limit embed,
      record.described { options with maxDepth := limit } schema embed description = reading := by
  rcases described_cases description record with
    ⟨content, -, hreading⟩ | ⟨content, hpayload, hmessage, hpacked, hreading⟩ | hreading
  · refine ⟨_, flat_asPacked options (schema.enumOf? description) description record content _, fun limit embed => ?_⟩
    rw [hreading]
    unfold asPacked
    rw [Packed.read_withLimit]
  · have hnested : schema.messageOf? description = none := by
      cases hnested : schema.messageOf? description with
      | none => rfl
      | some nested => exact absurd ⟨nested, content, hdescribed, hpayload, hmessage, hpacked, hnested⟩ hnone
    refine ⟨record.keep description.type (.unresolvedMessage description.name), flat_keep record _ _ rfl,
      fun limit embed => ?_⟩
    rw [hreading, hnested]
    rfl
  · refine ⟨_, flat_asScalar options (schema.enumOf? description) description record _, fun limit embed => ?_⟩
    rw [hreading]
    unfold asScalar
    rw [Scalar.read_withLimit]

/-- A record is entered, or it is read to the same field whatever the limit is and what messages are entered with. -/
theorem enters_or_flat (options : Options) (schema : Schema) (type : Option MessageType) (record : Record) :
    (∃ description nested content, record.Enters schema type description nested content) ∨
    ∃ field : Field, field.Flat ∧ ∀ limit embed,
      record.decode { options with maxDepth := limit } schema embed type = field := by
  cases hdescribed : describe type record.number with
  | none =>
    refine .inr ⟨_, flat_undescribed options record none, fun limit embed => ?_⟩
    rw [decode, hdescribed]
    simp only [undescribed, guessed, Payload.candidates, Scalar.read_withLimit]
    rfl
  | some description =>
    by_cases henters : ∃ nested content, record.Enters schema type description nested content
    · obtain ⟨nested, content, henters⟩ := henters
      exact .inl ⟨description, nested, content, henters⟩
    · obtain ⟨reading, hflat, hreading⟩ := exists_flat_described options hdescribed henters
      refine .inr ⟨_, hflat, fun limit embed => ?_⟩
      rw [decode, hdescribed]
      simp only [hreading]

theorem enters_of_message {embedded : Message}
    (h : (record.decode options schema embed type).value = .message embedded) :
    ∃ description nested content enter, record.Enters schema type description nested content ∧ embed = some enter ∧
      embedded = enter nested record.valueSpan.start content := by
  rcases enters_or_flat options schema type record with ⟨description, nested, content, henters⟩ | ⟨field, hflat, hsame⟩
  · rw [decode_of_enters henters] at h
    cases embed with
    | none => cases h
    | some enter =>
      cases h
      exact ⟨description, nested, content, enter, henters, rfl, rfl⟩
  · have hdecode : record.decode options schema embed type = field := hsame options.maxDepth embed
    rw [hdecode] at h
    exact absurd h (hflat.value embedded)

end Record

/-! ### Comparing two runs -/

namespace Stop

theorem Explains.flat {start : Nat} {rest : Bytes} {stop : Stop} {type : Option MessageType} {field : Field}
    (h : stop.Explains start rest) (hfield : stop.field? type = some field) : field.Flat := by
  cases h with
  | malformed => cases hfield
  | unsupported => cases hfield
  | incomplete tag wireType content error hrest hkind hbody =>
    cases hfield
    refine ⟨fun _ => Value.noConfusion, fun diagnostic h => ?_⟩
    obtain rfl := List.mem_singleton.1 h
    exact DecodeError.isNestingLimit_of_offWire (DecodeError.offWire_of_read hbody)

theorem Explains.isNestingLimit {start : Nat} {rest : Bytes} {stop : Stop} {diagnostic : Diagnostic}
    (h : stop.Explains start rest) (hmem : diagnostic ∈ stop.diagnostics) : diagnostic.error.isNestingLimit = false := by
  cases h with
  | malformed =>
    obtain rfl := List.mem_singleton.1 hmem
    rfl
  | unsupported =>
    obtain rfl := List.mem_singleton.1 hmem
    rfl
  | incomplete => cases hmem

end Stop

namespace Message

variable {options options' : Options} {schema : Schema} {embed embed' : Option Embed} {type : Option MessageType}

theorem ofWindow_map_fields (start : Nat) (window : Bytes) {change : Field → Field}
    (hflat : ∀ field : Field, field.Flat → change field = field)
    (hrecord : ∀ record ∈ (Framing.ofWindow start window).records,
      record.decode options schema embed type = change (record.decode options' schema embed' type)) :
    let message := ofWindow options' schema embed' type start window
    ofWindow options schema embed type start window = { message with fields := message.fields.map change } := by
  have hrecords : (Framing.ofWindow start window).records.map (Record.decode options schema embed type) =
      ((Framing.ofWindow start window).records.map (Record.decode options' schema embed' type)).map change := by
    rw [List.map_map]
    exact List.map_congr_left hrecord
  have hlast : ((Framing.ofWindow start window).stop.bind (Stop.field? type)).toList =
      ((Framing.ofWindow start window).stop.bind (Stop.field? type)).toList.map change := by
    refine (List.map_congr_left fun field hfield => ?_).trans (List.map_id _) |>.symm
    obtain ⟨stop, hstop, hfield⟩ := Option.bind_eq_some_iff.1 (Option.mem_toList.1 hfield)
    obtain ⟨front, rest, -, hexplains⟩ := Framing.explains_of_stop hstop
    exact hflat field (hexplains.flat hfield)
  simp only [ofWindow, List.map_append, ← hrecords, ← hlast]

end Message

end WireTree
