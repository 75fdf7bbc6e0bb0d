import Mathlib.Data.List.Forall2
import WireTree.Proofs.Item
import WireTree.Decode.Message

/-!
# What reading a record can give

A field keeps the number, wire type and span of its record, and its value is a scalar, or a row of elements or a message
that the content of the record was read as. Elements lie where splitting found them. The rest asks only which of the
three a value is.
-/

namespace WireTree

/-! ### Scalars -/

namespace Scalar

variable {options : Options} {enumType : Option EnumType} {length : Nat} {type : FieldType} {payload : Payload}
  {error : DecodeError}

theorem error_of_convert (h : convert options enumType length type payload = .error error) :
    (type = .bool ∧ length ≠ 1 ∧ error = .boolLength length) ∨
    (type = .message ∧ error = .unresolvedMessage "<unknown>") := by
  unfold convert at h
  split at h
  case h_7 =>
    split at h
    · cases h
    · rename_i hlength
      cases h
      exact .inl ⟨rfl, hlength, rfl⟩
  case h_17 =>
    cases h
    exact .inr ⟨rfl, rfl⟩
  all_goals cases h

theorem error_of_read (h : read options enumType type length payload = .error error) :
    (type = .group ∧ error = .unsupportedWireType WireType.startGroup.raw) ∨
    (type ≠ .group ∧ ∃ expected, type.wireType? = some expected ∧ expected ≠ payload.wireType ∧
      error = .wireTypeMismatch expected payload.wireType) ∨
    (type.wireType? = some payload.wireType ∧ convert options enumType length type payload = .error error) := by
  unfold read at h
  split at h
  · cases h
    exact .inl ⟨rfl, rfl⟩
  · cases h
  · rename_i expected hgroup hexpected
    split at h
    · rename_i hkind
      exact .inr (.inr ⟨by rw [hexpected, hkind], h⟩)
    · rename_i hkind
      cases h
      exact .inr (.inl ⟨hgroup, expected, hexpected, hkind, rfl⟩)

theorem error_cases (h : read options enumType type length payload = .error error) :
    error = .unsupportedWireType WireType.startGroup.raw ∨ (∃ expected actual, error = .wireTypeMismatch expected actual) ∨
      error = .boolLength length ∨ error = .unresolvedMessage "<unknown>" := by
  rcases error_of_read h with ⟨-, hgroup⟩ | ⟨-, expected, -, -, hkind⟩ | ⟨-, hconvert⟩
  · exact .inl hgroup
  · exact .inr (.inl ⟨expected, _, hkind⟩)
  · rcases error_of_convert hconvert with ⟨-, -, hlong⟩ | ⟨-, hmessage⟩
    · exact .inr (.inr (.inl hlong))
    · exact .inr (.inr (.inr hmessage))

end Scalar

/-! ### Records as fields -/

theorem FieldDescription.isRepeated_of_isPacked {description : FieldDescription}
    (h : description.isPacked = true) : description.isRepeated = true := by
  have hmultiplicity : description.multiplicity = .packed := by simpa [isPacked] using h
  rw [isRepeated, hmultiplicity]
  rfl

namespace Record

variable {options : Options} {schema : Schema} {embed : Option Embed} {type : Option MessageType}

@[simp] theorem number_decode (record : Record) :
    (record.decode options schema embed type).number = record.number := by
  unfold decode
  split <;> rfl

@[simp] theorem wireType_decode (record : Record) :
    (record.decode options schema embed type).wireType = record.wireType := by
  unfold decode
  split <;> rfl

@[simp] theorem span_decode (record : Record) :
    (record.decode options schema embed type).span = record.span := by
  unfold decode
  split <;> rfl

theorem undescribed_cases (options : Options) (record : Record) :
    let guess := guessType options record.wireType record.payload.number?
    (options.allCandidates = true ∧ record.undescribed options =
      ⟨.none, .scalar (.raw record.payload), record.payload.candidates options record.valueSpan.length, []⟩) ∨
    (options.allCandidates = false ∧ ∃ scalar, record.undescribed options = .ofScalar guess scalar) ∨
    (options.allCandidates = false ∧ ∃ error,
      Scalar.read options none guess record.valueSpan.length record.payload = .error error ∧
        record.undescribed options = record.keep guess error) := by
  unfold undescribed
  split
  · rename_i hall
    exact .inl ⟨hall, rfl⟩
  · rename_i hall
    have hall : options.allCandidates = false := by simpa using hall
    refine .inr ?_
    simp only [guessed]
    split
    · exact .inl ⟨hall, _, rfl⟩
    · exact .inl ⟨hall, _, rfl⟩
    · split
      · exact .inl ⟨hall, _, rfl⟩
      · rename_i error hread
        exact .inr ⟨hall, error, hread, rfl⟩

theorem scalar_of_undescribed (options : Options) (record : Record) :
    ∃ scalar, (record.undescribed options).value = .scalar scalar := by
  rcases undescribed_cases options record with ⟨-, hreading⟩ | ⟨-, scalar, hreading⟩ | ⟨-, error, -, hreading⟩ <;>
    rw [hreading] <;> exact ⟨_, rfl⟩

/-- The ways in which a value came about, for a record and the description of its number. -/
inductive Reads (options : Options) (schema : Schema) (embed : Option Embed)
    (described : Option FieldDescription) (record : Record) : Value → Prop
  | scalar (scalar : Scalar) : Reads options schema embed described record (.scalar scalar)
  | packed (description : FieldDescription) (content : Bytes) (elements : List Element)
      (hdescribed : described = some description) (hpayload : record.payload = .bytes content)
      (hread : Packed.read options (schema.enumOf? description) description.type record.valueSpan.start content =
        .ok elements) :
    Reads options schema embed described record (.packed elements)
  | message (description : FieldDescription) (content : Bytes) (enter : Embed) (nested : MessageType)
      (hdescribed : described = some description) (hpayload : record.payload = .bytes content)
      (htype : description.type = .message) (hembed : embed = some enter)
      (hnested : schema.messageOf? description = some nested) :
    Reads options schema embed described record (.message (enter nested record.valueSpan.start content))

theorem reads_asScalar {described : Option FieldDescription} (enumType : Option EnumType)
    (description : FieldDescription) (record : Record) :
    Reads options schema embed described record (record.asScalar options enumType description).value := by
  unfold asScalar
  split
  · exact .scalar _
  · exact .scalar _

theorem described_eq_asPacked {description : FieldDescription} {record : Record} {content : Bytes}
    (hpayload : record.payload = .bytes content) (hrepeated : description.isRepeated = true)
    (hpackable : description.type.isPackable = true) :
    record.described options schema embed description =
      record.asPacked options (schema.enumOf? description) description content := by
  have hrow : (description.isRepeated && (description.isPacked || description.type.isPackable)) = true := by
    rw [hrepeated, hpackable, Bool.or_true, Bool.and_true]
  unfold described
  simp only [hpayload, hrow, if_true]

theorem described_eq_keep {description : FieldDescription} {record : Record} {content : Bytes}
    (hpayload : record.payload = .bytes content) (hpacked : description.isPacked = true)
    (hpackable : description.type.isPackable = false) :
    record.described options schema embed description =
      record.keep description.type (.notPackable description.type) := by
  have hrepeated := FieldDescription.isRepeated_of_isPacked hpacked
  unfold described
  simp only [hpayload, hrepeated, hpacked, Bool.true_or, Bool.and_true, if_true]
  simp only [asPacked, Packed.read, hpackable]

theorem described_eq_asMessage {description : FieldDescription} {record : Record} {content : Bytes}
    (hpayload : record.payload = .bytes content) (htype : description.type = .message)
    (hpacked : description.isPacked = false) :
    record.described options schema embed description =
      record.asMessage options embed (schema.messageOf? description) description content := by
  have hrow : (description.isRepeated && (description.isPacked || description.type.isPackable)) = false := by
    rw [hpacked, htype]
    exact Bool.and_false _
  unfold described
  simp only [hpayload, hrow, Bool.false_eq_true, if_false, if_pos htype]

theorem described_eq_asScalar {description : FieldDescription} {record : Record}
    (hbytes : ∀ content, record.payload = .bytes content →
      description.isPacked = false ∧ description.type.isPackable = false ∧ description.type ≠ .message) :
    record.described options schema embed description =
      record.asScalar options (schema.enumOf? description) description := by
  unfold described
  split
  · rename_i content hpayload
    obtain ⟨hpacked, hpackable, hmessage⟩ := hbytes content hpayload
    rw [hpacked, hpackable, Bool.or_self, Bool.and_false, if_neg Bool.false_ne_true, if_neg hmessage]
  · rfl

/-- The three ways in which a described record is read. The description and the payload settle which of them it is, so
every run goes the same way. -/
theorem described_cases (description : FieldDescription) (record : Record) :
    (∃ content, record.payload = .bytes content ∧ ∀ options schema embed,
      record.described options schema embed description =
        record.asPacked options (schema.enumOf? description) description content) ∨
    (∃ content, record.payload = .bytes content ∧ description.type = .message ∧ description.isPacked = false ∧
      ∀ options schema embed, record.described options schema embed description =
        record.asMessage options embed (schema.messageOf? description) description content) ∨
    ∀ options schema embed, record.described options schema embed description =
      record.asScalar options (schema.enumOf? description) description := by
  cases hpayload : record.payload with
  | bytes content =>
    by_cases hrow : (description.isRepeated && (description.isPacked || description.type.isPackable)) = true
    · exact .inl ⟨content, rfl, fun options schema embed => by simp only [described, hpayload, if_pos hrow]⟩
    · by_cases htype : description.type = .message
      · have hpacked : description.isPacked = false := by
          by_contra hpacked
          have hpacked : description.isPacked = true := by simpa using hpacked
          rw [hpacked, FieldDescription.isRepeated_of_isPacked hpacked] at hrow
          exact hrow rfl
        exact .inr (.inl ⟨content, rfl, htype, hpacked,
          fun options schema embed => described_eq_asMessage hpayload htype hpacked⟩)
      · exact .inr (.inr fun options schema embed => by simp only [described, hpayload, if_neg hrow, if_neg htype])
  | varint | fixed64 | fixed32 => exact .inr (.inr fun options schema embed => by simp only [described, hpayload])

theorem reads_described (description : FieldDescription) (record : Record) :
    Reads options schema embed (some description) record
      (record.described options schema embed description).value := by
  rcases described_cases description record with
    ⟨content, hpayload, hreading⟩ | ⟨content, hpayload, htype, -, hreading⟩ | hreading
  · rw [hreading]
    unfold asPacked
    split
    · rename_i elements hread
      exact .packed description content elements rfl hpayload hread
    · exact .scalar _
  · rw [hreading]
    unfold asMessage
    split
    · exact .scalar _
    · exact .scalar _
    · rename_i nested enter hnested
      exact .message description content enter nested rfl hpayload htype rfl hnested
  · rw [hreading]
    exact reads_asScalar _ _ _

theorem reads_decode (options : Options) (schema : Schema) (embed : Option Embed) (type : Option MessageType)
    (record : Record) :
    Reads options schema embed (describe type record.number) record
      (record.decode options schema embed type).value := by
  unfold decode
  split
  · rename_i description hdescribed
    rw [hdescribed]
    exact reads_described description record
  · obtain ⟨scalar, hscalar⟩ := scalar_of_undescribed options record
    simp only [field, hscalar]
    exact .scalar scalar

end Record

/-! ### Elements of packed values -/

theorem mapM_eq_ok_iff {α β ε : Type} {f : α → Except ε β} {values : List α} {results : List β} :
    values.mapM f = .ok results ↔ List.Forall₂ (fun value result => f value = .ok result) values results := by
  constructor
  · intro h
    induction values generalizing results with
    | nil =>
      cases h
      exact .nil
    | cons value values ih =>
      rw [List.mapM_cons] at h
      cases hvalue : f value with
      | error error =>
        rw [hvalue] at h
        cases h
      | ok result =>
        cases hvalues : values.mapM f with
        | error error =>
          rw [hvalue, hvalues] at h
          cases h
        | ok rest =>
          rw [hvalue, hvalues] at h
          cases h
          exact .cons hvalue (ih hvalues)
  · intro h
    induction h with
    | nil => rfl
    | cons hvalue _ ih =>
      rw [List.mapM_cons, hvalue, ih]
      rfl

namespace Packed

theorem span_of_readElement {options : Options} {enumType : Option EnumType} {type : FieldType}
    {located : Located} {element : Element} (h : readElement options enumType type located = .ok element) :
    element.span = located.span := by
  unfold readElement at h
  split at h
  · cases h
    rfl
  · cases h

theorem spans_of_readElement {options : Options} {enumType : Option EnumType} {type : FieldType}
    {values : List Located} {elements : List Element}
    (h : List.Forall₂ (fun located element => readElement options enumType type located = .ok element) values elements) :
    elements.map (·.span) = values.map (·.span) := by
  induction h with
  | nil => rfl
  | cons hread _ ih => rw [List.map_cons, List.map_cons, span_of_readElement hread, ih]

theorem read_eq_ok_iff {options : Options} {enumType : Option EnumType} {type : FieldType} {start : Nat}
    {content : Bytes} {elements : List Element} :
    read options enumType type start content = .ok elements ↔
      ∃ wireType values, type.isPackable = true ∧ type.wireType? = some wireType ∧
        split wireType start content = .ok values ∧
        List.Forall₂ (fun located element => readElement options enumType type located = .ok element) values
          elements := by
  constructor
  · intro h
    unfold read at h
    split at h
    · rename_i wireType hpackable hwireType
      split at h
      · cases h
      · rename_i values hvalues
        exact ⟨wireType, values, hpackable, hwireType, hvalues, mapM_eq_ok_iff.1 h⟩
    · cases h
  · rintro ⟨wireType, values, hpackable, hwireType, hvalues, helements⟩
    simp only [read, hpackable, hwireType, hvalues]
    exact mapM_eq_ok_iff.2 helements

end Packed

end WireTree
