import WireTree.Proofs.TypeSoundness

/-!
# What can be wrong with a record

A payload that cannot be read as a type is complained about in few ways, whatever the type is. What stands in the
diagnostics of the field of a record is such a complaint, or one that the schema gives rise to: about a message type that is
not known, a message that lies too deep, or an enum number without a name. The errors among candidates are complaints about
the payload alone.
-/

namespace WireTree

/-- What can be wrong with a payload that is read as a type, or as a row of values of a type. -/
inductive DecodeError.OfReading : DecodeError → Prop
  | group : OfReading (.unsupportedWireType WireType.startGroup.raw)
  | otherWireType (expected actual : WireType) : OfReading (.wireTypeMismatch expected actual)
  | longBoolean (length : Nat) : OfReading (.boolLength length)
  /-- A message can only be read by a description of it. -/
  | message : OfReading (.unresolvedMessage "<unknown>")
  | notPackable (type : FieldType) : OfReading (.notPackable type)
  | row (type : FieldType) (fault : PackedFault)
      (hcause : ∀ span cause, fault = .element span cause → OfReading cause) : OfReading (.packed type fault)

theorem Scalar.ofReading_of_read {options : Options} {enumType : Option EnumType} {type : FieldType} {length : Nat}
    {payload : Payload} {error : DecodeError} (h : read options enumType type length payload = .error error) :
    error.OfReading := by
  rcases error_cases h with rfl | ⟨expected, actual, rfl⟩ | rfl | rfl
  · exact .group
  · exact .otherWireType expected actual
  · exact .longBoolean length
  · exact .message

namespace Packed

theorem ne_element_fault (wireType : WireType) (length offset : Nat) (error : DecodeError) (span : Span)
    (cause : DecodeError) : fault wireType length offset error ≠ .element span cause := by
  unfold fault
  split <;> simp

theorem ofReading_of_read {options : Options} {enumType : Option EnumType} {type : FieldType} {start : Nat}
    {content : Bytes} {error : DecodeError} (h : read options enumType type start content = .error error) :
    error.OfReading := by
  unfold read at h
  split at h
  · split at h
    · cases h
      exact .row type _ fun span cause hfault => absurd hfault (ne_element_fault _ _ _ _ span cause)
    · obtain ⟨located, -, hlocated⟩ := exists_error_of_mapM h
      unfold readElement at hlocated
      split at hlocated
      · cases hlocated
      · rename_i cause hcause
        cases hlocated
        refine .row type _ fun span found hfound => ?_
        cases hfound
        exact Scalar.ofReading_of_read hcause
  · cases h
    exact .notPackable type

end Packed

namespace Record

/-- What can be wrong with a record of a message of the type. -/
inductive Complains (options : Options) (schema : Schema) (type : Option MessageType) (record : Record) :
    DecodeError → Prop
  | reading {error : DecodeError} (h : error.OfReading) : Complains options schema type record error
  | unknownMessage (description : FieldDescription) (hdescribed : describe type record.number = some description) :
    Complains options schema type record (.unresolvedMessage description.name)
  | tooDeep : Complains options schema type record (.nestingLimit options.maxDepth)
  | unnamed (description : FieldDescription) (enumType : EnumType)
      (henum : schema.enumOf? description = some enumType) (number : Int32) :
    Complains options schema type record (.unresolvedEnumValue enumType.fullName number)

variable {options : Options} {schema : Schema} {embed : Option Embed} {type : Option MessageType} {record : Record}
  {diagnostic : Diagnostic}

theorem complains_keep {fieldType : FieldType} {error : DecodeError}
    (herror : record.Complains options schema type error) (h : diagnostic ∈ (record.keep fieldType error).diagnostics) :
    record.Complains options schema type diagnostic.error := by
  obtain rfl := List.mem_singleton.1 h
  exact herror

theorem complains_enumNotes {description : FieldDescription} {span : Span} {value : Scalar}
    (h : diagnostic ∈ enumNotes (schema.enumOf? description) span value) :
    record.Complains options schema type diagnostic.error := by
  unfold enumNotes at h
  split at h
  · rename_i enumType number henum
    obtain rfl := List.mem_singleton.1 h
    exact .unnamed description enumType henum number
  · cases h

theorem complains_undescribed (h : diagnostic ∈ (record.undescribed options).diagnostics) :
    record.Complains options schema type diagnostic.error := by
  rcases undescribed_cases options record with ⟨-, hreading⟩ | ⟨-, scalar, hreading⟩ | ⟨-, error, hread, hreading⟩ <;>
    rw [hreading] at h
  · cases h
  · cases h
  · exact complains_keep (.reading (Scalar.ofReading_of_read hread)) h

theorem complains_described {description : FieldDescription} (hdescribed : describe type record.number = some description)
    (h : diagnostic ∈ (record.described options schema embed description).diagnostics) :
    record.Complains options schema type diagnostic.error := by
  rcases described_cases description record with
    ⟨content, -, hreading⟩ | ⟨content, -, -, -, hreading⟩ | hreading <;> rw [hreading] at h
  · unfold asPacked at h
    split at h
    · obtain ⟨element, -, hnote⟩ := List.mem_flatMap.1 h
      exact complains_enumNotes hnote
    · rename_i error hread
      exact complains_keep (.reading (Packed.ofReading_of_read hread)) h
  · unfold asMessage at h
    split at h
    · exact complains_keep (.unknownMessage description hdescribed) h
    · exact complains_keep .tooDeep h
    · cases h
  · unfold asScalar at h
    split at h
    · exact complains_enumNotes h
    · rename_i error hread
      exact complains_keep (.reading (Scalar.ofReading_of_read hread)) h

theorem complains_decode (h : diagnostic ∈ (record.decode options schema embed type).diagnostics) :
    record.Complains options schema type diagnostic.error := by
  unfold decode at h
  split at h
  · rename_i description hdescribed
    exact complains_described hdescribed h
  · exact complains_undescribed h

theorem candidates_described (options : Options) (schema : Schema) (embed : Option Embed)
    (description : FieldDescription) (record : Record) :
    (record.described options schema embed description).candidates = [] := by
  rcases described_cases description record with
    ⟨content, -, hreading⟩ | ⟨content, -, -, -, hreading⟩ | hreading <;> rw [hreading]
  · unfold asPacked
    split <;> rfl
  · unfold asMessage
    split <;> rfl
  · unfold asScalar
    split <;> rfl

theorem reading_of_mem_candidates {candidate : Candidate}
    (h : candidate ∈ (record.decode options schema embed type).candidates) :
    candidate.reading = Scalar.read options none candidate.type record.valueSpan.length record.payload := by
  unfold decode at h
  split at h
  · rename_i description _
    have hnone := candidates_described options schema embed description record
    simp only [field, hnone, List.not_mem_nil] at h
  · rcases undescribed_cases options record with ⟨-, hreading⟩ | ⟨-, scalar, hreading⟩ | ⟨-, error, -, hreading⟩ <;>
      rw [field, hreading] at h
    · obtain ⟨fieldType, -, rfl⟩ := List.mem_map.1 h
      rfl
    · cases h
    · cases h

end Record

end WireTree
