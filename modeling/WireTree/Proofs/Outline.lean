import WireTree.Proofs.Nesting

/-!
# What a schema cannot change

The outline of a message is what its bytes settle: where its fields lie, their numbers and wire types, the value that is
missing at its end, its garbage and the complaints about it. Neither the schema, nor the type, nor an option shows in it.
A field whose number is not described does not change at all.
-/

namespace WireTree

/-! ### Outlines -/

/-- A field without what reading its value adds. -/
structure Frame where
  number : Nat
  wireType : WireType
  span : Span
  /-- The bytes left where a value should be, with what is said about them, if there is no value. -/
  missing : Option (Bytes × List Diagnostic)

/-- A message without what reading its values adds. -/
structure Outline where
  span : Span
  frames : List Frame
  garbage : Option Bytes
  diagnostics : List Diagnostic

/-- The bytes and diagnostics of a value that could not be read off the wire. -/
def Field.missing (field : Field) : Option (Bytes × List Diagnostic) :=
  match field.value with
  | .incomplete content => some (content, field.diagnostics)
  | _ => none

def Field.frame (field : Field) : Frame := ⟨field.number, field.wireType, field.span, field.missing⟩

def Message.outline (message : Message) : Outline :=
  ⟨message.span, message.fields.map Field.frame, message.garbage, message.diagnostics⟩

/-! ### Fields -/

namespace Record

theorem frame_decode (options : Options) (schema : Schema) (embed : Option Embed) (type : Option MessageType)
    (record : Record) :
    (record.decode options schema embed type).frame = ⟨record.number, record.wireType, record.span, none⟩ := by
  have hmissing : (record.decode options schema embed type).missing = none := by
    have hreads := reads_decode options schema embed type record
    unfold Field.missing
    generalize (record.decode options schema embed type).value = value at hreads
    cases hreads <;> rfl
  rw [Field.frame, hmissing, number_decode, wireType_decode, span_decode]

theorem decode_undescribed {type : Option MessageType} {record : Record}
    (hundescribed : describe type record.number = none) (options : Options) (schema : Schema)
    (embed : Option Embed) :
    record.decode options schema embed type = record.field none (record.undescribed options) := by
  rw [decode, hundescribed]

end Record

namespace Stop

theorem frame_field? (type type' : Option MessageType) (stop : Stop) :
    (stop.field? type).map Field.frame = (stop.field? type').map Field.frame := by
  cases stop <;> rfl

theorem field?_undescribed {type : Option MessageType} {stop : Stop} {field : Field}
    (hfield : stop.field? type = some field) (hundescribed : describe type field.number = none) :
    stop.field? none = some field := by
  cases stop with
  | garbage => cases hfield
  | incomplete number wireType span content error =>
    cases hfield
    have hnumber : describe type number = none := hundescribed
    simp only [field?, hnumber]
    rfl

end Stop

/-! ### Messages -/

namespace Message

theorem outline_ofWindow (options options' : Options) (schema schema' : Schema) (embed embed' : Option Embed)
    (type type' : Option MessageType) (start : Nat) (window : Bytes) :
    (ofWindow options schema embed type start window).outline =
      (ofWindow options' schema' embed' type' start window).outline := by
  have hframes : (ofWindow options schema embed type start window).fields.map Field.frame =
      (ofWindow options' schema' embed' type' start window).fields.map Field.frame := by
    simp only [fields_ofWindow, List.map_append, List.map_map]
    congr 1
    · refine List.map_congr_left fun record _ => ?_
      simp only [Function.comp_apply, Record.frame_decode]
    · cases (Framing.ofWindow start window).stop with
      | none => rfl
      | some stop =>
        simp only [Option.bind_some, ← Option.toList_map]
        rw [Stop.frame_field? type type']
  rw [outline, hframes]
  rfl

theorem getElem?_ofWindow_undescribed {options : Options} {schema : Schema} {embed : Option Embed}
    {type : Option MessageType} (schema' : Schema) (embed' : Option Embed) {start : Nat} {window : Bytes} {index : Nat}
    {field : Field} (hfield : (ofWindow options schema embed type start window).fields[index]? = some field)
    (hundescribed : describe type field.number = none) :
    (ofWindow options schema' embed' none start window).fields[index]? = some field := by
  rw [fields_ofWindow, List.getElem?_append, List.length_map] at hfield ⊢
  by_cases hindex : index < (Framing.ofWindow start window).records.length
  · rw [if_pos hindex, List.getElem?_map, Option.map_eq_some_iff] at hfield
    obtain ⟨record, hrecord, rfl⟩ := hfield
    rw [Record.number_decode] at hundescribed
    rw [if_pos hindex, List.getElem?_map, hrecord, Option.map_some, Record.decode_undescribed hundescribed,
      Record.decode_undescribed rfl]
  · rw [if_neg hindex] at hfield ⊢
    obtain ⟨stop, hstop, hlast⟩ := Option.bind_eq_some_iff.1 (Option.mem_toList.1 (List.mem_of_getElem? hfield))
    rw [hstop, Option.bind_some, hlast] at hfield
    rw [hstop, Option.bind_some, Stop.field?_undescribed hlast hundescribed]
    exact hfield

/-- However a window is decoded, its outline is the same, and so is a field that nothing describes. -/
theorem outline_decodeWindow (options : Options) (schema : Schema) (type : Option MessageType) (data : Bytes)
    (offset length : Nat) :
    (∀ options' schema' type',
      (decodeWindow options schema type data offset length).outline =
        (decodeWindow options' schema' type' data offset length).outline) ∧
    ∀ (index : Nat) (field : Field),
      (decodeWindow options schema type data offset length).fields[index]? = some field →
        describe type field.number = none →
          (decodeWindow options {} none data offset length).fields[index]? = some field := by
  obtain ⟨front, window, back, -, hfront, -, hwindow⟩ := exists_window data offset length
  have hfields : ∀ options schema type, (decodeWindow options schema type data offset length).fields =
      (ofWindow options schema (entering options schema options.maxDepth) type front.length window).fields := by
    intro options schema type
    rw [decodeWindow_eq options schema type hfront hwindow, ofBudget_eq]
    split <;> rfl
  constructor
  · intro options' schema' type'
    rw [decodeWindow_eq options schema type hfront hwindow, decodeWindow_eq options' schema' type' hfront hwindow,
      ofBudget_eq, ofBudget_eq]
    have houtline := outline_ofWindow options options' schema schema' (entering options schema options.maxDepth)
      (entering options' schema' options'.maxDepth) type type' front.length window
    simp only [outline, Outline.mk.injEq] at houtline ⊢
    obtain ⟨hspan, hframes, hgarbage, hdiagnostics⟩ := houtline
    split
    · exact ⟨hspan, hframes, hgarbage, hdiagnostics⟩
    · exact ⟨hspan, hframes, hgarbage, by rw [hspan, hdiagnostics]⟩
  · intro index field hfield hundescribed
    rw [hfields] at hfield ⊢
    exact getElem?_ofWindow_undescribed _ _ hfield hundescribed

end Message

end WireTree
