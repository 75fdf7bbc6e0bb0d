import Mathlib.Data.List.Basic
import WireTree.Proofs.Nesting

/-!
# Moving a decoded tree

Bytes that stand further back decode to the same tree with every offset in it moved by the distance: in spans, in errors
and in what errors tell about packed values, at every depth. So a window decodes by its own bytes, and where it stands
shows in offsets only.
-/

namespace WireTree

/-! ### Moved data -/

def Span.shift (distance : Nat) (span : Span) : Span := ⟨span.start + distance, span.stop + distance⟩

mutual

/-- The error with its offsets moved. Lengths, numbers and names stay. -/
def DecodeError.shift (distance : Nat) : DecodeError → DecodeError
  | .malformedTag offset => .malformedTag (offset + distance)
  | .malformedLength offset => .malformedLength (offset + distance)
  | .truncated offset needed available => .truncated (offset + distance) needed available
  | .overlongVarint offset => .overlongVarint (offset + distance)
  | .packed type fault => .packed type (fault.shift distance)
  | .unsupportedWireType raw => .unsupportedWireType raw
  | .boolLength length => .boolLength length
  | .notPackable type => .notPackable type
  | .unresolvedMessage name => .unresolvedMessage name
  | .unresolvedEnumValue enumName number => .unresolvedEnumValue enumName number
  | .wireTypeMismatch expected actual => .wireTypeMismatch expected actual
  | .nestingLimit limit => .nestingLimit limit

def PackedFault.shift (distance : Nat) : PackedFault → PackedFault
  | .varintCut offset => .varintCut (offset + distance)
  | .varintOverlong offset => .varintOverlong (offset + distance)
  | .width length width => .width length width
  | .element span cause => .element (span.shift distance) (cause.shift distance)

end

def Diagnostic.shift (distance : Nat) (diagnostic : Diagnostic) : Diagnostic :=
  ⟨diagnostic.span.shift distance, diagnostic.error.shift distance⟩

def Located.shift (distance : Nat) (located : Located) : Located :=
  { located with span := located.span.shift distance }

def Record.shift (distance : Nat) (record : Record) : Record :=
  { record with span := record.span.shift distance, valueSpan := record.valueSpan.shift distance }

def Stop.shift (distance : Nat) : Stop → Stop
  | .garbage span content error => .garbage (span.shift distance) content (error.shift distance)
  | .incomplete number wireType span content error =>
    .incomplete number wireType (span.shift distance) content (error.shift distance)

def Framing.shift (distance : Nat) (framing : Framing) : Framing :=
  ⟨framing.records.map (Record.shift distance), framing.stop.map (Stop.shift distance)⟩

def Element.shift (distance : Nat) (element : Element) : Element := ⟨element.span.shift distance, element.value⟩

def Candidate.shift (distance : Nat) (candidate : Candidate) : Candidate :=
  ⟨candidate.type, candidate.reading.mapError (DecodeError.shift distance)⟩

mutual

def Message.shift (distance : Nat) : Message → Message
  | ⟨name, span, fields, garbage, diagnostics⟩ =>
    ⟨name, span.shift distance, shiftFields distance fields, garbage, diagnostics.map (Diagnostic.shift distance)⟩

def Field.shift (distance : Nat) : Field → Field
  | ⟨number, wireType, span, name, type, value, candidates, diagnostics⟩ =>
    ⟨number, wireType, span.shift distance, name, type, value.shift distance,
      candidates.map (Candidate.shift distance), diagnostics.map (Diagnostic.shift distance)⟩

def Value.shift (distance : Nat) : Value → Value
  | .packed elements => .packed (elements.map (Element.shift distance))
  | .message embedded => .message (embedded.shift distance)
  | .scalar scalar => .scalar scalar
  | .incomplete content => .incomplete content

def shiftFields (distance : Nat) : List Field → List Field
  | [] => []
  | field :: rest => field.shift distance :: shiftFields distance rest

end

theorem shiftFields_eq_map (distance : Nat) (fields : List Field) :
    shiftFields distance fields = fields.map (Field.shift distance) := by
  induction fields with
  | nil => rfl
  | cons field rest ih => rw [shiftFields, ih, List.map_cons]

def Reading.shift (distance : Nat) (reading : Reading) : Reading :=
  ⟨reading.type, reading.value.shift distance, reading.candidates.map (Candidate.shift distance),
    reading.diagnostics.map (Diagnostic.shift distance)⟩

namespace Span

@[simp] theorem ofLength_shift (distance start length : Nat) :
    (ofLength start length).shift distance = ofLength (start + distance) length := by
  simp only [shift, ofLength, Nat.add_right_comm]

@[simp] theorem start_shift (distance : Nat) (span : Span) : (span.shift distance).start = span.start + distance :=
  rfl

@[simp] theorem length_shift (distance : Nat) (span : Span) : (span.shift distance).length = span.length := by
  simp only [length, shift]
  omega

end Span

/-! ### Framing -/

theorem Tag.read_shift (distance start : Nat) (window : Bytes) :
    read (start + distance) window = (read start window).mapError (DecodeError.shift distance) := by
  unfold read
  split <;> rfl

theorem Payload.ofWidth_shift (distance width start : Nat) (window : Bytes) (payload : Payload) :
    ofWidth width (start + distance) window payload =
      ((ofWidth width start window payload).map (Located.shift distance)).mapError (DecodeError.shift distance) := by
  unfold ofWidth
  split
  · simp [Except.map, Except.mapError, Located.shift]
  · rfl

theorem Payload.read_shift (distance : Nat) (wireType : WireType) (start : Nat) (window : Bytes) :
    read wireType (start + distance) window =
      ((read wireType start window).map (Located.shift distance)).mapError (DecodeError.shift distance) := by
  cases wireType with
  | varint =>
    simp only [read]
    split <;> simp [Except.map, Except.mapError, Located.shift, DecodeError.shift]
  | fixed64 => exact ofWidth_shift distance 8 start window _
  | fixed32 => exact ofWidth_shift distance 4 start window _
  | lengthDelimited =>
    simp only [read]
    split
    · rfl
    · split
      · simp [Except.map, Except.mapError, Located.shift, Nat.add_right_comm]
      · simp [Except.map, Except.mapError, DecodeError.shift, Nat.add_right_comm]
  | startGroup => rfl
  | endGroup => rfl

theorem Record.read_shift (distance start : Nat) (window : Bytes) :
    read (start + distance) window =
      ((read start window).map (Record.shift distance)).mapError (Stop.shift distance) := by
  simp only [read, Tag.read_shift]
  cases Tag.read start window with
  | error error => simp [Except.map, Except.mapError, Stop.shift]
  | ok tag =>
    simp only [Except.mapError]
    cases WireType.ofRaw? tag.wireType with
    | none => simp [Except.map, Stop.shift, DecodeError.shift]
    | some wireType =>
      have hbody := Payload.read_shift distance wireType (start + tag.length) (window.drop tag.length)
      simp only [Nat.add_right_comm start distance tag.length, hbody]
      cases Payload.read wireType (start + tag.length) (window.drop tag.length) with
      | error error => simp [Except.map, Except.mapError, Stop.shift]
      | ok located => rfl

theorem Framing.ofWindow_shift (distance start : Nat) (window : Bytes) :
    ofWindow (start + distance) window = (ofWindow start window).shift distance := by
  induction hlength : window.length using Nat.strongRecOn generalizing start window with
  | ind length ih =>
    by_cases hempty : window = []
    · subst hempty
      rw [ofWindow_nil, ofWindow_nil]
      rfl
    · have hshift := Record.read_shift distance start window
      cases hread : Record.read start window with
      | error stop =>
        rw [hread] at hshift
        rw [ofWindow_of_read_error hempty hread, ofWindow_of_read_error hempty hshift]
        rfl
      | ok record =>
        rw [hread] at hshift
        have hbound := Record.length_of_read hread
        have hdrop : (window.drop record.span.length).length < length := by
          rw [List.length_drop]
          omega
        rw [ofWindow_of_read_ok hread, ofWindow_of_read_ok hshift]
        have hrest := ih _ hdrop record.span.stop (window.drop record.span.length) rfl
        show (⟨record.shift distance :: (ofWindow (record.span.stop + distance)
          (window.drop (record.span.shift distance).length)).records, (ofWindow (record.span.stop + distance)
          (window.drop (record.span.shift distance).length)).stop⟩ : Framing) = _
        rw [Span.length_shift, hrest]
        rfl

/-! ### Reading -/

namespace Scalar

theorem shift_of_read_error {options : Options} {enumType : Option EnumType} {type : FieldType} {length : Nat}
    {payload : Payload} {error : DecodeError} (h : read options enumType type length payload = .error error)
    (distance : Nat) : error.shift distance = error := by
  rcases error_cases h with rfl | ⟨expected, actual, rfl⟩ | rfl | rfl <;> rfl

theorem mapError_read (options : Options) (enumType : Option EnumType) (type : FieldType) (length : Nat)
    (payload : Payload) (distance : Nat) :
    (read options enumType type length payload).mapError (DecodeError.shift distance) =
      read options enumType type length payload := by
  cases hread : read options enumType type length payload with
  | error error => rw [Except.mapError, shift_of_read_error hread]
  | ok value => rfl

end Scalar

namespace Packed

theorem split_shift (distance : Nat) (wireType : WireType) (start : Nat) (window : Bytes) :
    split wireType (start + distance) window =
      ((split wireType start window).map (List.map (Located.shift distance))).mapError
        fun failure => (failure.1 + distance, failure.2.shift distance) := by
  induction hlength : window.length using Nat.strongRecOn generalizing start window with
  | ind length ih =>
    by_cases hempty : window = []
    · subst hempty
      rw [split_nil, split_nil]
      rfl
    · have hshift := Payload.read_shift distance wireType start window
      cases hread : Payload.read wireType start window with
      | error cause =>
        rw [hread] at hshift
        rw [split_of_read_error hempty hread, split_of_read_error hempty hshift]
        rfl
      | ok located =>
        rw [hread] at hshift
        have hbound := Payload.span_of_read hread
        have hpos := List.length_pos_iff.2 hempty
        have hdrop : (window.drop (located.span.stop - start)).length < length := by
          rw [List.length_drop]
          omega
        have hrest := ih _ hdrop located.span.stop (window.drop (located.span.stop - start)) rfl
        have hsame : (located.shift distance).span.stop - (start + distance) = located.span.stop - start :=
          Nat.add_sub_add_right _ _ _
        have hstop : (located.shift distance).span.stop = located.span.stop + distance := rfl
        rw [split_of_read_ok hread, split_of_read_ok hshift, hsame, hstop, hrest]
        cases split wireType located.span.stop (window.drop (located.span.stop - start)) <;> rfl

theorem fault_shift (distance : Nat) (wireType : WireType) (length offset : Nat) (cause : DecodeError) :
    fault wireType length (offset + distance) (cause.shift distance) =
      (fault wireType length offset cause).shift distance := by
  cases wireType <;> cases cause <;> rfl

theorem readElement_shift (options : Options) (enumType : Option EnumType) (type : FieldType) (distance : Nat)
    (located : Located) :
    readElement options enumType type (located.shift distance) =
      ((readElement options enumType type located).map (Element.shift distance)).mapError
        (DecodeError.shift distance) := by
  have hlength : (located.shift distance).span.length = located.span.length := Span.length_shift _ _
  have hpayload : (located.shift distance).payload = located.payload := rfl
  unfold readElement
  rw [hlength, hpayload]
  cases hread : Scalar.read options enumType type located.span.length located.payload with
  | error cause =>
    have hcause := Scalar.shift_of_read_error hread distance
    simp only [Except.map, Except.mapError, DecodeError.shift, PackedFault.shift, hcause]
    rfl
  | ok value => rfl

theorem mapM_shift {α β ε : Type} {f : α → Except ε β} {moveArgument : α → α} {moveResult : β → β}
    {moveError : ε → ε} (hf : ∀ a, f (moveArgument a) = ((f a).map moveResult).mapError moveError)
    (values : List α) :
    (values.map moveArgument).mapM f = ((values.mapM f).map (List.map moveResult)).mapError moveError := by
  induction values with
  | nil => rfl
  | cons value values ih =>
    rw [List.map_cons, List.mapM_cons, List.mapM_cons, hf, ih]
    cases f value with
    | error error => rfl
    | ok result => cases values.mapM f <;> rfl

theorem read_shift (options : Options) (enumType : Option EnumType) (type : FieldType) (distance start : Nat)
    (content : Bytes) :
    read options enumType type (start + distance) content =
      ((read options enumType type start content).map (List.map (Element.shift distance))).mapError
        (DecodeError.shift distance) := by
  unfold read
  split
  · rename_i wireType hpackable hwireType
    rw [split_shift]
    cases split wireType start content with
    | error failure =>
      obtain ⟨offset, cause⟩ := failure
      simp only [Except.map, Except.mapError, fault_shift, DecodeError.shift]
    | ok values => exact mapM_shift (readElement_shift options enumType type distance) values
  · rfl

end Packed

/-! ### Fields -/

/-- Whether messages that are entered further back are moved by the distance. -/
def Message.Moves (distance : Nat) (embed : Option Embed) : Prop :=
  ∀ enter, embed = some enter → ∀ nested start content,
    enter nested (start + distance) content = (enter nested start content).shift distance

namespace Record

variable {options : Options} {schema : Schema} {embed : Option Embed} {type : Option MessageType}

@[simp] theorem number_shift (distance : Nat) (record : Record) : (record.shift distance).number = record.number :=
  rfl

@[simp] theorem wireType_shift (distance : Nat) (record : Record) :
    (record.shift distance).wireType = record.wireType := rfl

@[simp] theorem payload_shift (distance : Nat) (record : Record) :
    (record.shift distance).payload = record.payload := rfl

@[simp] theorem valueSpan_shift (distance : Nat) (record : Record) :
    (record.shift distance).valueSpan = record.valueSpan.shift distance := rfl

theorem field_shift (distance : Nat) (record : Record) (name : Option String) (reading : Reading) :
    (record.shift distance).field name (reading.shift distance) = (record.field name reading).shift distance := by
  simp only [field, Field.shift]
  rfl

theorem keep_shift (distance : Nat) (record : Record) (type : FieldType) (error : DecodeError) :
    (record.shift distance).keep type (error.shift distance) = (record.keep type error).shift distance := by
  simp only [keep, Reading.shift, Value.shift]
  rfl

theorem candidates_shift (options : Options) (length distance : Nat) (payload : Payload) :
    (payload.candidates options length).map (Candidate.shift distance) = payload.candidates options length := by
  rw [Payload.candidates, List.map_map]
  refine List.map_congr_left fun type _ => ?_
  simp only [Function.comp_apply, Candidate.shift, Scalar.mapError_read]

theorem guessed_shift (options : Options) (distance : Nat) (record : Record) :
    (record.shift distance).guessed options = (record.guessed options).shift distance := by
  simp only [guessed, wireType_shift, payload_shift, valueSpan_shift, Span.length_shift]
  split
  · simp [Reading.ofScalar, Reading.shift, Value.shift]
  · simp [Reading.ofScalar, Reading.shift, Value.shift]
  · split
    · simp [Reading.ofScalar, Reading.shift, Value.shift]
    · rename_i error hread
      rw [← keep_shift, Scalar.shift_of_read_error hread]

theorem undescribed_shift (options : Options) (distance : Nat) (record : Record) :
    (record.shift distance).undescribed options = (record.undescribed options).shift distance := by
  unfold undescribed
  split
  · simp only [payload_shift, valueSpan_shift, Span.length_shift, Reading.shift, Value.shift, candidates_shift,
      List.map_nil]
  · exact guessed_shift options distance record

theorem enumNotes_shift (enumType : Option EnumType) (distance : Nat) (span : Span) (value : Scalar) :
    enumNotes enumType (span.shift distance) value =
      (enumNotes enumType span value).map (Diagnostic.shift distance) := by
  unfold enumNotes
  split
  · simp [Diagnostic.shift, DecodeError.shift]
  · rfl

theorem asScalar_shift (options : Options) (enumType : Option EnumType) (distance : Nat)
    (description : FieldDescription) (record : Record) :
    (record.shift distance).asScalar options enumType description =
      (record.asScalar options enumType description).shift distance := by
  simp only [asScalar, payload_shift, valueSpan_shift, Span.length_shift]
  split
  · rw [enumNotes_shift]
    simp [Reading.shift, Value.shift]
  · rename_i error hread
    rw [← keep_shift, Scalar.shift_of_read_error hread]

theorem asPacked_shift (options : Options) (enumType : Option EnumType) (distance : Nat)
    (description : FieldDescription) (record : Record) (content : Bytes) :
    (record.shift distance).asPacked options enumType description content =
      (record.asPacked options enumType description content).shift distance := by
  simp only [asPacked, valueSpan_shift, Span.start_shift, Packed.read_shift]
  cases Packed.read options enumType description.type record.valueSpan.start content with
  | error error => exact keep_shift distance record description.type error
  | ok elements =>
    simp only [Except.map, Except.mapError, Reading.shift, Value.shift, List.map_nil, Reading.mk.injEq, true_and]
    rw [List.flatMap_map, List.map_flatMap]
    exact List.flatMap_congr fun element _ => enumNotes_shift enumType distance element.span element.value

theorem asMessage_shift {distance : Nat} (hembed : Message.Moves distance embed) (options : Options)
    (nested : Option MessageType) (description : FieldDescription) (record : Record) (content : Bytes) :
    (record.shift distance).asMessage options embed nested description content =
      (record.asMessage options embed nested description content).shift distance := by
  unfold asMessage
  split
  · exact keep_shift distance record description.type (.unresolvedMessage description.name)
  · exact keep_shift distance record description.type (.nestingLimit options.maxDepth)
  · rename_i nested enter
    have hmoved := hembed enter rfl nested record.valueSpan.start content
    rw [valueSpan_shift, Span.start_shift, hmoved]
    simp [Reading.shift, Value.shift]

theorem described_shift {distance : Nat} (hembed : Message.Moves distance embed) (description : FieldDescription)
    (record : Record) :
    (record.shift distance).described options schema embed description =
      (record.described options schema embed description).shift distance := by
  simp only [described, payload_shift]
  split
  · split
    · exact asPacked_shift options _ distance description record _
    · split
      · exact asMessage_shift hembed options _ description record _
      · exact asScalar_shift options _ distance description record
  · exact asScalar_shift options _ distance description record

theorem decode_shift {distance : Nat} (hembed : Message.Moves distance embed) (record : Record) :
    (record.shift distance).decode options schema embed type =
      (record.decode options schema embed type).shift distance := by
  simp only [decode, number_shift]
  split
  · rw [described_shift hembed, field_shift]
  · rw [undescribed_shift, field_shift]

end Record

/-! ### Messages -/

theorem Stop.field?_shift (type : Option MessageType) (distance : Nat) (stop : Stop) :
    (stop.shift distance).field? type = (stop.field? type).map (Field.shift distance) := by
  cases stop with
  | garbage => rfl
  | incomplete number wireType span content error =>
    simp [Stop.shift, Stop.field?, Field.shift, Value.shift, Diagnostic.shift]

theorem Stop.garbage?_shift (distance : Nat) (stop : Stop) : (stop.shift distance).garbage? = stop.garbage? := by
  cases stop <;> rfl

theorem Stop.diagnostics_shift (distance : Nat) (stop : Stop) :
    (stop.shift distance).diagnostics = stop.diagnostics.map (Diagnostic.shift distance) := by
  cases stop <;> rfl

namespace Message

variable {options : Options} {schema : Schema} {embed : Option Embed}

theorem ofWindow_shift {distance : Nat} (hembed : Moves distance embed) (type : Option MessageType) (start : Nat)
    (window : Bytes) :
    ofWindow options schema embed type (start + distance) window =
      (ofWindow options schema embed type start window).shift distance := by
  have hdecode : ∀ records : List Record,
      (records.map (Record.shift distance)).map (Record.decode options schema embed type) =
        (records.map (Record.decode options schema embed type)).map (Field.shift distance) := by
    intro records
    rw [List.map_map, List.map_map]
    exact List.map_congr_left fun record _ => Record.decode_shift hembed record
  unfold ofWindow
  rw [Framing.ofWindow_shift]
  cases Framing.ofWindow start window with
  | mk records stop =>
    cases stop with
    | none => simp [Message.shift, Framing.shift, shiftFields_eq_map, hdecode]
    | some stop =>
      simp only [Message.shift, Framing.shift, shiftFields_eq_map, List.map_append, hdecode, Option.map_some,
        Option.bind_some, Option.getD_some, Stop.field?_shift, Stop.garbage?_shift, Stop.diagnostics_shift,
        Span.ofLength_shift]
      cases stop.field? type <;> rfl

/-- A message that stands further back decodes to the same tree, moved. -/
theorem ofBudget_shift (options : Options) (schema : Schema) (budget : Nat) (type : Option MessageType)
    (distance start : Nat) (window : Bytes) :
    ofBudget options schema budget type (start + distance) window =
      (ofBudget options schema budget type start window).shift distance := by
  induction budget generalizing type start window with
  | zero =>
    refine ofWindow_shift ?_ type start window
    intro enter henter
    cases henter
  | succ budget ih =>
    refine ofWindow_shift ?_ type start window
    intro enter henter nested start content
    cases henter
    exact ih (some nested) start content

end Message

end WireTree
