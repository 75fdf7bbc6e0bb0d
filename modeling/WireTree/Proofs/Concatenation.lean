import WireTree.Proofs.Tiling
import WireTree.Proofs.Truncation

/-!
# Decoding a concatenation

A window that ends behind its last record is the first part of any longer window, whose other fields are those of the bytes
that follow. Where splitting stops, bytes that follow may still complete the record that was begun, unless the stop is
final: a wire type that means nothing, a group, or ten bytes of a varint that has not ended. A final stop stays where it is,
and all that follows belongs to it.
-/

namespace WireTree

/-! ### Varints without end -/

namespace Varint

/-- Whether the first ten bytes all announce another one, so that no varint begins the bytes, whatever follows them. -/
def Endless (bytes : Bytes) : Prop :=
  ∃ front rest : Bytes, bytes = front ++ rest ∧ front.length = maxLength ∧ ∀ byte ∈ front, ¬ byte < 128

theorem Endless.append {bytes : Bytes} (h : Endless bytes) (more : Bytes) : Endless (bytes ++ more) := by
  obtain ⟨front, rest, rfl, hlength, hfront⟩ := h
  exact ⟨front, rest ++ more, List.append_assoc _ _ _, hlength, hfront⟩

theorem read_of_endless {bytes : Bytes} (h : Endless bytes) : read bytes = .error .overlong := by
  obtain ⟨front, rest, rfl, hlength, hfront⟩ := h
  refine read_eq_overlong_iff.2 ⟨?_, ?_⟩
  · rw [List.length_append, hlength]
    exact Nat.le_add_right _ _
  · rwa [← hlength, List.take_left]

end Varint

/-! ### Stops that more bytes do not lift -/

/-- The span, with its end moved back by `count` bytes. -/
def Span.extend (count : Nat) (span : Span) : Span := ⟨span.start, span.stop + count⟩

theorem Span.extend_ofLength (start length count : Nat) :
    (ofLength start length).extend count = ofLength start (length + count) := by
  rw [extend, ofLength, ofLength, Nat.add_assoc]

namespace Stop

/-- The same stop, at the same place, with more bytes behind it. -/
def extend (more : Bytes) : Stop → Stop
  | garbage span content error => garbage (span.extend more.length) (content ++ more) error
  | incomplete number wireType span content error =>
    incomplete number wireType (span.extend more.length) (content ++ more) error

/-- Whether the stop stays, whatever bytes follow. -/
inductive Final : Stop → Prop
  | unsupported (span : Span) (content : Bytes) (raw : Nat) : Final (garbage span content (.unsupportedWireType raw))
  | endlessTag (span : Span) (content : Bytes) (error : DecodeError) (hendless : Varint.Endless content) :
    Final (garbage span content error)
  | group (number : Nat) (wireType : WireType) (span : Span) (content : Bytes) (error : DecodeError)
      (hgroup : wireType = .startGroup ∨ wireType = .endGroup) : Final (incomplete number wireType span content error)
  | endlessValue (number : Nat) (wireType : WireType) (span : Span) (content : Bytes) (error : DecodeError)
      (hkind : wireType = .varint ∨ wireType = .lengthDelimited) (hendless : Varint.Endless content) :
    Final (incomplete number wireType span content error)

end Stop

theorem Payload.read_append_of_final {wireType : WireType} {start : Nat} {content : Bytes} {error : DecodeError}
    (h : read wireType start content = .error error)
    (hfinal : wireType = .startGroup ∨ wireType = .endGroup ∨
      (wireType = .varint ∨ wireType = .lengthDelimited) ∧ Varint.Endless content) (more : Bytes) :
    read wireType start (content ++ more) = .error error := by
  rcases hfinal with rfl | rfl | ⟨rfl | rfl, hendless⟩
  · exact h
  · exact h
  · have hread := Varint.read_of_endless hendless
    have hread' := Varint.read_of_endless (hendless.append more)
    simp only [read, hread] at h
    simp only [read, hread', ← h]
  · have hread := Varint.read_of_endless hendless
    have hread' := Varint.read_of_endless (hendless.append more)
    simp only [read, hread] at h
    simp only [read, hread', ← h]

/-- Where a final stop explains why no record begins, none begins with more bytes behind. -/
theorem Record.read_append_of_final {start : Nat} {rest : Bytes} {stop : Stop} (h : stop.Explains start rest)
    (hfinal : stop.Final) (more : Bytes) : read start (rest ++ more) = .error (stop.extend more) := by
  have hspan : ∀ length, Span.ofLength start (length + more.length) = (Span.ofLength start length).extend more.length :=
    fun length => (Span.extend_ofLength start length more.length).symm
  cases h with
  | malformed error htag =>
    cases hfinal with
    | endlessTag _ _ _ hendless =>
      have htag := Varint.read_of_endless (hendless.append more)
      simp only [read, Tag.read, htag, List.length_append, hspan]
      rfl
  | unsupported tag content raw hrest hkind hraw =>
    subst hrest hkind
    have hnone : WireType.ofRaw? (tag.value.toNat % 8) = none := by
      rcases hraw with hraw | hraw <;> rw [hraw] <;> rfl
    simp only [read, Tag.read, List.append_assoc, Varint.read_append, hnone]
    rw [← List.append_assoc, List.length_append, hspan]
    rfl
  | incomplete tag wireType content error hrest hkind hbody =>
    subst hrest
    have hsome := WireType.ofRaw?_eq_some_iff.2 hkind
    have hmore : Payload.read wireType (start + tag.bytes.length) (content ++ more) = .error error := by
      refine Payload.read_append_of_final hbody ?_ more
      cases hfinal with
      | group _ _ _ _ _ hgroup => exact hgroup.imp_right .inl
      | endlessValue _ _ _ _ _ hvalue hendless => exact .inr (.inr ⟨hvalue, hendless⟩)
    simp only [read, Tag.read, List.append_assoc, Varint.read_append, hsome, List.drop_left, hmore]
    rw [← List.append_assoc, List.length_append, hspan]
    rfl

namespace Framing

theorem ofWindow_append_of_stop_eq_none {start : Nat} {window : Bytes} (h : (ofWindow start window).stop = none)
    (more : Bytes) :
    ofWindow start (window ++ more) =
      ⟨(ofWindow start window).records ++ (ofWindow (start + window.length) more).records,
        (ofWindow (start + window.length) more).stop⟩ := by
  obtain ⟨items, rest, rfl, ⟨rfl, hends⟩ | ⟨stop, -, -, hends⟩⟩ := exists_items start window
  · rw [List.append_nil] at hends ⊢
    rw [ofWindow_append, hends]
  · rw [hends] at h
    cases h

theorem ofWindow_append_of_final {start : Nat} {window : Bytes} {stop : Stop}
    (h : (ofWindow start window).stop = some stop) (hfinal : stop.Final) (more : Bytes) :
    ofWindow start (window ++ more) = ⟨(ofWindow start window).records, some (stop.extend more)⟩ := by
  obtain ⟨items, rest, rfl, ⟨-, hends⟩ | ⟨found, hrest, hexplains, hends⟩⟩ := exists_items start window
  · rw [hends] at h
    cases h
  · rw [hends] at h
    cases h
    have hread := Record.read_append_of_final hexplains hfinal more
    rw [List.append_assoc, ofWindow_append, ofWindow_of_read_error (by simp [hrest]) hread, List.append_nil, hends]

end Framing

/-! ### Messages that end for good -/

def Diagnostic.extend (count : Nat) (diagnostic : Diagnostic) : Diagnostic :=
  ⟨diagnostic.span.extend count, diagnostic.error⟩

/-- The field, with more bytes where its value should be if there is none. -/
def Field.extend (more : Bytes) (field : Field) : Field :=
  match field.value with
  | .incomplete content =>
    { field with
      span := field.span.extend more.length
      value := .incomplete (content ++ more)
      diagnostics := field.diagnostics.map (Diagnostic.extend more.length) }
  | _ => field

/-- The message, with more bytes at its end that belong to what it ends with. -/
def Message.extend (more : Bytes) (message : Message) : Message :=
  { message with
    span := message.span.extend more.length
    fields := message.fields.map (Field.extend more)
    garbage := message.garbage.map (· ++ more)
    diagnostics := message.diagnostics.map (Diagnostic.extend more.length) }

/-- The ways in which a message ends for good. -/
inductive Message.EndsForGood (message : Message) : Prop
  /-- Its garbage starts with a tag of a wire type that means nothing. -/
  | unsupported (content : Bytes) (span : Span) (raw : Nat) (hraw : raw = 6 ∨ raw = 7)
      (hgarbage : message.garbage = some content) (hnoted : ⟨span, .unsupportedWireType raw⟩ ∈ message.diagnostics)
  /-- Its garbage starts with ten bytes of a tag that has not ended. -/
  | endlessTag (content : Bytes) (hgarbage : message.garbage = some content) (hendless : Varint.Endless content)
  /-- It ends with a group. -/
  | group (field : Field) (hfield : field ∈ message.fields) (hincomplete : field.isIncomplete = true)
      (hgroup : field.wireType = .startGroup ∨ field.wireType = .endGroup)
  /-- Ten bytes of a number, or of the length of a value, have not ended. -/
  | endlessValue (field : Field) (content : Bytes) (hfield : field ∈ message.fields)
      (hvalue : field.value = .incomplete content)
      (hkind : field.wireType = .varint ∨ field.wireType = .lengthDelimited) (hendless : Varint.Endless content)

theorem Field.extend_of_complete (more : Bytes) {field : Field} (h : field.isIncomplete = false) :
    field.extend more = field := by
  unfold extend
  unfold isIncomplete at h
  split
  · rename_i content hvalue
    rw [hvalue] at h
    cases h
  · rfl

namespace Stop

theorem field?_extend (type : Option MessageType) (more : Bytes) (stop : Stop) :
    (stop.extend more).field? type = (stop.field? type).map (Field.extend more) := by
  cases stop <;> rfl

theorem garbage?_extend (more : Bytes) (stop : Stop) :
    (stop.extend more).garbage? = stop.garbage?.map (· ++ more) := by
  cases stop <;> rfl

theorem diagnostics_extend (more : Bytes) (stop : Stop) :
    (stop.extend more).diagnostics = stop.diagnostics.map (Diagnostic.extend more.length) := by
  cases stop <;> rfl

end Stop

namespace Message

variable {options : Options} {schema : Schema} {embed : Option Embed} {type : Option MessageType} {start : Nat}
  {window : Bytes}

theorem exists_stop_of_isIncomplete {field : Field}
    (hfield : field ∈ (ofWindow options schema embed type start window).fields)
    (hincomplete : field.isIncomplete = true) :
    ∃ number wireType span content error,
      (Framing.ofWindow start window).stop = some (.incomplete number wireType span content error) ∧
        (Stop.incomplete number wireType span content error).field? type = some field := by
  rw [fields_ofWindow] at hfield
  rcases List.mem_append.1 hfield with hfield | hfield
  · obtain ⟨record, -, rfl⟩ := List.mem_map.1 hfield
    rw [Record.isIncomplete_decode] at hincomplete
    cases hincomplete
  · obtain ⟨stop, hstop, hlast⟩ := Option.bind_eq_some_iff.1 (Option.mem_toList.1 hfield)
    cases stop with
    | garbage => cases hlast
    | incomplete number wireType span content error => exact ⟨number, wireType, span, content, error, hstop, hlast⟩

theorem exists_stop_of_garbage {content : Bytes}
    (hgarbage : (ofWindow options schema embed type start window).garbage = some content) :
    ∃ span error, (Framing.ofWindow start window).stop = some (.garbage span content error) := by
  rw [garbage_ofWindow] at hgarbage
  obtain ⟨stop, hstop, hcontent⟩ := Option.bind_eq_some_iff.1 hgarbage
  cases stop with
  | garbage span found error =>
    cases hcontent
    exact ⟨span, error, hstop⟩
  | incomplete => cases hcontent

theorem EndsForGood.exists_final (h : (ofWindow options schema embed type start window).EndsForGood) :
    ∃ stop, (Framing.ofWindow start window).stop = some stop ∧ stop.Final := by
  cases h with
  | unsupported content span raw hraw hgarbage hnoted =>
    obtain ⟨found, error, hstop⟩ := exists_stop_of_garbage hgarbage
    rw [diagnostics_ofWindow, hstop] at hnoted
    cases List.mem_singleton.1 hnoted
    exact ⟨_, hstop, .unsupported _ _ _⟩
  | endlessTag content hgarbage hendless =>
    obtain ⟨span, error, hstop⟩ := exists_stop_of_garbage hgarbage
    exact ⟨_, hstop, .endlessTag _ _ _ hendless⟩
  | group field hfield hincomplete hgroup =>
    obtain ⟨number, wireType, span, content, error, hstop, hlast⟩ := exists_stop_of_isIncomplete hfield hincomplete
    cases hlast
    exact ⟨_, hstop, .group _ _ _ _ _ hgroup⟩
  | endlessValue field content hfield hvalue hkind hendless =>
    have hincomplete : field.isIncomplete = true := by rw [Field.isIncomplete, hvalue]
    obtain ⟨number, wireType, span, content, error, hstop, hlast⟩ := exists_stop_of_isIncomplete hfield hincomplete
    cases hlast
    cases hvalue
    exact ⟨_, hstop, .endlessValue _ _ _ _ _ hkind hendless⟩

theorem ofWindow_append_of_stop_eq_none (h : (Framing.ofWindow start window).stop = none) (more : Bytes) :
    ofWindow options schema embed type start (window ++ more) =
      { ofWindow options schema embed type (start + window.length) more with
        span := .ofLength start (window ++ more).length
        fields := (ofWindow options schema embed type start window).fields ++
          (ofWindow options schema embed type (start + window.length) more).fields } := by
  have hfields : (ofWindow options schema embed type start window).fields =
      (Framing.ofWindow start window).records.map (Record.decode options schema embed type) := by
    rw [fields_ofWindow, h]
    exact List.append_nil _
  rw [hfields]
  simp only [ofWindow, Framing.ofWindow_append_of_stop_eq_none h, List.map_append, List.append_assoc]

theorem ofWindow_append_of_final {stop : Stop} (h : (Framing.ofWindow start window).stop = some stop)
    (hfinal : stop.Final) (more : Bytes) :
    ofWindow options schema embed type start (window ++ more) =
      (ofWindow options schema embed type start window).extend more := by
  have hrecords : ((Framing.ofWindow start window).records.map (Record.decode options schema embed type)).map
      (Field.extend more) = (Framing.ofWindow start window).records.map (Record.decode options schema embed type) := by
    rw [List.map_map]
    refine List.map_congr_left fun record _ => ?_
    exact Field.extend_of_complete more (Record.isIncomplete_decode options schema embed type record)
  simp only [ofWindow, Framing.ofWindow_append_of_final h hfinal, h, extend, List.map_append, hrecords,
    Option.bind_some, Option.map_some, Option.getD_some, Option.toList_map, Stop.field?_extend, Stop.garbage?_extend,
    Stop.diagnostics_extend, Span.extend_ofLength, List.length_append]

/-! ### Windows of the data -/

theorem decodeWindow_slice (options : Options) (schema : Schema) (type : Option MessageType)
    (front window back : Bytes) :
    decodeWindow options schema type (front ++ (window ++ back)) front.length window.length =
      ofWindow options schema (entering options schema options.maxDepth) type front.length window := by
  have hstart : front.length = min front.length (front ++ (window ++ back)).length := by
    rw [List.length_append]
    omega
  have hwindow : ((front ++ (window ++ back)).drop (min front.length (front ++ (window ++ back)).length)).take
      window.length = window := by
    rw [← hstart, List.drop_left, List.take_left]
  rw [decodeWindow_eq options schema type hstart hwindow, if_pos (by simp), ofBudget_eq]

theorem exists_parts {data : Bytes} {first middle last : Nat} (hfirst : first ≤ middle) (hmiddle : middle ≤ last)
    (hlast : last ≤ data.length) :
    ∃ front window more back : Bytes, data = front ++ (window ++ (more ++ back)) ∧ front.length = first ∧
      window.length = middle - first ∧ more.length = last - middle := by
  refine ⟨data.take first, (data.drop first).take (middle - first), (data.drop middle).take (last - middle),
    data.drop last, ?_, ?_, ?_, ?_⟩
  · have hbehind : (data.drop middle).take (last - middle) ++ data.drop last = data.drop middle := by
      rw [← Nat.add_sub_cancel' hmiddle, ← List.drop_drop, Nat.add_sub_cancel_left, List.take_append_drop]
    have hbetween : (data.drop first).take (middle - first) ++ data.drop middle = data.drop first := by
      rw [← Nat.add_sub_cancel' hfirst, ← List.drop_drop, Nat.add_sub_cancel_left, List.take_append_drop]
    rw [hbehind, hbetween, List.take_append_drop]
  · exact List.length_take_of_le (by omega)
  · exact List.length_take_of_le (by rw [List.length_drop]; omega)
  · exact List.length_take_of_le (by rw [List.length_drop]; omega)

/-- If a window ends behind a field, a longer one has its fields and then those of the bytes that follow, with all else
from there. If it ends for good, a longer one ends in the same way, and the bytes that follow belong to what it ends
with. -/
theorem decodeWindow_concat (options : Options) (schema : Schema) (type : Option MessageType) (data : Bytes)
    {first middle last : Nat} (hfirst : first ≤ middle) (hmiddle : middle ≤ last) (hlast : last ≤ data.length) :
    let run (start stop : Nat) := decodeWindow options schema type data start (stop - start)
    ((run first middle).garbage = none → (∀ field ∈ (run first middle).fields, field.isIncomplete = false) →
      run first last =
        { run middle last with
          span := ⟨first, last⟩, fields := (run first middle).fields ++ (run middle last).fields }) ∧
    ((run first middle).EndsForGood →
      run first last = (run first middle).extend (Span.slice ⟨middle, last⟩ data)) := by
  intro run
  obtain ⟨front, window, more, back, hdata, hfront, hwindow, hmore⟩ := exists_parts hfirst hmiddle hlast
  have hboth : (front ++ window).length = middle := by rw [List.length_append]; omega
  have hbytes : data = front ++ window ++ (more ++ back) := by rw [hdata, List.append_assoc]
  have hbefore : run first middle =
      ofWindow options schema (entering options schema options.maxDepth) type first window := by
    show decodeWindow options schema type data first (middle - first) = _
    rw [hdata, ← hwindow, ← hfront, decodeWindow_slice]
  have hbehind : run middle last =
      ofWindow options schema (entering options schema options.maxDepth) type (first + window.length) more := by
    show decodeWindow options schema type data middle (last - middle) = _
    rw [hbytes, ← hmore, ← hboth, decodeWindow_slice, List.length_append, hfront]
  have hwhole : run first last =
      ofWindow options schema (entering options schema options.maxDepth) type first (window ++ more) := by
    show decodeWindow options schema type data first (last - first) = _
    have hlength : (window ++ more).length = last - first := by rw [List.length_append]; omega
    have hbytes : data = front ++ (window ++ more ++ back) := by rw [hdata, List.append_assoc]
    rw [hbytes, ← hlength, ← hfront, decodeWindow_slice]
  have hspan : Span.ofLength first (window ++ more).length = ⟨first, last⟩ := by
    rw [Span.ofLength, List.length_append]
    congr 1
    omega
  have hslice : Span.slice ⟨middle, last⟩ data = more := by
    have hstop : last = (front ++ window).length + more.length := by omega
    rw [hstop, ← hboth, hbytes, Span.slice_append]
  rw [hbefore, hbehind, hwhole, hslice]
  constructor
  · intro hgarbage hfields
    have hstop := (neither_iff options schema _ type first window).1 ⟨hgarbage, hfields⟩
    rw [ofWindow_append_of_stop_eq_none hstop, hspan]
  · intro hends
    obtain ⟨stop, hstop, hfinal⟩ := hends.exists_final
    exact ofWindow_append_of_final hstop hfinal more

/-- A number is followed by a length that has not ended after ten bytes, and that no eleventh byte can end. -/
theorem decodeWindow_concat_endless :
    let endless : Bytes := [255, 255, 255, 255, 255, 255, 255, 255, 255, 255]
    let data : Bytes := [8, 1] ++ ([18] ++ endless) ++ [0]
    let run (start stop : Nat) := decodeWindow {} {} none data start (stop - start)
    let one : Field := ⟨1, .varint, ⟨0, 2⟩, none, .uint32, .scalar (.uint32 1), [], []⟩
    let rest : Field := ⟨2, .lengthDelimited, ⟨2, 13⟩, none, .none, .incomplete endless, [],
      [⟨⟨2, 13⟩, .malformedLength 3⟩]⟩
    let further : Field := ⟨2, .lengthDelimited, ⟨2, 14⟩, none, .none, .incomplete (endless ++ [0]), [],
      [⟨⟨2, 14⟩, .malformedLength 3⟩]⟩
    (run 0 2).fields = [one] ∧ (run 2 13).EndsForGood ∧ (run 0 13).fields = [one] ++ [rest] ∧
      (run 2 14).fields = [further] := by
  intro endless data run one rest further
  have hone : (run 0 2).fields = [one] := by with_unfolding_all rfl
  have hrest : (run 2 13).fields = [rest] := by with_unfolding_all rfl
  have hmem : rest ∈ (run 2 13).fields := by rw [hrest]; exact List.mem_singleton.2 rfl
  have hlead : ∀ byte ∈ endless, ¬ byte < 128 := by
    intro byte hbyte
    rw [List.eq_of_mem_replicate (show byte ∈ List.replicate 10 255 from hbyte)]
    decide
  have hgood : (run 2 13).EndsForGood :=
    .endlessValue rest endless hmem rfl (.inr rfl) ⟨endless, [], rfl, rfl, hlead⟩
  have hcomplete : ∀ field ∈ (run 0 2).fields, field.isIncomplete = false := by
    rw [hone]
    intro field hfield
    rw [List.mem_singleton.1 hfield]
    rfl
  have hgarbage : (run 0 2).garbage = none := by with_unfolding_all rfl
  have hfront := (decodeWindow_concat {} {} none data (show 0 ≤ 2 by decide) (show 2 ≤ 13 by decide)
    (show 13 ≤ data.length by decide)).1 hgarbage hcomplete
  have hbehind := (decodeWindow_concat {} {} none data (show 2 ≤ 13 by decide) (show 13 ≤ 14 by decide)
    (show 14 ≤ data.length by decide)).2 hgood
  refine ⟨hone, hgood, ?_, ?_⟩
  · have hfields : (run 0 13).fields = (run 0 2).fields ++ (run 2 13).fields := congrArg Message.fields hfront
    rw [hfields, hone, hrest]
  · have hfields : (run 2 14).fields = (run 2 13).fields.map (Field.extend [0]) := congrArg Message.fields hbehind
    rw [hfields, hrest]
    rfl

end Message

end WireTree
