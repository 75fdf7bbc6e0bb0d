import WireTree.Proofs.Nesting
import WireTree.Proofs.Row

/-!
# How a decoded tree covers its bytes

The fields of a message lie end to end from its start, and each is at least one byte long. What is left behind the last
of them is garbage, and a diagnostic says why. Only the last field can be incomplete, and it then takes all that is left.
A message in a field, and the elements of a packed one, cover the field behind its tag and length. This holds of every
message of a tree, at any depth.
-/

namespace WireTree

/-! ### Bytes of a span -/

namespace Span

/-- The bytes of the data that lie in the span. -/
def slice (span : Span) (data : Bytes) : Bytes := (data.take span.stop).drop span.start

theorem slice_append (front part back : Bytes) :
    slice ⟨front.length, front.length + part.length⟩ (front ++ (part ++ back)) = part := by
  have htake : (front ++ (part ++ back)).take (front.length + part.length) = front ++ part := by
    rw [← List.append_assoc, ← List.length_append, List.take_left]
  rw [slice, htake, List.drop_left]

theorem slice_eq_take {offset count stop : Nat} (data : Bytes) (h : count ≤ stop - offset) :
    slice ⟨offset, offset + count⟩ data = ((data.take stop).drop offset).take count := by
  rw [slice, List.drop_take, List.drop_take, List.take_take, Nat.add_sub_cancel_left, Nat.min_eq_left h]

/-- Spans that are not empty and lie end to end from `start` to `stop`. -/
inductive Tile : (start : Nat) → List Span → (stop : Nat) → Prop
  | nil (start : Nat) : Tile start [] start
  | cons {start stop : Nat} {span : Span} {rest : List Span} (hstart : span.start = start)
      (hnonempty : start < span.stop) (hrest : Tile span.stop rest stop) : Tile start (span :: rest) stop

namespace Tile

theorem single {start stop : Nat} (h : start < stop) : Tile start [⟨start, stop⟩] stop :=
  cons rfl h (nil stop)

theorem append {start middle stop : Nat} {left right : List Span} (hleft : Tile start left middle)
    (hright : Tile middle right stop) : Tile start (left ++ right) stop := by
  induction hleft with
  | nil => exact hright
  | cons hstart hnonempty _ ih => exact cons hstart hnonempty (ih hright)

theorem getLast_stop {start stop : Nat} {spans : List Span} (h : Tile start spans stop) :
    (spans.getLast?.map Span.stop).getD start = stop := by
  induction h with
  | nil => rfl
  | @cons start stop span rest _ _ _ ih =>
    rw [← ih]
    cases rest with
    | nil => rfl
    | cons next rest =>
      rw [List.getLast?_cons_cons, List.getLast?_cons]
      rfl

end Tile

end Span

/-! ### Tiled messages -/

/-- Where the content of a length-delimited field starts: behind its tag and the length that is written before it. -/
def Field.ContentAt (data : Bytes) (field : Field) (offset : Nat) : Prop :=
  ∃ tag lead, Tag.readAt data field.span.start field.span.length = .ok tag ∧
    Varint.read (Span.slice ⟨field.span.start + tag.length, field.span.stop⟩ data) = .ok lead ∧
    offset = field.span.start + tag.length + lead.length

/-- Where the last field of a message ends, or its start if it has no fields. -/
def Message.reach (message : Message) : Nat :=
  (message.fields.getLast?.map (·.span.stop)).getD message.span.start

/-- How the fields and the garbage of one message cover its bytes. -/
structure Message.Tiled (data : Bytes) (message : Message) : Prop where
  ordered : message.span.start ≤ message.span.stop
  within : message.span.stop ≤ data.length
  fields : Span.Tile message.span.start (message.fields.map (·.span)) message.reach
  reach_le : message.reach ≤ message.span.stop
  garbage_iff : message.garbage.isSome = true ↔ message.reach < message.span.stop
  garbage : ∀ content, message.garbage = some content →
    content = Span.slice ⟨message.reach, message.span.stop⟩ data ∧
      ∃ error, ⟨⟨message.reach, message.span.stop⟩, error⟩ ∈ message.diagnostics ∧
        (error = .malformedTag message.reach ∨ error = .unsupportedWireType 6 ∨ error = .unsupportedWireType 7)
  incomplete : ∀ front field back content, message.fields = front ++ field :: back →
    field.value = .incomplete content →
      back = [] ∧ field.span.stop = message.span.stop ∧
        ∃ tag, Tag.readAt data field.span.start field.span.length = .ok tag ∧
          content = Span.slice ⟨field.span.start + tag.length, field.span.stop⟩ data
  embedded : ∀ field ∈ message.fields, ∀ embedded, field.value = .message embedded →
    field.ContentAt data embedded.span.start ∧ embedded.span.stop = field.span.stop
  packed : ∀ field ∈ message.fields, ∀ elements, field.value = .packed elements →
    ∃ offset, field.ContentAt data offset ∧ Span.Tile offset (elements.map (·.span)) field.span.stop

/-! ### Items of the data -/

theorem Tag.readAt_append (front : Bytes) (tag : Varint.Spelling) (content back : Bytes) :
    readAt (front ++ (tag.bytes ++ content ++ back)) front.length (tag.bytes ++ content).length =
      .ok ⟨tag.value.toNat / 8, tag.value.toNat % 8, tag.bytes.length⟩ := by
  rw [readAt, List.drop_left, List.take_left]
  simp only [read, Varint.read_append]

theorem Item.tile_records (start : Nat) (items : List Item) :
    Span.Tile start ((records start items).map (·.span)) (start + (spell items).length) := by
  induction items generalizing start with
  | nil => exact .nil start
  | cons item items ih =>
    have hpos := item.length_pos
    refine .cons rfl (show start < start + item.bytes.length by omega) ?_
    rw [spell_cons, List.length_append, ← Nat.add_assoc]
    exact ih (start + item.bytes.length)

theorem Item.contentAt {item : Item} {lead : Varint.Spelling} {content : Bytes}
    {hfits : content.length = lead.value.toNat} (hbody : item.body = .lengthDelimited lead content hfits)
    (front back : Bytes) {field : Field} (hspan : field.span = .ofLength front.length item.bytes.length) :
    field.ContentAt (front ++ (item.bytes ++ back))
        (front.length + item.tag.bytes.length + lead.bytes.length) ∧
      front.length + item.tag.bytes.length + lead.bytes.length + content.length = field.span.stop := by
  have hbytes := Item.bytes_lengthDelimited hbody
  have htag := Tag.readAt_append front item.tag (lead.bytes ++ content) back
  have hslice : Span.slice ⟨front.length + item.tag.bytes.length, front.length + item.bytes.length⟩
      (front ++ (item.bytes ++ back)) = lead.bytes ++ content := by
    have h := Span.slice_append (front ++ item.tag.bytes) (lead.bytes ++ content) back
    simpa [hbytes, Nat.add_assoc] using h
  have hlead := Varint.read_append lead content
  rw [← hslice] at hlead
  rw [← hbytes] at htag
  refine ⟨⟨⟨item.tag.value.toNat / 8, item.tag.value.toNat % 8, item.tag.bytes.length⟩,
    ⟨lead.value, lead.bytes.length⟩, ?_, ?_, ?_⟩, ?_⟩
  · rw [hspan, Span.start_ofLength, Span.length_ofLength]
    exact htag
  · rw [hspan]
    exact hlead
  · rw [hspan]
    rfl
  · rw [hspan, Span.stop_ofLength, hbytes]
    simp only [List.length_append]
    omega

/-! ### Packed values -/

theorem ItemBody.tile_locate {wireType : WireType} (hlead : wireType ≠ .lengthDelimited) {bodies : List ItemBody}
    (hkind : ∀ body ∈ bodies, body.wireType = wireType) (start : Nat) :
    Span.Tile start ((locate start bodies).map (·.span)) (start + (spell bodies).length) := by
  induction bodies generalizing start with
  | nil => exact .nil start
  | cons body bodies ih =>
    obtain ⟨rfl, hkind⟩ := List.forall_mem_cons.1 hkind
    have hpos := body.length_pos
    have hrest := ih hkind (start + body.bytes.length)
    rw [locate, List.map_cons, span_located hlead, spell_cons, List.length_append, ← Nat.add_assoc]
    exact .cons rfl (by rw [Span.stop_ofLength]; omega) hrest

theorem FieldType.ne_lengthDelimited_of_isPackable {type : FieldType} {wireType : WireType}
    (hpackable : type.isPackable = true) (hwireType : type.wireType? = some wireType) : wireType ≠ .lengthDelimited := by
  rintro rfl
  cases type <;> simp_all [isPackable, wireType?]

theorem Packed.tile_read {options : Options} {enumType : Option EnumType} {type : FieldType} {start : Nat}
    {content : Bytes} {elements : List Element} (h : read options enumType type start content = .ok elements) :
    Span.Tile start (elements.map (·.span)) (start + content.length) := by
  obtain ⟨wireType, values, hpackable, hwireType, hsplit, helements⟩ := read_eq_ok_iff.1 h
  have hkind : wireType ≠ .lengthDelimited := FieldType.ne_lengthDelimited_of_isPackable hpackable hwireType
  obtain ⟨bodies, hbodies, rfl, rfl⟩ := exists_bodies_of_split hsplit
  rw [spans_of_readElement helements]
  exact ItemBody.tile_locate hkind hbodies start

/-! ### Decoded windows -/

namespace Message

variable {options : Options} {schema : Schema} {embed : Option Embed} {type : Option MessageType}

theorem value_ne_incomplete {start : Nat} {items : List Item} {field : Field}
    (h : field ∈ (Item.records start items).map (Record.decode options schema embed type)) (content : Bytes) :
    field.value ≠ .incomplete content := by
  obtain ⟨record, -, rfl⟩ := List.mem_map.1 h
  intro hvalue
  have hreads := Record.reads_decode options schema embed type record
  rw [hvalue] at hreads
  cases hreads

theorem spans_records (options : Options) (schema : Schema) (embed : Option Embed) (type : Option MessageType)
    (start : Nat) (items : List Item) :
    ((Item.records start items).map (Record.decode options schema embed type)).map (·.span) =
      (Item.records start items).map (·.span) := by
  rw [List.map_map]
  exact List.map_congr_left fun record _ => Record.span_decode record

theorem reach_eq {message : Message} {start stop : Nat} (hstart : message.span.start = start)
    (h : Span.Tile start (message.fields.map (·.span)) stop) : message.reach = stop := by
  rw [← h.getLast_stop, reach, List.getLast?_map, Option.map_map, hstart]
  rfl

/-- Whether the messages that are entered have the spans of their bytes. -/
def KeepsSpans (embed : Option Embed) : Prop :=
  ∀ enter, embed = some enter → ∀ nested start content,
    (enter nested start content).span = .ofLength start content.length

theorem keepsSpans_entering (budget : Nat) : KeepsSpans (entering options schema budget) := by
  intro enter henter nested start content
  cases budget with
  | zero => cases henter
  | succ budget =>
    cases henter
    exact span_ofBudget options schema budget (some nested) start content

theorem embedded_ofWindow (options : Options) (schema : Schema) (type : Option MessageType)
    (hembed : KeepsSpans embed) (front window back : Bytes) :
    ∀ field ∈ (ofWindow options schema embed type front.length window).fields, ∀ embedded,
      field.value = .message embedded →
        field.ContentAt (front ++ (window ++ back)) embedded.span.start ∧ embedded.span.stop = field.span.stop := by
  intro field hfield embedded hvalue
  obtain ⟨before, item, behind, lead, content, hfits, enter, description, nested, rfl, hbody, hdecode, henter, -, -,
    rfl⟩ := exists_content_of_message hfield hvalue
  have hspan : field.span = .ofLength (front ++ before).length item.bytes.length := by
    rw [hdecode, Record.span_decode, List.length_append]
    rfl
  have h := Item.contentAt hbody (front ++ before) (behind ++ back) hspan
  rw [hembed enter henter]
  simpa [Span.ofLength] using h

theorem packed_ofWindow (options : Options) (schema : Schema) (embed : Option Embed) (type : Option MessageType)
    (front window back : Bytes) :
    ∀ field ∈ (ofWindow options schema embed type front.length window).fields, ∀ elements,
      field.value = .packed elements →
        ∃ offset, field.ContentAt (front ++ (window ++ back)) offset ∧
          Span.Tile offset (elements.map (·.span)) field.span.stop := by
  intro field hfield elements hvalue
  obtain ⟨before, item, behind, rfl, hdecode⟩ := exists_item_of_mem_fields hfield (by simp [hvalue])
  have hspan : field.span = .ofLength (front ++ before).length item.bytes.length := by
    rw [hdecode, Record.span_decode, List.length_append]
    rfl
  have hreads := Record.reads_decode options schema embed type (item.record (front.length + before.length))
  rw [← hdecode, hvalue] at hreads
  cases hreads with
  | packed description content elements hdescribed hpayload hread =>
    obtain ⟨lead, hfits, hbody⟩ := ItemBody.lengthDelimited_of_payload hpayload
    obtain ⟨hcontent, hstop⟩ := Item.contentAt hbody (front ++ before) (behind ++ back) hspan
    have htile := Packed.tile_read hread
    have hstart : (item.record (front.length + before.length)).valueSpan.start =
        (front ++ before).length + item.tag.bytes.length + lead.bytes.length := by
      rw [Item.valueSpan_lengthDelimited hbody, Span.start_ofLength, List.length_append]
    rw [hstart, hstop] at htile
    exact ⟨_, by simpa using hcontent, htile⟩

theorem eq_nil_of_incomplete {start : Nat} {items : List Item} {last : Option Field} {before behind : List Field}
    {field : Field} {content : Bytes} (hvalue : field.value = .incomplete content)
    (h : (Item.records start items).map (Record.decode options schema embed type) ++ last.toList =
      before ++ field :: behind) : behind = [] ∧ last = some field := by
  rcases List.append_eq_append_iff.1 h with ⟨between, -, hlast⟩ | ⟨between, hrecords, hlast⟩
  · cases last with
    | none => simp at hlast
    | some found =>
      cases between with
      | nil =>
        simp only [Option.toList_some, List.nil_append, List.cons.injEq] at hlast
        exact ⟨hlast.2.symm, by rw [hlast.1]⟩
      | cons => simp at hlast
  · cases between with
    | nil =>
      cases last with
      | none => simp at hlast
      | some found =>
        simp only [Option.toList_some, List.nil_append, List.cons.injEq] at hlast
        exact ⟨hlast.2, by rw [hlast.1]⟩
    | cons found between =>
      simp only [List.cons_append, List.cons.injEq] at hlast
      have hmem : field ∈ (Item.records start items).map (Record.decode options schema embed type) := by
        rw [hrecords, hlast.1]
        exact List.mem_append_right _ List.mem_cons_self
      exact absurd hvalue (value_ne_incomplete hmem content)

section Endings

variable {front window rest : Bytes} {items : List Item}

/-- However a window ends, it is tiled once it is known where its fields end, what its garbage is and which field is
incomplete. -/
theorem tiled_of_reach (hembed : KeepsSpans embed) (back : Bytes) {message : Message} {reach stop : Nat}
    (hmessage : message = ofWindow options schema embed type front.length window)
    (hstop : stop = front.length + window.length)
    (htile : Span.Tile front.length (message.fields.map (·.span)) reach) (hreach : reach ≤ stop)
    (hiff : message.garbage.isSome = true ↔ reach < stop)
    (hgarbage : ∀ content, message.garbage = some content →
      content = Span.slice ⟨reach, stop⟩ (front ++ (window ++ back)) ∧
        ∃ error, ⟨⟨reach, stop⟩, error⟩ ∈ message.diagnostics ∧
          (error = .malformedTag reach ∨ error = .unsupportedWireType 6 ∨ error = .unsupportedWireType 7))
    (hincomplete : ∀ before field behind content, message.fields = before ++ field :: behind →
      field.value = .incomplete content →
        behind = [] ∧ field.span.stop = stop ∧
          ∃ tag, Tag.readAt (front ++ (window ++ back)) field.span.start field.span.length = .ok tag ∧
            content = Span.slice ⟨field.span.start + tag.length, field.span.stop⟩ (front ++ (window ++ back))) :
    message.Tiled (front ++ (window ++ back)) := by
  have hstart : message.span.start = front.length := by rw [hmessage]; rfl
  have hend : message.span.stop = stop := by rw [hmessage, hstop]; rfl
  have hwhere : message.reach = reach := reach_eq hstart htile
  refine ⟨?_, ?_, ?_, ?_, ?_, ?_, ?_, ?_, ?_⟩
  · omega
  · simp only [List.length_append]
    omega
  · rwa [hstart, hwhere]
  · omega
  · rwa [hwhere, hend]
  · rwa [hwhere, hend]
  · rwa [hend]
  · rw [hmessage]
    exact embedded_ofWindow options schema type hembed front window back
  · rw [hmessage]
    exact packed_ofWindow options schema embed type front window back

theorem tiled_of_items (hembed : KeepsSpans embed) (back : Bytes) (hwindow : window = Item.spell items)
    (hends : Framing.ofWindow front.length window = ⟨Item.records front.length items, none⟩) :
    (ofWindow options schema embed type front.length window).Tiled (front ++ (window ++ back)) := by
  have hfields := fields_ofWindow options schema embed type front.length window
  have hgarbage := garbage_ofWindow options schema embed type front.length window
  rw [hends] at hfields hgarbage
  have htile := Item.tile_records front.length items
  rw [← spans_records options schema embed type, ← hwindow] at htile
  apply tiled_of_reach hembed back rfl rfl
  · simpa [hfields] using htile
  · omega
  · rw [hgarbage]
    simp
  · intro content hcontent
    rw [hgarbage] at hcontent
    cases hcontent
  · intro before field behind content h hvalue
    rw [hfields] at h
    cases (eq_nil_of_incomplete hvalue h).2

theorem tiled_of_garbage (hembed : KeepsSpans embed) (back : Bytes) (hwindow : window = Item.spell items ++ rest)
    (hrest : rest ≠ []) {start : Nat} (hstart : start = front.length + (Item.spell items).length)
    {error : DecodeError}
    (herror : error = .malformedTag start ∨ error = .unsupportedWireType 6 ∨ error = .unsupportedWireType 7)
    (hends : Framing.ofWindow front.length window =
      ⟨Item.records front.length items, some (.garbage (.ofLength start rest.length) rest error)⟩) :
    (ofWindow options schema embed type front.length window).Tiled (front ++ (window ++ back)) := by
  have hfields := fields_ofWindow options schema embed type front.length window
  have hgarbage := garbage_ofWindow options schema embed type front.length window
  have hdiagnostics := diagnostics_ofWindow options schema embed type front.length window
  rw [hends] at hfields hgarbage hdiagnostics
  have htile := Item.tile_records front.length items
  rw [← spans_records options schema embed type, ← hstart] at htile
  have hpos : 0 < rest.length := List.length_pos_iff.2 hrest
  have hstop : start + rest.length = front.length + window.length := by
    rw [hwindow, List.length_append]
    omega
  apply tiled_of_reach hembed back rfl hstop
  · simpa [hfields, Stop.field?] using htile
  · omega
  · rw [hgarbage]
    simp only [Option.bind_some, Stop.garbage?, Option.isSome_some, true_iff]
    omega
  · intro content hcontent
    rw [hgarbage] at hcontent
    cases hcontent
    refine ⟨?_, error, ?_, herror⟩
    · have hslice := Span.slice_append (front ++ Item.spell items) rest back
      rw [hwindow, hstart]
      simpa using hslice.symm
    · rw [hdiagnostics]
      exact List.mem_singleton.2 rfl
  · intro before field behind content h hvalue
    rw [hfields] at h
    cases (eq_nil_of_incomplete hvalue h).2

theorem tiled_of_incomplete (hembed : KeepsSpans embed) (back : Bytes) (hwindow : window = Item.spell items ++ rest)
    {start : Nat} (hstart : start = front.length + (Item.spell items).length) {tag : Varint.Spelling}
    {content : Bytes} (hrest : rest = tag.bytes ++ content) {number : Nat} {wireType : WireType}
    {error : DecodeError}
    (hends : Framing.ofWindow front.length window =
      ⟨Item.records front.length items,
        some (.incomplete number wireType (.ofLength start rest.length) content error)⟩) :
    (ofWindow options schema embed type front.length window).Tiled (front ++ (window ++ back)) := by
  have hfields := fields_ofWindow options schema embed type front.length window
  have hgarbage := garbage_ofWindow options schema embed type front.length window
  rw [hends] at hfields hgarbage
  obtain ⟨last, hlast, hlastSpan, hlastValue⟩ : ∃ last, Stop.field? type
      (.incomplete number wireType (.ofLength start rest.length) content error) = some last ∧
        last.span = ⟨start, start + rest.length⟩ ∧ last.value = .incomplete content := ⟨_, rfl, rfl, rfl⟩
  simp only [Option.bind_some, hlast] at hfields
  have hpos : 0 < rest.length := by
    rw [hrest, List.length_append, Varint.Spelling.length_bytes]
    omega
  have hstop : start + rest.length = front.length + window.length := by
    rw [hwindow, List.length_append]
    omega
  have hlastTile : Span.Tile (front.length + (Item.spell items).length) [⟨start, start + rest.length⟩]
      (start + rest.length) := by
    rw [← hstart]
    exact .single (by omega)
  have htile := (Item.tile_records front.length items).append hlastTile
  rw [← hlastSpan, ← spans_records options schema embed type] at htile
  apply tiled_of_reach hembed back rfl hstop
  · simpa [hfields] using htile
  · exact Nat.le_refl _
  · rw [hgarbage]
    simp [Stop.garbage?]
  · intro found hfound
    rw [hgarbage] at hfound
    cases hfound
  · intro before field behind found h hvalue
    rw [hfields] at h
    obtain ⟨hbehind, hfield⟩ := eq_nil_of_incomplete hvalue h
    cases hfield
    rw [hlastValue] at hvalue
    cases hvalue
    have htag := Tag.readAt_append (front ++ Item.spell items) tag content back
    have hslice := Span.slice_append (front ++ Item.spell items ++ tag.bytes) content back
    rw [← hrest] at htag
    refine ⟨hbehind, by rw [hlastSpan], ⟨tag.value.toNat / 8, tag.value.toNat % 8, tag.bytes.length⟩, ?_, ?_⟩
    · rw [hlastSpan, hwindow, hstart]
      simpa [Span.length] using htag
    · rw [hlastSpan, hwindow, hstart, hrest]
      simpa [Nat.add_assoc] using hslice.symm

end Endings

theorem tiled_ofWindow (hembed : KeepsSpans embed) (front window back : Bytes) :
    (ofWindow options schema embed type front.length window).Tiled (front ++ (window ++ back)) := by
  obtain ⟨items, rest, hwindow, ⟨rfl, hends⟩ | ⟨stop, hrest, hexplains, hends⟩⟩ :=
    Framing.exists_items front.length window
  · exact tiled_of_items hembed back (by simpa using hwindow) hends
  · rcases hexplains.garbage_or_incomplete with ⟨error, rfl, herror⟩ | ⟨tag, wireType, content, error, hbytes, rfl⟩
    · exact tiled_of_garbage hembed back hwindow hrest rfl herror hends
    · exact tiled_of_incomplete hembed back hwindow rfl hbytes hends

theorem tiled_cons_diagnostic {data : Bytes} {message : Message} (diagnostic : Diagnostic)
    (h : message.Tiled data) :
    Message.Tiled data { message with diagnostics := diagnostic :: message.diagnostics } := by
  refine ⟨h.ordered, h.within, h.fields, h.reach_le, h.garbage_iff, ?_, h.incomplete, h.embedded, h.packed⟩
  intro content hcontent
  obtain ⟨hslice, error, hmem, herror⟩ := h.garbage content hcontent
  exact ⟨hslice, error, List.mem_cons_of_mem _ hmem, herror⟩

theorem tiled_of_nests_decodeWindow {data : Bytes} {offset length level : Nat} {inner : Message}
    (h : (decodeWindow options schema type data offset length).Nests level inner) : inner.Tiled data := by
  refine of_nests_decodeWindow ?_ (fun _ diagnostic h => tiled_cons_diagnostic diagnostic h) h
  rintro budget type front window back rfl
  rw [ofBudget_eq]
  exact tiled_ofWindow (keepsSpans_entering budget) front window back

/-- Every message of a decoded tree is tiled: none of its bytes is left out, and none counts twice. -/
theorem tiled_decodeWindow (options : Options) (schema : Schema) (type : Option MessageType) (data : Bytes)
    (offset length : Nat) :
    (decodeWindow options schema type data offset length).span =
        ⟨min offset data.length, min (offset + length) data.length⟩ ∧
      ∀ level inner, (decodeWindow options schema type data offset length).Nests level inner →
        inner.Tiled data := by
  refine ⟨span_decodeWindow options schema type data offset length, fun level inner hinner => ?_⟩
  exact tiled_of_nests_decodeWindow hinner

end Message

end WireTree
