import WireTree.Proofs.Framing
import WireTree.Proofs.Reading

/-!
# Messages in messages

A decoded message holds a field for each item at the front of its window, and one more for a tag without a body. A
message inside it, at any depth, was decoded by the same rule from bytes of the window, with as many levels less to go.
So what holds of every decoded window holds at every depth.
-/

namespace WireTree

/-- `inner` lies in `outer`, `level` levels down; every message lies in itself. -/
inductive Message.Nests : (outer : Message) → (level : Nat) → (inner : Message) → Prop
  | self (message : Message) : Nests message 0 message
  | inside {outer embedded inner : Message} {field : Field} {level : Nat} (hfield : field ∈ outer.fields)
      (hvalue : field.value = .message embedded) (hinner : Nests embedded level inner) :
    Nests outer (level + 1) inner

theorem Message.Nests.trans {outer middle inner : Message} {level level' : Nat} (h : outer.Nests level middle)
    (h' : middle.Nests level' inner) : outer.Nests (level + level') inner := by
  induction h with
  | self => rwa [Nat.zero_add]
  | inside hfield hvalue _ ih =>
    rw [Nat.add_right_comm]
    exact .inside hfield hvalue (ih h')

/-- `inner` lies in `outer` as before, and each message on the way has the type that the field around it refers to. -/
inductive Message.NestsAs (schema : Schema) :
    (type : Option MessageType) → (outer : Message) → (level : Nat) → (innerType : Option MessageType) →
      (inner : Message) → Prop
  | self (type : Option MessageType) (message : Message) : NestsAs schema type message 0 type message
  | inside {type innerType : Option MessageType} {outer embedded inner : Message} {field : Field}
      {description : FieldDescription} {nested : MessageType} {level : Nat} (hfield : field ∈ outer.fields)
      (hvalue : field.value = .message embedded) (hdescribed : describe type field.number = some description)
      (hnested : schema.messageOf? description = some nested)
      (hinner : NestsAs schema (some nested) embedded level innerType inner) :
    NestsAs schema type outer (level + 1) innerType inner

/-! ### Fields of a window -/

namespace Item

theorem mem_records {start : Nat} {items : List Item} {record : Record} (h : record ∈ records start items) :
    ∃ front item back, items = front ++ item :: back ∧ record = item.record (start + (spell front).length) := by
  induction items generalizing start with
  | nil => cases h
  | cons item items ih =>
    rcases List.mem_cons.1 h with rfl | h
    · exact ⟨[], item, items, rfl, by simp⟩
    · obtain ⟨front, found, back, rfl, rfl⟩ := ih h
      exact ⟨item :: front, found, back, rfl, by simp [Nat.add_assoc]⟩

end Item

namespace Framing

theorem exists_records (start : Nat) (window : Bytes) :
    ∃ (items : List Item) (rest : Bytes), window = Item.spell items ++ rest ∧
      (ofWindow start window).records = Item.records start items := by
  obtain ⟨items, rest, hwindow, ⟨-, hends⟩ | ⟨stop, -, -, hends⟩⟩ := exists_items start window
  · exact ⟨items, rest, hwindow, by rw [hends]⟩
  · exact ⟨items, rest, hwindow, by rw [hends]⟩

theorem exists_item_of_mem_records {start : Nat} {window : Bytes} {record : Record}
    (h : record ∈ (ofWindow start window).records) :
    ∃ (front : Bytes) (item : Item) (back : Bytes), window = front ++ (item.bytes ++ back) ∧
      record = item.record (start + front.length) := by
  obtain ⟨items, rest, rfl, hrecords⟩ := exists_records start window
  rw [hrecords] at h
  obtain ⟨before, item, behind, rfl, rfl⟩ := Item.mem_records h
  exact ⟨Item.spell before, item, Item.spell behind ++ rest, by simp [Item.spell], rfl⟩

theorem explains_of_stop {start : Nat} {window : Bytes} {stop : Stop} (h : (ofWindow start window).stop = some stop) :
    ∃ front rest : Bytes, window = front ++ rest ∧ stop.Explains (start + front.length) rest := by
  obtain ⟨items, rest, rfl, ⟨-, hends⟩ | ⟨found, -, hexplains, hends⟩⟩ := exists_items start window
  · rw [hends] at h
    cases h
  · rw [hends] at h
    cases h
    exact ⟨Item.spell items, rest, rfl, hexplains⟩

end Framing

theorem ItemBody.lengthDelimited_of_payload {body : ItemBody} {content : Bytes}
    (h : body.payload = .bytes content) :
    ∃ (lead : Varint.Spelling) (hfits : content.length = lead.value.toNat),
      body = .lengthDelimited lead content hfits := by
  cases body <;> simp only [payload, Payload.bytes.injEq, reduceCtorEq] at h
  subst h
  exact ⟨_, _, rfl⟩

namespace Message

variable {options : Options} {schema : Schema} {embed : Option Embed} {type : Option MessageType}
  {start : Nat} {window : Bytes}

theorem fields_ofWindow (options : Options) (schema : Schema) (embed : Option Embed)
    (type : Option MessageType) (start : Nat) (window : Bytes) :
    (ofWindow options schema embed type start window).fields =
      (Framing.ofWindow start window).records.map (Record.decode options schema embed type) ++
        ((Framing.ofWindow start window).stop.bind (Stop.field? type)).toList := rfl

theorem garbage_ofWindow (options : Options) (schema : Schema) (embed : Option Embed)
    (type : Option MessageType) (start : Nat) (window : Bytes) :
    (ofWindow options schema embed type start window).garbage =
      (Framing.ofWindow start window).stop.bind Stop.garbage? := rfl

theorem diagnostics_ofWindow (options : Options) (schema : Schema) (embed : Option Embed)
    (type : Option MessageType) (start : Nat) (window : Bytes) :
    (ofWindow options schema embed type start window).diagnostics =
      ((Framing.ofWindow start window).stop.map Stop.diagnostics).getD [] := rfl

theorem item_or_stop_of_mem_fields {field : Field}
    (hfield : field ∈ (ofWindow options schema embed type start window).fields) :
    (∃ (front : Bytes) (item : Item) (back : Bytes), window = front ++ (item.bytes ++ back) ∧
      field = (item.record (start + front.length)).decode options schema embed type) ∨
    ∃ (front rest : Bytes) (stop : Stop), window = front ++ rest ∧ stop.Explains (start + front.length) rest ∧
      stop.field? type = some field := by
  rw [fields_ofWindow] at hfield
  rcases List.mem_append.1 hfield with hfield | hfield
  · obtain ⟨record, hrecord, rfl⟩ := List.mem_map.1 hfield
    obtain ⟨front, item, back, hwindow, rfl⟩ := Framing.exists_item_of_mem_records hrecord
    exact .inl ⟨front, item, back, hwindow, rfl⟩
  · obtain ⟨stop, hstop, hlast⟩ := Option.bind_eq_some_iff.1 (Option.mem_toList.1 hfield)
    obtain ⟨front, rest, hwindow, hexplains⟩ := Framing.explains_of_stop hstop
    exact .inr ⟨front, rest, stop, hwindow, hexplains, hlast⟩

theorem exists_stop_of_mem_diagnostics {diagnostic : Diagnostic}
    (hmem : diagnostic ∈ (ofWindow options schema embed type start window).diagnostics) :
    ∃ (front rest : Bytes) (stop : Stop), window = front ++ rest ∧ stop.Explains (start + front.length) rest ∧
      diagnostic ∈ stop.diagnostics := by
  rw [diagnostics_ofWindow] at hmem
  cases hstop : (Framing.ofWindow start window).stop with
  | none =>
    rw [hstop] at hmem
    cases hmem
  | some stop =>
    rw [hstop] at hmem
    obtain ⟨front, rest, hwindow, hexplains⟩ := Framing.explains_of_stop hstop
    exact ⟨front, rest, stop, hwindow, hexplains, hmem⟩

theorem exists_item_of_mem_fields {field : Field}
    (hfield : field ∈ (ofWindow options schema embed type start window).fields)
    (hcomplete : ∀ content, field.value ≠ .incomplete content) :
    ∃ (front : Bytes) (item : Item) (back : Bytes), window = front ++ (item.bytes ++ back) ∧
      field = (item.record (start + front.length)).decode options schema embed type := by
  rcases item_or_stop_of_mem_fields hfield with hitem | ⟨front, rest, stop, -, -, hstop⟩
  · exact hitem
  · cases stop with
    | garbage => cases hstop
    | incomplete number wireType span content error =>
      cases hstop
      exact absurd rfl (hcomplete content)

theorem exists_content_of_message {field : Field} {embedded : Message}
    (hfield : field ∈ (ofWindow options schema embed type start window).fields)
    (hvalue : field.value = .message embedded) :
    ∃ (front : Bytes) (item : Item) (back : Bytes) (lead : Varint.Spelling) (content : Bytes)
      (hfits : content.length = lead.value.toNat) (enter : Embed) (description : FieldDescription)
      (nested : MessageType), window = front ++ (item.bytes ++ back) ∧
        item.body = .lengthDelimited lead content hfits ∧
        field = (item.record (start + front.length)).decode options schema embed type ∧ embed = some enter ∧
        describe type field.number = some description ∧ schema.messageOf? description = some nested ∧
        embedded = enter nested (start + front.length + item.tag.bytes.length + lead.bytes.length) content := by
  obtain ⟨front, item, back, hwindow, hdecode⟩ := exists_item_of_mem_fields hfield (by simp [hvalue])
  have hreads := Record.reads_decode options schema embed type (item.record (start + front.length))
  rw [← hdecode, hvalue] at hreads
  cases hreads with
  | message description content enter nested hdescribed hpayload htype hembed hnested =>
    obtain ⟨lead, hfits, hbody⟩ := ItemBody.lengthDelimited_of_payload hpayload
    have hnumber : field.number = (item.record (start + front.length)).number := by
      rw [hdecode, Record.number_decode]
    rw [← hnumber] at hdescribed
    refine ⟨front, item, back, lead, content, hfits, enter, description, nested, hwindow, hbody, hdecode, hembed,
      hdescribed, hnested, ?_⟩
    rw [Item.valueSpan_lengthDelimited hbody, Span.start_ofLength]

/-! ### All levels -/

/-- What a level of a budget enters embedded messages with. -/
def entering (options : Options) (schema : Schema) : (budget : Nat) → Option Embed
  | 0 => none
  | budget + 1 => some fun type => ofBudget options schema budget (some type)

theorem ofBudget_eq (options : Options) (schema : Schema) (budget : Nat) :
    ofBudget options schema budget = ofWindow options schema (entering options schema budget) := by
  cases budget <;> rfl

@[simp] theorem span_ofBudget (options : Options) (schema : Schema) (budget : Nat) (type : Option MessageType)
    (start : Nat) (window : Bytes) :
    (ofBudget options schema budget type start window).span = .ofLength start window.length := by
  rw [ofBudget_eq]
  rfl

theorem exists_type_of_nests {budget level : Nat} {inner : Message}
    (h : (ofBudget options schema budget type start window).Nests level inner) :
    ∃ innerType, (ofBudget options schema budget type start window).NestsAs schema type level innerType inner := by
  induction level generalizing budget type start window with
  | zero =>
    cases h
    exact ⟨type, .self type _⟩
  | succ level ih =>
    cases h with
    | inside hfield hvalue hinner =>
      rw [ofBudget_eq] at hfield ⊢
      obtain ⟨front, item, back, lead, content, hfits, enter, description, nested, -, -, -, hembed, hdescribed, hnested,
        rfl⟩ := exists_content_of_message hfield hvalue
      cases budget with
      | zero => cases hembed
      | succ budget =>
        cases hembed
        obtain ⟨innerType, hinner⟩ := ih hinner
        exact ⟨innerType, .inside hfield hvalue hdescribed hnested hinner⟩

/-- A message inside a decoded one is decoded by its type from bytes of the window, with as many levels less to go. Each
level has a tag and a length in front of it, which are two bytes at least. -/
theorem eq_ofBudget_of_nestsAs {budget level : Nat} {innerType : Option MessageType} {inner : Message}
    (h : (ofBudget options schema budget type start window).NestsAs schema type level innerType inner) :
    level ≤ budget ∧ ∃ front content back, 2 * level ≤ front.length ∧ window = front ++ (content ++ back) ∧
      inner = ofBudget options schema (budget - level) innerType (start + front.length) content := by
  induction level generalizing budget type start window with
  | zero =>
    cases h
    exact ⟨Nat.zero_le _, [], window, [], by simp, by simp, by simp⟩
  | succ level ih =>
    cases h with
    | inside hfield hvalue hdescribed hnested hinner =>
      rw [ofBudget_eq] at hfield
      obtain ⟨front, item, back, lead, content, hfits, enter, description, nested, hwindow, hbody, -, hembed,
        hdescribed', hnested', rfl⟩ := exists_content_of_message hfield hvalue
      rw [hdescribed, Option.some.injEq] at hdescribed'
      rw [← hdescribed', hnested, Option.some.injEq] at hnested'
      subst hnested'
      cases budget with
      | zero => cases hembed
      | succ budget =>
        cases hembed
        obtain ⟨hlevel, before, inside, behind, hbefore, rfl, rfl⟩ := ih hinner
        refine ⟨Nat.succ_le_succ hlevel, front ++ item.tag.bytes ++ lead.bytes ++ before, inside,
          behind ++ back, ?_, ?_, ?_⟩
        · simp only [List.length_append, Varint.Spelling.length_bytes]
          omega
        · simp [hwindow, Item.bytes_lengthDelimited hbody]
        · rw [Nat.succ_sub_succ]
          congr 1
          simp only [List.length_append]
          omega

/-! ### Windows of the data -/

theorem exists_window (data : Bytes) (offset length : Nat) :
    ∃ front window back : Bytes, data = front ++ (window ++ back) ∧ front.length = min offset data.length ∧
      window.length = min (offset + length) data.length - min offset data.length ∧
        (data.drop (min offset data.length)).take length = window := by
  refine ⟨data.take (min offset data.length), _, (data.drop (min offset data.length)).drop length, ?_, ?_, ?_, rfl⟩
  · rw [List.take_append_drop, List.take_append_drop]
  · rw [List.length_take]
    omega
  · rw [List.length_take, List.length_drop]
    omega

/-- A decoded window is decoded with the whole budget, but for a note on bytes that are missing. -/
theorem decodeWindow_eq (options : Options) (schema : Schema) (type : Option MessageType) {data window : Bytes}
    {offset length start : Nat} (hstart : start = min offset data.length)
    (hwindow : (data.drop (min offset data.length)).take length = window) :
    let message := ofBudget options schema options.maxDepth type start window
    decodeWindow options schema type data offset length =
      if offset + length ≤ data.length then message
      else
        { message with
          diagnostics := ⟨message.span, .truncated start length window.length⟩ :: message.diagnostics } := by
  rw [hstart, ← hwindow]
  rfl

theorem fields_decodeWindow (options : Options) (schema : Schema) (type : Option MessageType) {data window : Bytes}
    {offset length start : Nat} (hstart : start = min offset data.length)
    (hwindow : (data.drop (min offset data.length)).take length = window) :
    (decodeWindow options schema type data offset length).fields =
      (ofWindow options schema (entering options schema options.maxDepth) type start window).fields := by
  rw [decodeWindow_eq options schema type hstart hwindow, ofBudget_eq]
  split <;> rfl

theorem span_decodeWindow (options : Options) (schema : Schema) (type : Option MessageType) (data : Bytes)
    (offset length : Nat) :
    (decodeWindow options schema type data offset length).span =
      ⟨min offset data.length, min (offset + length) data.length⟩ := by
  obtain ⟨front, window, back, -, hfront, hlength, hwindow⟩ := exists_window data offset length
  have hspan : Span.ofLength front.length window.length =
      ⟨min offset data.length, min (offset + length) data.length⟩ := by
    rw [Span.ofLength, hfront, hlength]
    congr 1
    omega
  rw [decodeWindow_eq options schema type hfront hwindow, ← hspan]
  split <;> simp

theorem nestsAs_cons_diagnostic {message inner : Message} {diagnostic : Diagnostic} {level : Nat}
    {innerType : Option MessageType}
    (h : NestsAs schema type { message with diagnostics := diagnostic :: message.diagnostics } level innerType inner) :
    (level = 0 ∧ innerType = type ∧ inner = { message with diagnostics := diagnostic :: message.diagnostics }) ∨
      message.NestsAs schema type level innerType inner := by
  cases h with
  | self => exact .inl ⟨rfl, rfl, rfl⟩
  | inside hfield hvalue hdescribed hnested hinner =>
    exact .inr (.inside hfield hvalue hdescribed hnested hinner)

theorem decode_eq (options : Options) (schema : Schema) (type : Option MessageType) (data : Bytes) :
    decode options schema type data = ofBudget options schema options.maxDepth type 0 data := by
  have hfront : ([] : Bytes).length = min 0 data.length := by simp
  have hwindow : (data.drop (min 0 data.length)).take data.length = data := by simp
  rw [decode, decodeWindow_eq options schema type hfront hwindow, if_pos (by omega)]
  rfl

theorem exists_type_of_nests_decodeWindow {data : Bytes} {offset length level : Nat} {inner : Message}
    (h : (decodeWindow options schema type data offset length).Nests level inner) :
    ∃ innerType, (decodeWindow options schema type data offset length).NestsAs schema type level innerType inner := by
  obtain ⟨front, window, back, -, hfront, -, hwindow⟩ := exists_window data offset length
  rw [decodeWindow_eq options schema type hfront hwindow] at h ⊢
  by_cases hwithin : offset + length ≤ data.length
  · rw [if_pos hwithin] at h ⊢
    exact exists_type_of_nests h
  · rw [if_neg hwithin] at h ⊢
    cases h with
    | self => exact ⟨type, .self type _⟩
    | inside hfield hvalue hinner =>
      -- The note does not touch the fields, so what lies in one of them is found as without it.
      obtain ⟨innerType, hinner⟩ := exists_type_of_nests (.inside hfield hvalue hinner)
      cases hinner with
      | inside hfield hvalue hdescribed hnested hinner =>
        exact ⟨innerType, .inside hfield hvalue hdescribed hnested hinner⟩

theorem exists_content_of_nestsAs_decodeWindow {data : Bytes} {offset length level : Nat}
    {innerType : Option MessageType} {inner : Message}
    (h : (decodeWindow options schema type data offset length).NestsAs schema type (level + 1) innerType inner) :
    level + 1 ≤ options.maxDepth ∧ ∃ front content back : Bytes, data = front ++ content ++ back ∧
      2 * (level + 1) + content.length ≤ (decodeWindow options schema type data offset length).span.length ∧
      inner = ofBudget options schema (options.maxDepth - (level + 1)) innerType front.length content := by
  obtain ⟨front, window, back, hdata, hfront, hlength, hwindow⟩ := exists_window data offset length
  have hinner : (ofBudget options schema options.maxDepth type front.length window).NestsAs schema type (level + 1)
      innerType inner := by
    rw [decodeWindow_eq options schema type hfront hwindow] at h
    split at h
    · exact h
    · rcases nestsAs_cons_diagnostic h with ⟨hlevel, -⟩ | h
      · cases hlevel
      · exact h
  obtain ⟨hlevel, before, content, behind, hbefore, hcontent, rfl⟩ := eq_ofBudget_of_nestsAs hinner
  refine ⟨hlevel, front ++ before, content, behind ++ back, by simp [hdata, hcontent], ?_, by rw [List.length_append]⟩
  have hsize := congrArg List.length hcontent
  rw [span_decodeWindow, Span.length, ← hlength, hsize]
  simp only [List.length_append]
  omega

/-- What holds of every decoded part of the data, by its type and the levels left, holds at every depth of a decoded
window, if a note more does not matter. -/
theorem of_nestsAs_decodeWindow {motive : (level : Nat) → Option MessageType → Message → Prop} {data : Bytes}
    {offset length : Nat}
    (hmotive : ∀ level type (front window back : Bytes), level ≤ options.maxDepth →
      data = front ++ (window ++ back) →
        motive level type (ofBudget options schema (options.maxDepth - level) type front.length window))
    (hnote : ∀ level type message diagnostic, motive level type message →
      motive level type { message with diagnostics := diagnostic :: message.diagnostics })
    {level : Nat} {innerType : Option MessageType} {inner : Message}
    (h : (decodeWindow options schema type data offset length).NestsAs schema type level innerType inner) :
    motive level innerType inner := by
  obtain ⟨front, window, back, hdata, hfront, -, hwindow⟩ := exists_window data offset length
  have hinner : ∀ {level innerType inner},
      (ofBudget options schema options.maxDepth type front.length window).NestsAs schema type level innerType inner →
        motive level innerType inner := by
    intro level innerType inner h
    obtain ⟨hlevel, before, content, behind, -, rfl, rfl⟩ := eq_ofBudget_of_nestsAs h
    rw [← List.length_append]
    refine hmotive _ _ (front ++ before) content (behind ++ back) hlevel ?_
    simp [hdata]
  rw [decodeWindow_eq options schema type hfront hwindow] at h
  split at h
  · exact hinner h
  · rcases nestsAs_cons_diagnostic h with ⟨rfl, rfl, rfl⟩ | h
    · exact hnote _ _ _ _ (hinner (.self _ _))
    · exact hinner h

theorem of_nests_decodeWindow {motive : Message → Prop} {data : Bytes} {offset length : Nat}
    (hmotive : ∀ budget type (front window back : Bytes), data = front ++ (window ++ back) →
      motive (ofBudget options schema budget type front.length window))
    (hnote : ∀ message diagnostic, motive message →
      motive { message with diagnostics := diagnostic :: message.diagnostics })
    {level : Nat} {inner : Message} (h : (decodeWindow options schema type data offset length).Nests level inner) :
    motive inner := by
  obtain ⟨innerType, h⟩ := exists_type_of_nests_decodeWindow h
  exact of_nestsAs_decodeWindow (motive := fun _ _ message => motive message)
    (fun _ _ front window back _ hdata => hmotive _ _ front window back hdata)
    (fun _ _ message diagnostic h => hnote message diagnostic h) h

end Message

end WireTree
