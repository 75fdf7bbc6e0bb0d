import WireTree.Proofs.Entering
import WireTree.Proofs.Tiling
import WireTree.Proofs.Truncation

/-!
# What happens in a field stays in it

A context is a tree without one of its fields. If the bytes behind the length of a length-delimited field are replaced by
as many others, the tree keeps the context of that field, at whatever depth it lies: only the value, the candidates and the
diagnostics of the field itself can change. The proof goes down the context: the item of a field is replaced by one of the
same length, so the items around it stand where they stood.
-/

namespace WireTree

/-! ### Contexts -/

/-- A message without one of its fields. -/
structure Gap where
  name : String
  span : Span
  before : List Field
  behind : List Field
  garbage : Option Bytes
  diagnostics : List Diagnostic

def Gap.fill (gap : Gap) (field : Field) : Message :=
  ⟨gap.name, gap.span, gap.before ++ field :: gap.behind, gap.garbage, gap.diagnostics⟩

/-- A field without the message in it. -/
structure Shell where
  number : Nat
  wireType : WireType
  span : Span
  name : Option String
  type : FieldType
  candidates : List Candidate
  diagnostics : List Diagnostic

def Shell.fill (shell : Shell) (embedded : Message) : Field :=
  ⟨shell.number, shell.wireType, shell.span, shell.name, shell.type, .message embedded, shell.candidates,
    shell.diagnostics⟩

/-- A tree without one of its fields, which stands in the message itself or in the message in another field. -/
inductive Context where
  | here (gap : Gap)
  | inside (gap : Gap) (shell : Shell) (inner : Context)

namespace Context

def fill : Context → Field → Message
  | here gap, field => gap.fill field
  | inside gap shell inner, field => gap.fill (shell.fill (inner.fill field))

/-- How many levels down the field stands. -/
def depth : Context → Nat
  | here _ => 0
  | inside _ _ inner => inner.depth + 1

/-- The context, with other diagnostics on the outermost message. -/
def withDiagnostics (diagnostics : List Diagnostic) : Context → Context
  | here gap => here { gap with diagnostics := diagnostics }
  | inside gap shell inner => inside { gap with diagnostics := diagnostics } shell inner

theorem fill_withDiagnostics (diagnostics : List Diagnostic) (context : Context) (field : Field) :
    (context.withDiagnostics diagnostics).fill field = { context.fill field with diagnostics := diagnostics } := by
  cases context <;> rfl

theorem diagnostics_fill (context : Context) (field field' : Field) :
    (context.fill field).diagnostics = (context.fill field').diagnostics := by
  cases context <;> rfl

theorem exists_of_nests {outer inner : Message} {level : Nat} {field : Field} (h : outer.Nests level inner)
    (hfield : field ∈ inner.fields) : ∃ context : Context, context.depth = level ∧ outer = context.fill field := by
  induction h with
  | self message =>
    obtain ⟨before, behind, hfields⟩ := List.append_of_mem hfield
    refine ⟨here ⟨message.name, message.span, before, behind, message.garbage, message.diagnostics⟩, rfl, ?_⟩
    rw [fill, Gap.fill, ← hfields]
    cases message
    rfl
  | @inside outer embedded inner around level haround hvalue _ ih =>
    obtain ⟨context, hdepth, hembedded⟩ := ih hfield
    obtain ⟨before, behind, hfields⟩ := List.append_of_mem haround
    refine ⟨inside ⟨outer.name, outer.span, before, behind, outer.garbage, outer.diagnostics⟩
      ⟨around.number, around.wireType, around.span, around.name, around.type, around.candidates, around.diagnostics⟩
      context, by rw [depth, hdepth], ?_⟩
    rw [fill, Gap.fill, Shell.fill, ← hembedded, ← hvalue]
    cases outer
    cases around
    exact congrArg (Message.mk _ _ · _ _) hfields

theorem exists_of_noted {context : Context} {message : Message} {field : Field} {notes : List Diagnostic}
    (h : { message with diagnostics := notes ++ message.diagnostics } = context.fill field) :
    ∃ bare : Context, message = bare.fill field ∧ ∀ field' message', message' = bare.fill field' →
      { message' with diagnostics := notes ++ message'.diagnostics } = context.fill field' := by
  refine ⟨context.withDiagnostics message.diagnostics, ?_, ?_⟩
  · rw [fill_withDiagnostics, ← h]
    cases message
    rfl
  · rintro field' - rfl
    have hdiagnostics : (context.fill field').diagnostics = notes ++ message.diagnostics := by
      rw [diagnostics_fill context field' field, ← h]
    rw [fill_withDiagnostics, ← hdiagnostics]
    cases context.fill field'
    rfl

end Context

/-- Whether two fields are the same but for their values, candidates and diagnostics. -/
structure Field.Alike (field field' : Field) : Prop where
  number : field'.number = field.number
  wireType : field'.wireType = field.wireType
  span : field'.span = field.span
  name : field'.name = field.name
  type : field'.type = field.type

/-! ### Records -/

namespace Record

variable {options : Options} {schema : Schema} {embed : Option Embed} {type : Option MessageType}

theorem name_decode (record : Record) :
    (record.decode options schema embed type).name = (describe type record.number).map (·.name) := by
  unfold decode
  split
  · rename_i description hdescribed
    rw [hdescribed]
    rfl
  · rename_i hdescribed
    rw [hdescribed]
    rfl

theorem type_described (description : FieldDescription) (record : Record) :
    (record.described options schema embed description).type = description.type := by
  rcases described_cases description record with ⟨content, -, hreading⟩ | ⟨content, -, -, -, hreading⟩ | hreading
  · rw [hreading]
    unfold asPacked
    split <;> rfl
  · rw [hreading]
    unfold asMessage
    split <;> rfl
  · rw [hreading]
    unfold asScalar
    split <;> rfl

theorem type_undescribed (options : Options) (record : Record) :
    (record.undescribed options).type =
      if options.allCandidates then .none else guessType options record.wireType record.payload.number? := by
  rcases undescribed_cases options record with ⟨hall, hreading⟩ | ⟨hall, scalar, hreading⟩ | ⟨hall, error, -, hreading⟩ <;>
    rw [hreading, hall] <;> rfl

theorem alike_decode {record : Record} {content : Bytes} (hpayload : record.payload = .bytes content)
    (content' : Bytes) :
    (record.decode options schema embed type).Alike
      ({ record with payload := .bytes content' : Record }.decode options schema embed type) := by
  refine ⟨by simp, by simp, by simp, by simp [name_decode], ?_⟩
  unfold decode
  simp only
  split
  · simp only [field, type_described]
  · simp only [field, type_undescribed, hpayload, Payload.number?]

theorem fill_decode {record : Record} {shell : Shell} {embedded : Message} {content : Bytes}
    (hpayload : record.payload = .bytes content)
    (h : record.decode options schema embed type = shell.fill embedded) :
    ∃ enter nested, embed = some enter ∧ embedded = enter nested record.valueSpan.start content ∧ ∀ content',
      { record with payload := .bytes content' : Record }.decode options schema embed type =
        shell.fill (enter nested record.valueSpan.start content') := by
  have hvalue : (record.decode options schema embed type).value = .message embedded := by
    rw [h]
    rfl
  obtain ⟨description, nested, found, enter, henters, hembed, hembedded⟩ := enters_of_message hvalue
  have hfound : found = content := Payload.bytes.inj (henters.payload.symm.trans hpayload)
  subst hfound
  refine ⟨enter, nested, hembed, hembedded, fun content' => ?_⟩
  have henters' : Record.Enters schema type { record with payload := .bytes content' } description nested content' :=
    ⟨henters.described, rfl, henters.message, henters.notPacked, henters.nested⟩
  rw [decode_of_enters henters, hembed] at h
  rw [decode_of_enters henters', hembed]
  obtain ⟨number, wireType, span, name, fieldType, candidates, diagnostics⟩ := shell
  cases h
  rfl

end Record

/-! ### Items in the place of others -/

/-- Whether the bytes behind the length of a field are those between `before` and `behind`, in whatever data the window
of these three lies at `start`. -/
structure Field.Delimits (field : Field) (start : Nat) (before content behind : Bytes) : Prop where
  stop : field.span.stop = start + before.length + content.length
  contentAt : ∀ front back : Bytes, front.length = start →
    field.ContentAt (front ++ (before ++ (content ++ behind) ++ back)) (start + before.length)

theorem Field.Delimits.within {field : Field} {start : Nat} {front before content behind : Bytes}
    (h : field.Delimits (start + front.length) before content behind) (back : Bytes) :
    field.Delimits start (front ++ before) content (behind ++ back) := by
  refine ⟨by rw [h.stop, List.length_append, Nat.add_assoc start], fun outside beyond hstart => ?_⟩
  have hcontent := h.contentAt (outside ++ front) (back ++ beyond) (by rw [List.length_append, hstart])
  simpa [Nat.add_assoc] using hcontent

theorem ItemBody.lengthDelimited_of_wireType {body : ItemBody} (h : body.wireType = .lengthDelimited) :
    ∃ (lead : Varint.Spelling) (content : Bytes) (hfits : content.length = lead.value.toNat),
      body = .lengthDelimited lead content hfits := by
  cases body <;> simp only [wireType, reduceCtorEq] at h
  exact ⟨_, _, _, rfl⟩

theorem Item.exists_withContent {item : Item} {lead : Varint.Spelling} {content content' : Bytes}
    {hfits : content.length = lead.value.toNat} (hbody : item.body = .lengthDelimited lead content hfits)
    (hlength : content'.length = content.length) :
    ∃ item' : Item, item'.bytes = item.tag.bytes ++ (lead.bytes ++ content') ∧
      ∀ start, item'.record start = { item.record start with payload := .bytes content' } := by
  obtain ⟨tag, body, hkind⟩ := item
  subst hbody
  refine ⟨⟨tag, .lengthDelimited lead content' (hlength.trans hfits), hkind⟩, rfl, fun start => ?_⟩
  simp [Item.record, Item.number, Item.bytes, ItemBody.bytes, ItemBody.content, ItemBody.lead, ItemBody.located,
    ItemBody.payload, ItemBody.wireType, hlength]

theorem Framing.begins_or_records_eq_nil (start : Nat) (window : Bytes) :
    (∃ (item : Item) (rest : Bytes), window = item.bytes ++ rest) ∨ (ofWindow start window).records = [] := by
  obtain ⟨items, rest, rfl, hrecords⟩ := exists_records start window
  cases items with
  | nil => exact .inr hrecords
  | cons item items => exact .inl ⟨item, Item.spell items ++ rest, by simp⟩

namespace Message

variable {options : Options} {schema : Schema} {embed : Option Embed} {type : Option MessageType} {start : Nat}
  {window : Bytes}

theorem fields_ne_of_records_eq_nil {before behind : List Field} {field : Field}
    (hrecords : (Framing.ofWindow start window).records = []) (hcomplete : field.isIncomplete = false) :
    (ofWindow options schema embed type start window).fields ≠ before ++ field :: behind := by
  intro h
  have hfields := complete_ofWindow options schema embed type start window
  rw [h, hrecords, List.map_nil, List.filter_eq_nil_iff] at hfields
  exact hfields field (List.mem_append_right _ List.mem_cons_self) (by simp [hcomplete])

theorem fields_item_append (options : Options) (schema : Schema) (embed : Option Embed) (type : Option MessageType)
    (start : Nat) (item : Item) (rest : Bytes) :
    (ofWindow options schema embed type start (item.bytes ++ rest)).fields =
      (item.record start).decode options schema embed type ::
        (ofWindow options schema embed type (start + item.bytes.length) rest).fields := by
  rw [fields_ofWindow, Framing.ofWindow_item_append, List.map_cons, List.cons_append, ← fields_ofWindow]

theorem exists_items_of_fields {before behind : List Field} {field : Field}
    (h : (ofWindow options schema embed type start window).fields = before ++ field :: behind)
    (hcomplete : field.isIncomplete = false) :
    ∃ (items : List Item) (item : Item) (rest : Bytes), window = Item.spell items ++ (item.bytes ++ rest) ∧
      before = (Item.records start items).map (Record.decode options schema embed type) ∧
      field = (item.record (start + (Item.spell items).length)).decode options schema embed type ∧
      behind =
        (ofWindow options schema embed type (start + (Item.spell items).length + item.bytes.length) rest).fields := by
  induction before generalizing start window with
  | nil =>
    rcases Framing.begins_or_records_eq_nil start window with ⟨item, rest, rfl⟩ | hrecords
    · rw [fields_item_append, List.nil_append, List.cons.injEq] at h
      exact ⟨[], item, rest, rfl, rfl, h.1.symm, h.2.symm⟩
    · exact absurd h (fields_ne_of_records_eq_nil hrecords hcomplete)
  | cons first before ih =>
    rcases Framing.begins_or_records_eq_nil start window with ⟨item, rest, rfl⟩ | hrecords
    · rw [fields_item_append, List.cons_append, List.cons.injEq] at h
      obtain ⟨items, found, rest, rfl, rfl, rfl, rfl⟩ := ih h.2
      refine ⟨item :: items, found, rest, by simp, ?_, ?_, ?_⟩
      · rw [Item.records, List.map_cons, h.1]
      · rw [Item.spell_cons, List.length_append, ← Nat.add_assoc]
      · rw [Item.spell_cons, List.length_append, ← Nat.add_assoc]
    · exact absurd h (fields_ne_of_records_eq_nil hrecords hcomplete)

/-- An item between others stands in a gap that its length settles, whatever the item is. -/
theorem ofWindow_item_between (options : Options) (schema : Schema) (embed : Option Embed) (type : Option MessageType)
    (start : Nat) (items : List Item) (item : Item) (rest : Bytes) :
    let position := start + (Item.spell items).length
    let last := ofWindow options schema embed type (position + item.bytes.length) rest
    ofWindow options schema embed type start (Item.spell items ++ (item.bytes ++ rest)) =
      Gap.fill ⟨last.name, .ofLength start ((Item.spell items).length + (item.bytes.length + rest.length)),
        (Item.records start items).map (Record.decode options schema embed type), last.fields, last.garbage,
        last.diagnostics⟩ ((item.record position).decode options schema embed type) := by
  simp only [ofWindow, Framing.ofWindow_append, Framing.ofWindow_item_append, Gap.fill, List.length_append,
    List.map_append, List.map_cons, List.append_assoc, List.cons_append]

theorem exists_item_of_fill {gap : Gap} {field : Field}
    (h : ofWindow options schema embed type start window = gap.fill field) (hcomplete : field.isIncomplete = false) :
    ∃ (before : Bytes) (item : Item) (behind : Bytes), window = before ++ (item.bytes ++ behind) ∧
      field = (item.record (start + before.length)).decode options schema embed type ∧
      ∀ item' : Item, item'.bytes.length = item.bytes.length →
        ofWindow options schema embed type start (before ++ (item'.bytes ++ behind)) =
          gap.fill ((item'.record (start + before.length)).decode options schema embed type) := by
  obtain ⟨name, span, before, behind, garbage, diagnostics⟩ := gap
  obtain ⟨items, item, rest, rfl, rfl, rfl, rfl⟩ := exists_items_of_fields (congrArg Message.fields h) hcomplete
  refine ⟨Item.spell items, item, rest, rfl, rfl, fun item' hlength => ?_⟩
  rw [ofWindow_item_between] at h ⊢
  -- The item shows in the gap by its length only, and that is the same.
  rw [hlength]
  cases h
  rfl

/-- A length-delimited field that is not incomplete was read from a record of its content, and other content of the same
length can stand there: all the rest of the message stays the same. -/
theorem exists_content_of_fill {gap : Gap} {field : Field}
    (h : ofWindow options schema embed type start window = gap.fill field)
    (hkind : field.wireType = .lengthDelimited) (hcomplete : field.isIncomplete = false) :
    ∃ (before content behind : Bytes) (record : Record), window = before ++ (content ++ behind) ∧
      field.Delimits start before content behind ∧ record.payload = .bytes content ∧
      record.valueSpan.start = start + before.length ∧ field = record.decode options schema embed type ∧
      ∀ content' : Bytes, content'.length = content.length →
        ofWindow options schema embed type start (before ++ (content' ++ behind)) =
          gap.fill ({ record with payload := .bytes content' : Record }.decode options schema embed type) := by
  obtain ⟨front, item, back, rfl, hdecode, hreplace⟩ := exists_item_of_fill h hcomplete
  obtain ⟨lead, content, hfits, hbody⟩ : ∃ lead content hfits, item.body = .lengthDelimited lead content hfits := by
    rw [hdecode, Record.wireType_decode] at hkind
    exact ItemBody.lengthDelimited_of_wireType hkind
  have hbytes := Item.bytes_lengthDelimited hbody
  have hspan : field.span = .ofLength (start + front.length) item.bytes.length := by
    rw [hdecode, Record.span_decode]
    rfl
  refine ⟨front ++ item.tag.bytes ++ lead.bytes, content, back, item.record (start + front.length), by simp [hbytes],
    ⟨?_, ?_⟩, ?_, ?_, hdecode, ?_⟩
  · rw [hspan, Span.stop_ofLength, hbytes]
    simp only [List.length_append]
    omega
  · intro outside behind hstart
    have hplace : field.span = .ofLength (outside ++ front).length item.bytes.length := by
      rw [hspan, List.length_append, hstart]
    have hcontent := (Item.contentAt hbody (outside ++ front) (back ++ behind) hplace).1
    simpa [hbytes, hstart, Nat.add_assoc] using hcontent
  · simp [Item.record, hbody, ItemBody.payload]
  · simp [Item.valueSpan_lengthDelimited hbody, Nat.add_assoc]
  · intro content' hlength
    obtain ⟨item', hbytes', hrecord⟩ := Item.exists_withContent hbody hlength
    have hsame : item'.bytes.length = item.bytes.length := by simp [hbytes, hbytes', hlength]
    have hreplaced := hreplace item' hsame
    rw [hrecord, hbytes'] at hreplaced
    simpa using hreplaced

/-! ### All levels -/

theorem wireType_of_message {field : Field} {embedded : Message}
    (hfield : field ∈ (ofWindow options schema embed type start window).fields)
    (hvalue : field.value = .message embedded) : field.wireType = .lengthDelimited := by
  obtain ⟨front, item, back, lead, content, hfits, -, -, -, -, hbody, hdecode, -⟩ :=
    exists_content_of_message hfield hvalue
  rw [hdecode, Record.wireType_decode, Item.record, hbody]
  rfl

theorem ofBudget_isolates {context : Context} {field : Field} (hkind : field.wireType = .lengthDelimited)
    (hcomplete : field.isIncomplete = false) {budget : Nat}
    (h : ofBudget options schema budget type start window = context.fill field) :
    ∃ before content behind : Bytes, window = before ++ (content ++ behind) ∧
      field.Delimits start before content behind ∧
      ∀ content' : Bytes, content'.length = content.length → ∃ field', field.Alike field' ∧
        ofBudget options schema budget type start (before ++ (content' ++ behind)) = context.fill field' := by
  -- Each level of the context is the content of a record, which is entered with one level less to go.
  induction context generalizing budget type start window with
  | here gap =>
    rw [ofBudget_eq] at h ⊢
    obtain ⟨before, content, behind, record, hwindow, hdelimits, hpayload, -, rfl, hreplace⟩ :=
      exists_content_of_fill h hkind hcomplete
    exact ⟨before, content, behind, hwindow, hdelimits, fun content' hlength =>
      ⟨_, Record.alike_decode hpayload content', hreplace content' hlength⟩⟩
  | inside gap shell inner ih =>
    rw [ofBudget_eq] at h ⊢
    have hshell : shell.fill (inner.fill field) ∈
        (ofWindow options schema (entering options schema budget) type start window).fields := by
      rw [h]
      exact List.mem_append_right _ List.mem_cons_self
    obtain ⟨before, content, behind, record, rfl, -, hpayload, hstart, hdecode, hreplace⟩ :=
      exists_content_of_fill h (wireType_of_message hshell rfl) rfl
    obtain ⟨enter, nested, hembed, hinner, hother⟩ := Record.fill_decode hpayload hdecode.symm
    cases budget with
    | zero => cases hembed
    | succ budget =>
      cases hembed
      rw [hstart] at hinner hother
      obtain ⟨front, found, back, rfl, hdelimits, hwithin⟩ := ih hinner.symm
      refine ⟨before ++ front, found, back ++ behind, by simp, hdelimits.within behind, fun content' hlength => ?_⟩
      obtain ⟨field', halike, hfield'⟩ := hwithin content' hlength
      refine ⟨field', halike, ?_⟩
      -- The changed message is as long as it was, so to the level above it is a change of content as well.
      have hreplaced := hreplace (front ++ (content' ++ back)) (by simp [hlength])
      rw [hother] at hreplaced
      simpa [Context.fill, hfield'] using hreplaced

/-! ### Windows of the data -/

theorem exists_notes (options : Options) (schema : Schema) (type : Option MessageType) (data window : Bytes)
    (offset length : Nat) :
    ∃ notes, ∀ data' window' : Bytes, data'.length = data.length → window'.length = window.length →
      (data'.drop (min offset data.length)).take length = window' → ∀ message,
        message = ofBudget options schema options.maxDepth type (min offset data.length) window' →
          decodeWindow options schema type data' offset length =
            { message with diagnostics := notes ++ message.diagnostics } := by
  by_cases hwithin : offset + length ≤ data.length
  · refine ⟨[], fun data' window' hdata hlength hwindow message hmessage => ?_⟩
    rw [← hdata] at hwithin hwindow hmessage
    rw [decodeWindow_eq options schema type rfl hwindow, ← hmessage]
    simp only [if_pos hwithin]
    cases message
    rfl
  · refine ⟨[⟨.ofLength (min offset data.length) window.length,
      .truncated (min offset data.length) length window.length⟩],
      fun data' window' hdata hlength hwindow message hmessage => ?_⟩
    have hspan : message.span = .ofLength (min offset data.length) window.length := by
      rw [hmessage, span_ofBudget, hlength]
    rw [← hdata] at hwithin hwindow hmessage hspan ⊢
    rw [decodeWindow_eq options schema type rfl hwindow, ← hmessage]
    simp only [if_neg hwithin, hspan, hlength, List.cons_append, List.nil_append]

theorem exists_replaced {data' front content back : Bytes}
    (hlength : data'.length = (front ++ (content ++ back)).length)
    (hsame : ∀ index, index < front.length ∨ front.length + content.length ≤ index →
      data'[index]? = (front ++ (content ++ back))[index]?) :
    ∃ content' : Bytes, content'.length = content.length ∧ data' = front ++ (content' ++ back) := by
  have hfront : data'.take front.length = front := by
    refine List.ext_getElem? fun index => ?_
    rw [List.getElem?_take]
    split
    · rename_i hindex
      rw [hsame index (.inl hindex), List.getElem?_append_left hindex]
    · rename_i hindex
      rw [List.getElem?_eq_none (Nat.le_of_not_lt hindex)]
  have hback : data'.drop (front.length + content.length) = back := by
    refine List.ext_getElem? fun index => ?_
    rw [List.getElem?_drop, hsame _ (.inr (by omega)), List.getElem?_append_right (by omega),
      List.getElem?_append_right (by omega)]
    congr 1
    omega
  refine ⟨(data'.drop front.length).take content.length, ?_, ?_⟩
  · simp only [List.length_append] at hlength
    rw [List.length_take, List.length_drop]
    omega
  · rw [← hback, ← List.drop_drop, List.take_append_drop, ← hfront, List.length_take_of_le, List.take_append_drop]
    simp only [List.length_append] at hlength
    omega

theorem take_append_of_length_eq {length : Nat} {window window' back : Bytes}
    (h : (window ++ back).take length = window) (hlength : window'.length = window.length) :
    (window' ++ back).take length = window' := by
  have hlengths := congrArg List.length h
  simp only [List.length_take, List.length_append] at hlengths
  rw [List.take_append, List.take_of_length_le (by omega)]
  refine List.append_right_eq_self.2 (List.eq_nil_of_length_eq_zero ?_)
  rw [List.length_take]
  omega

/-- Other bytes behind the length of a length-delimited field change the value, the candidates and the diagnostics of
that field, and nothing else in the tree. -/
theorem decodeWindow_isolates (options : Options) (schema : Schema) (type : Option MessageType) (data : Bytes)
    (offset length : Nat) :
    let outer := decodeWindow options schema type data offset length
    (∀ level inner, outer.Nests level inner → ∀ field ∈ inner.fields,
      ∃ context : Context, context.depth = level ∧ outer = context.fill field) ∧
    ∀ (context : Context) (field : Field), outer = context.fill field → field.wireType = .lengthDelimited →
      field.isIncomplete = false → ∃ start, field.ContentAt data start ∧
        ∀ data' : Bytes, data'.length = data.length →
          (∀ index, index < start ∨ field.span.stop ≤ index → data'[index]? = data[index]?) →
            ∃ field', field.Alike field' ∧
              decodeWindow options schema type data' offset length = context.fill field' := by
  intro outer
  refine ⟨fun level inner hinner field hfield => Context.exists_of_nests hinner hfield,
    fun context field houter hkind hcomplete => ?_⟩
  obtain ⟨front, window, back, hdata, hfront, -, hwindow⟩ := exists_window data offset length
  obtain ⟨notes, hnotes⟩ := exists_notes options schema type data window offset length
  obtain ⟨message, hmessage⟩ : ∃ message, message = ofBudget options schema options.maxDepth type
    (min offset data.length) window := ⟨_, rfl⟩
  obtain ⟨bare, hbare, hnoted⟩ := Context.exists_of_noted
    ((hnotes data window rfl rfl hwindow message hmessage).symm.trans houter)
  rw [← hfront] at hmessage hwindow hnotes
  obtain ⟨before, content, behind, rfl, hdelimits, hreplace⟩ :=
    ofBudget_isolates hkind hcomplete (hmessage.symm.trans hbare)
  have hstop : field.span.stop = (front ++ before).length + content.length := by
    rw [hdelimits.stop, List.length_append]
  have hbytes : data = front ++ before ++ (content ++ (behind ++ back)) := by simp [hdata]
  refine ⟨(front ++ before).length, ?_, fun data' hlength hsame => ?_⟩
  · rw [hdata, List.length_append]
    exact hdelimits.contentAt front back rfl
  · rw [hbytes] at hlength hsame
    rw [hstop] at hsame
    obtain ⟨content', hcontent, rfl⟩ := exists_replaced hlength hsame
    obtain ⟨field', halike, hfield'⟩ := hreplace content' hcontent
    refine ⟨field', halike, ?_⟩
    rw [← hbytes] at hlength
    have hdrop : (front ++ before ++ (content' ++ (behind ++ back))).drop front.length =
        before ++ (content' ++ behind) ++ back := by simp
    have hwindow' : (before ++ (content' ++ behind)).length = (before ++ (content ++ behind)).length := by
      simp [hcontent]
    rw [hdata, List.drop_left] at hwindow
    have htake := take_append_of_length_eq hwindow hwindow'
    rw [← hdrop] at htake
    rw [hnotes _ _ hlength hwindow' htake _ rfl]
    exact hnoted field' _ hfield'

theorem decodeWindow_isolates_child :
    let child : FieldDescription := ⟨"child", 2, .message, .single, some (.message ⟨0⟩)⟩
    let schema := Schema.build [.insertMessage "M", .addField ⟨0⟩ child]
    let type : MessageType := ⟨"M", ⟨0⟩, [(2, child)]⟩
    let data : Bytes := [18, 4, 18, 2, 8, 1, 24, 7]
    let spoilt : Bytes := [18, 4, 18, 2, 255, 255, 24, 7]
    let one : Field := ⟨1, .varint, ⟨4, 6⟩, none, .uint32, .scalar (.uint32 1), [], []⟩
    let seven : Field := ⟨3, .varint, ⟨6, 8⟩, none, .uint32, .scalar (.uint32 7), [], []⟩
    let field : Field :=
      ⟨2, .lengthDelimited, ⟨2, 6⟩, some "child", .message, .message ⟨"M", ⟨4, 6⟩, [one], none, []⟩, [], []⟩
    let context : Context := .inside ⟨"M", ⟨0, 8⟩, [], [seven], none, []⟩
      ⟨2, .lengthDelimited, ⟨0, 6⟩, some "child", .message, [], []⟩ (.here ⟨"M", ⟨2, 6⟩, [], [], none, []⟩)
    decodeWindow {} schema (some type) data 0 8 = context.fill field ∧ field.ContentAt data 4 ∧
      ∃ field', field.Alike field' ∧ decodeWindow {} schema (some type) spoilt 0 8 = context.fill field' := by
  intro child schema type data spoilt one seven field context
  have hfill : decodeWindow {} schema (some type) data 0 8 = context.fill field := by with_unfolding_all rfl
  obtain ⟨start, hcontent, hisolates⟩ :=
    (decodeWindow_isolates {} schema (some type) data 0 8).2 context field hfill rfl rfl
  have hstart : start = 4 := by
    obtain ⟨tag, lead, htag, hlead, rfl⟩ := hcontent
    cases htag
    cases hlead
    rfl
  rw [hstart] at hcontent hisolates
  have hfront : ∀ index < 4, spoilt[index]? = data[index]? := by decide
  refine ⟨hfill, hcontent, hisolates spoilt rfl fun index hindex => ?_⟩
  rcases hindex with hindex | hindex
  · exact hfront index hindex
  · obtain ⟨behind, rfl⟩ := Nat.exists_eq_add_of_le' hindex
    rfl

end Message

end WireTree
