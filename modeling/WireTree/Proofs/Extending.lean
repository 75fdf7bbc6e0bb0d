import WireTree.Proofs.Building
import WireTree.Proofs.Nesting

/-!
# What a schema is extended by

A schema that is added to keeps every type at its place. So a run by the extended schema differs from one before in the
fields only that the addition describes, and these keep what framing gives them: number, wire type and span.
-/

namespace WireTree

/-! ### Hidden fields -/

/-- What framing says of a field. -/
def Field.bare (number : Nat) (wireType : WireType) (span : Span) : Field :=
  ⟨number, wireType, span, none, .none, .incomplete [], [], []⟩

mutual

/-- The tree, with bare fields for those that are hidden, by the name of the message they lie in and their number. -/
def Message.mask (hidden : String → Nat → Bool) : Message → Message
  | ⟨name, span, fields, garbage, diagnostics⟩ => ⟨name, span, maskFields hidden name fields, garbage, diagnostics⟩

def Field.mask (hidden : String → Nat → Bool) (owner : String) : Field → Field
  | ⟨number, wireType, span, name, type, value, candidates, diagnostics⟩ =>
    if hidden owner number then .bare number wireType span
    else ⟨number, wireType, span, name, type, value.mask hidden, candidates, diagnostics⟩

def Value.mask (hidden : String → Nat → Bool) : Value → Value
  | .message embedded => .message (embedded.mask hidden)
  | .scalar scalar => .scalar scalar
  | .packed elements => .packed elements
  | .incomplete content => .incomplete content

def maskFields (hidden : String → Nat → Bool) (owner : String) : List Field → List Field
  | [] => []
  | field :: rest => field.mask hidden owner :: maskFields hidden owner rest

end

section Mask

variable {hidden : String → Nat → Bool} {owner : String}

theorem maskFields_eq_map (hidden : String → Nat → Bool) (owner : String) (fields : List Field) :
    maskFields hidden owner fields = fields.map (Field.mask hidden owner) := by
  induction fields with
  | nil => rfl
  | cons field rest ih => rw [maskFields, ih, List.map_cons]

theorem Field.mask_of_hidden {field : Field} (h : hidden owner field.number = true) :
    field.mask hidden owner = .bare field.number field.wireType field.span := by
  obtain ⟨number, wireType, span, name, type, value, candidates, diagnostics⟩ := field
  rw [Field.mask, if_pos h]

theorem Message.mask_note (message : Message) (diagnostic : Diagnostic) :
    Message.mask hidden { message with diagnostics := diagnostic :: message.diagnostics } =
      let masked := message.mask hidden
      { masked with diagnostics := diagnostic :: masked.diagnostics } := by
  obtain ⟨name, span, fields, garbage, diagnostics⟩ := message
  rfl

end Mask

mutual

theorem Message.mask_of_none : (message : Message) → message.mask (fun _ _ => false) = message
  | ⟨name, span, fields, garbage, diagnostics⟩ => by rw [Message.mask, maskFields_of_none]

theorem Field.mask_of_none (owner : String) : (field : Field) → field.mask (fun _ _ => false) owner = field
  | ⟨number, wireType, span, name, type, value, candidates, diagnostics⟩ => by
    rw [Field.mask, if_neg Bool.false_ne_true, Value.mask_of_none]

theorem Value.mask_of_none : (value : Value) → value.mask (fun _ _ => false) = value
  | .message embedded => by rw [Value.mask, Message.mask_of_none]
  | .scalar scalar => rfl
  | .packed elements => rfl
  | .incomplete content => rfl

theorem maskFields_of_none (owner : String) : (fields : List Field) → maskFields (fun _ _ => false) owner fields = fields
  | [] => rfl
  | field :: rest => by rw [maskFields, Field.mask_of_none, maskFields_of_none]

end

/-! ### Schemas that grow -/

/-- Both types have one name and describe the same fields, but for those that are hidden. -/
structure MessageType.Alike (hidden : String → Nat → Bool) (type type' : MessageType) : Prop where
  fullName : type'.fullName = type.fullName
  field? : ∀ number, hidden type.fullName number = false → type'.field? number = type.field? number

theorem MessageType.Alike.refl (hidden : String → Nat → Bool) (type : MessageType) : type.Alike hidden type :=
  ⟨rfl, fun _ _ => rfl⟩

namespace Schema

variable {hidden : String → Nat → Bool} {schema next : Schema}

/-- Each type is at its place in the next schema too, and describes the same fields there, but for those that are hidden. -/
structure GrowsTo (hidden : String → Nat → Bool) (schema next : Schema) : Prop where
  message? : ∀ ref type, schema.message? ref = some type →
    ∃ type', next.message? ref = some type' ∧ type.Alike hidden type'
  enum? : ∀ ref type, schema.enum? ref = some type → next.enum? ref = some type

theorem GrowsTo.enumOf?_eq (h : schema.GrowsTo hidden next) {description : FieldDescription}
    (hresolves : schema.Resolves description) : next.enumOf? description = schema.enumOf? description := by
  unfold enumOf?
  split
  · rename_i ref href
    have hrange : ref.index < schema.enums.length := by simpa only [Resolves, href] using hresolves
    have hfound : schema.enum? ref = some schema.enums[ref.index] := List.getElem?_eq_getElem hrange
    rw [hfound, h.enum? ref _ hfound]
  · rfl

theorem GrowsTo.messageOf?_cases (h : schema.GrowsTo hidden next) {description : FieldDescription}
    (hresolves : schema.Resolves description) :
    (schema.messageOf? description = none ∧ next.messageOf? description = none) ∨
    ∃ nested nested', schema.messageOf? description = some nested ∧ next.messageOf? description = some nested' ∧
      nested.Alike hidden nested' := by
  unfold messageOf?
  split
  · rename_i ref href
    have hrange : ref.index < schema.messages.length := by simpa only [Resolves, href] using hresolves
    have hfound : schema.message? ref = some schema.messages[ref.index] := List.getElem?_eq_getElem hrange
    obtain ⟨nested', hfound', halike⟩ := h.message? ref _ hfound
    exact .inr ⟨_, nested', hfound, hfound', halike⟩
  · exact .inl ⟨rfl, rfl⟩

end Schema

/-! ### Records by both schemas -/

/-- What messages are entered with in both runs, for types that are alike. -/
inductive EntersAlike (hidden : String → Nat → Bool) (schema : Schema) : Option Embed → Option Embed → Prop
  | none : EntersAlike hidden schema none none
  | some (enter enter' : Embed)
      (hsame : ∀ nested nested', nested ∈ schema.messages → nested.Alike hidden nested' → ∀ start content,
        (enter nested start content).mask hidden = (enter' nested' start content).mask hidden) :
    EntersAlike hidden schema (some enter) (some enter')

section Alike

variable {hidden : String → Nat → Bool} {schema next : Schema} {embed embed' : Option Embed} {type type' : MessageType}

namespace Record

theorem asMessage_mask (hgrows : schema.GrowsTo hidden next) {description : FieldDescription}
    (hresolves : schema.Resolves description) (hembed : EntersAlike hidden schema embed embed') (options : Options)
    (record : Record) (content : Bytes) (name : Option String) (owner : String) :
    (record.field name
        (record.asMessage options embed (schema.messageOf? description) description content)).mask hidden owner =
      (record.field name
        (record.asMessage options embed' (next.messageOf? description) description content)).mask hidden owner := by
  rcases hgrows.messageOf?_cases hresolves with ⟨hnested, hnested'⟩ | ⟨nested, nested', hnested, hnested', halike⟩
  · rw [hnested, hnested']
    rfl
  · rw [hnested, hnested']
    cases hembed with
    | none => rfl
    | some enter enter' hsame =>
      have hmask := hsame nested nested' (Schema.mem_of_messageOf? hnested) halike record.valueSpan.start content
      simp only [asMessage, field, Field.mask, Value.mask, hmask]

theorem described_mask (hgrows : schema.GrowsTo hidden next) {description : FieldDescription}
    (hresolves : schema.Resolves description) (hembed : EntersAlike hidden schema embed embed') (options : Options)
    (record : Record) (name : Option String) (owner : String) :
    (record.field name (record.described options schema embed description)).mask hidden owner =
      (record.field name (record.described options next embed' description)).mask hidden owner := by
  rcases described_cases description record with
    ⟨content, -, hreading⟩ | ⟨content, -, -, -, hreading⟩ | hreading
  · rw [hreading, hreading, hgrows.enumOf?_eq hresolves]
  · rw [hreading, hreading]
    exact asMessage_mask hgrows hresolves hembed options record content name owner
  · rw [hreading, hreading, hgrows.enumOf?_eq hresolves]

theorem decode_mask (hgrows : schema.GrowsTo hidden next) (hlinked : schema.Linked) (htype : type ∈ schema.messages)
    (halike : type.Alike hidden type') (hembed : EntersAlike hidden schema embed embed') (options : Options)
    (record : Record) :
    (record.decode options schema embed (some type)).mask hidden type.fullName =
      (record.decode options next embed' (some type')).mask hidden type.fullName := by
  -- What is left of a hidden field comes from framing alone; any other is described alike by both types.
  cases hhidden : hidden type.fullName record.number with
  | true =>
    rw [Field.mask_of_hidden (by rwa [number_decode]), Field.mask_of_hidden (by rwa [number_decode])]
    simp only [number_decode, wireType_decode, span_decode]
  | false =>
    have hdescribe : describe (some type') record.number = describe (some type) record.number :=
      halike.field? record.number hhidden
    rw [decode, decode, hdescribe]
    cases hdescribed : describe (some type) record.number with
    | none => rfl
    | some description =>
      have hresolves := hlinked.resolves_of_field? htype hdescribed
      exact described_mask hgrows hresolves hembed options record _ _

end Record

theorem Stop.field?_mask (halike : type.Alike hidden type') (stop : Stop) :
    (stop.field? (some type)).map (Field.mask hidden type.fullName) =
      (stop.field? (some type')).map (Field.mask hidden type.fullName) := by
  cases stop with
  | garbage => rfl
  | incomplete number wireType span content error =>
    cases hhidden : hidden type.fullName number with
    | true => simp only [field?, Option.map_some, Field.mask, hhidden, if_true]
    | false =>
      have hdescribe : describe (some type') number = describe (some type) number := halike.field? number hhidden
      rw [field?, field?, hdescribe]

/-! ### Messages by both schemas -/

namespace Message

theorem ofWindow_mask (hgrows : schema.GrowsTo hidden next) (hlinked : schema.Linked) (htype : type ∈ schema.messages)
    (halike : type.Alike hidden type') (hembed : EntersAlike hidden schema embed embed') (options : Options)
    (start : Nat) (window : Bytes) :
    (ofWindow options schema embed (some type) start window).mask hidden =
      (ofWindow options next embed' (some type') start window).mask hidden := by
  have hrecords : ((Framing.ofWindow start window).records.map (Record.decode options schema embed (some type))).map
        (Field.mask hidden type.fullName) =
      ((Framing.ofWindow start window).records.map (Record.decode options next embed' (some type'))).map
        (Field.mask hidden type.fullName) := by
    rw [List.map_map, List.map_map]
    exact List.map_congr_left fun record _ => Record.decode_mask hgrows hlinked htype halike hembed options record
  have hlast : ((Framing.ofWindow start window).stop.bind (Stop.field? (some type))).toList.map
        (Field.mask hidden type.fullName) =
      ((Framing.ofWindow start window).stop.bind (Stop.field? (some type'))).toList.map
        (Field.mask hidden type.fullName) := by
    rw [← Option.toList_map, ← Option.toList_map]
    cases (Framing.ofWindow start window).stop with
    | none => rfl
    | some stop => exact congrArg Option.toList (Stop.field?_mask halike stop)
  simp only [ofWindow, Option.map_some, Option.getD_some, mask, maskFields_eq_map, List.map_append, halike.fullName,
    hrecords, hlast]

theorem ofBudget_mask (hgrows : schema.GrowsTo hidden next) (hlinked : schema.Linked) (options : Options)
    (budget : Nat) (htype : type ∈ schema.messages) (halike : type.Alike hidden type') (start : Nat) (window : Bytes) :
    (ofBudget options schema budget (some type) start window).mask hidden =
      (ofBudget options next budget (some type') start window).mask hidden := by
  -- The induction is over all pairs of types that are alike, since a message may hold one of any other type.
  rw [ofBudget_eq, ofBudget_eq]
  induction budget generalizing type type' start window with
  | zero => exact ofWindow_mask hgrows hlinked htype halike .none options start window
  | succ budget ih =>
    have hembed : EntersAlike hidden schema (entering options schema (budget + 1))
        (entering options next (budget + 1)) := by
      refine .some _ _ fun nested nested' hnested halike start content => ?_
      rw [ofBudget_eq, ofBudget_eq]
      exact ih hnested halike start content
    exact ofWindow_mask hgrows hlinked htype halike hembed options start window

theorem decodeWindow_mask (hgrows : schema.GrowsTo hidden next) (hlinked : schema.Linked) (options : Options)
    (htype : type ∈ schema.messages) (halike : type.Alike hidden type') (data : Bytes) (offset length : Nat) :
    (decodeWindow options schema (some type) data offset length).mask hidden =
      (decodeWindow options next (some type') data offset length).mask hidden := by
  obtain ⟨front, window, back, -, hfront, -, hwindow⟩ := exists_window data offset length
  have hmask := ofBudget_mask hgrows hlinked options options.maxDepth htype halike front.length window
  rw [decodeWindow_eq options schema (some type) hfront hwindow, decodeWindow_eq options next (some type') hfront hwindow]
  split
  · exact hmask
  · rw [mask_note, mask_note, span_ofBudget, span_ofBudget, hmask]

end Message

end Alike

/-! ### What is added -/

/-- Whether the step leaves the message types and enum types that are there as they are. -/
def BuildStep.keepsTypes : BuildStep → Bool
  | .insertMessage _ | .insertEnum _ | .insertService _ | .addMethod .. => true
  | .addField .. | .addEnumValue .. => false

namespace Schema

/-- Each message type and enum type is at its place in the next schema too, and is the same there. -/
structure Extends (schema next : Schema) : Prop where
  message? : ∀ ref type, schema.message? ref = some type → next.message? ref = some type
  enum? : ∀ ref type, schema.enum? ref = some type → next.enum? ref = some type

theorem Extends.refl (schema : Schema) : schema.Extends schema := ⟨fun _ _ h => h, fun _ _ h => h⟩

theorem Extends.trans {schema next last : Schema} (h : schema.Extends next) (h' : next.Extends last) :
    schema.Extends last :=
  ⟨fun ref type htype => h'.message? ref type (h.message? ref type htype),
    fun ref type htype => h'.enum? ref type (h.enum? ref type htype)⟩

theorem Extends.growsTo {schema next : Schema} (h : schema.Extends next) (hidden : String → Nat → Bool) :
    schema.GrowsTo hidden next :=
  ⟨fun ref type htype => ⟨type, h.message? ref type htype, .refl hidden type⟩, h.enum?⟩

end Schema

namespace IndexedSchema

variable {indexed next : IndexedSchema}

theorem Does.extends {step : BuildStep} (h : indexed.Does step next) (hkeeps : step.keepsTypes = true) :
    indexed.schema.Extends next.schema := by
  cases h with
  | insertMessage name hnew =>
    refine ⟨fun ref type htype => ?_, fun _ _ htype => htype⟩
    rw [Schema.message?, schema, List.map_append]
    exact getElem?_concat_of_eq_some htype _
  | insertEnum => exact ⟨fun _ _ htype => htype, fun _ _ htype => getElem?_concat_of_eq_some htype _⟩
  | insertService => exact ⟨fun _ _ htype => htype, fun _ _ htype => htype⟩
  | addField => cases hkeeps
  | addEnumValue => cases hkeeps
  | addMethod => exact ⟨fun _ _ htype => htype, fun _ _ htype => htype⟩

theorem extends_build (steps : List BuildStep) {more : List BuildStep}
    (hmore : ∀ step ∈ more, step.keepsTypes = true) :
    (Schema.build steps).Extends (Schema.build (steps ++ more)) := by
  rw [← schema_build, ← schema_build, show build (steps ++ more) = more.foldl after (build steps) from List.foldl_append]
  refine List.foldlRecOn (motive := fun indexed => (build steps).schema.Extends indexed.schema) more after (.refl _)
    fun indexed hextends step hstep => hextends.trans ?_
  rcases does_or_after_eq indexed step with hdoes | hsame
  · exact hdoes.extends (hmore step hstep)
  · exact hsame.symm ▸ .refl indexed.schema

theorem growsTo_of_addField {steps : List BuildStep} {target : MessageRef} {field : FieldDescription} {next : Schema}
    (h : (Schema.build steps).addField target field = .ok next) :
    ∃ owner, (Schema.build steps).message? target = some owner ∧
      (Schema.build steps).GrowsTo (fun name number => name == owner.fullName && number == field.number) next := by
  obtain ⟨indexed, hdoes, rfl⟩ := exists_does_of_apply
    (show (Schema.build steps).apply (.addField target field) = .ok (next, .member) by rw [Schema.apply, h]; rfl)
  cases hdoes with
  | addField _ _ message hrefers hmessage hnumber hname =>
    rw [← schema_build]
    refine ⟨message.type, by rw [message?_schema, hmessage]; rfl, fun ref type htype => ?_, fun _ _ htype => htype⟩
    rw [message?_schema] at htype ⊢
    obtain ⟨found, hfound, rfl⟩ := Option.map_eq_some_iff.1 htype
    by_cases hsame : target.index = ref.index
    · obtain rfl : target = ref := congrArg MessageRef.mk hsame
      obtain ⟨hindex, -⟩ := List.getElem?_eq_some_iff.1 hmessage
      cases hfound.symm.trans hmessage
      refine ⟨_, congrArg (Option.map _) (List.getElem?_set_self hindex), rfl, fun number hhidden => ?_⟩
      have hother : number ≠ field.number := by simpa using hhidden
      have hexact := (exact_build steps).messages _ _ hmessage
      exact (Table.get?_insert hexact.ascending _ _ number).trans (if_neg hother)
    · exact ⟨found.type, congrArg (Option.map _) ((List.getElem?_set_ne hsame).trans hfound), .refl _ _⟩

end IndexedSchema

namespace Message

/-- **What is added to a schema shows only where it is described.** Further types, services and methods leave every run as
it is. A field more shows in the fields of its number that lie in a message of its type, which is the only one of that
name; even these keep their number, wire type and span, and all around them stays as it is. -/
theorem decodeWindow_extends (steps : List BuildStep) (ref : MessageRef) (type : MessageType)
    (htype : (Schema.build steps).message? ref = some type) (options : Options) (data : Bytes) (offset length : Nat) :
    let schema := Schema.build steps
    let tree := decodeWindow options schema (some type) data offset length
    (∀ more : List BuildStep, (∀ step ∈ more, step.keepsTypes = true) →
      let next := Schema.build (steps ++ more)
      next.message? ref = some type ∧ decodeWindow options next (some type) data offset length = tree) ∧
    ∀ (target : MessageRef) (field : FieldDescription) (next : Schema), schema.addField target field = .ok next →
      ∃ owner type', schema.message? target = some owner ∧ next.message? ref = some type' ∧
        (∀ other found, schema.message? other = some found → found.fullName = owner.fullName → other = target) ∧
        let hidden := fun name number => name == owner.fullName && number == field.number
        (decodeWindow options next (some type') data offset length).mask hidden = tree.mask hidden := by
  intro schema tree
  have hlinked : schema.Linked := Schema.linked_build steps
  have hmem : type ∈ schema.messages := List.mem_of_getElem? htype
  refine ⟨fun more hmore => ?_, fun target field next hadded => ?_⟩
  · intro next
    have hextends : schema.Extends next := IndexedSchema.extends_build steps hmore
    have hgrows := hextends.growsTo fun _ _ => false
    have hmask := decodeWindow_mask hgrows hlinked options hmem (.refl _ type) data offset length
    rw [mask_of_none, mask_of_none] at hmask
    exact ⟨hextends.message? ref type htype, hmask.symm⟩
  · obtain ⟨owner, howner, hgrows⟩ := IndexedSchema.growsTo_of_addField hadded
    obtain ⟨type', htype', halike⟩ := hgrows.message? ref type htype
    refine ⟨owner, type', howner, htype', fun other found hfound hname => ?_, ?_⟩
    · exact IndexedSchema.ref_unique hfound howner hname
    · exact (decodeWindow_mask hgrows hlinked options hmem halike data offset length).symm

theorem decodeWindow_extends_recursive :
    let child : FieldDescription := ⟨"child", 2, .message, .single, some (.message ⟨0⟩)⟩
    let count : FieldDescription := ⟨"count", 1, .sint32, .single, none⟩
    let steps : List BuildStep := [.insertMessage "M", .addField ⟨0⟩ child]
    let schema := Schema.build steps
    let more := Schema.build (steps ++ [.insertEnum "E", .insertMessage "N"])
    let next := Schema.build (steps ++ [.addField ⟨0⟩ count])
    let type : MessageType := ⟨"M", ⟨0⟩, [(2, child)]⟩
    let type' : MessageType := ⟨"M", ⟨0⟩, [(1, count), (2, child)]⟩
    let data : Bytes := [8, 3, 18, 2, 8, 5]
    let inner (field : Field) : Message := ⟨"M", ⟨4, 6⟩, [field], none, []⟩
    let hidden := fun name number => name == "M" && number == 1
    (decodeWindow {} schema (some type) data 0 6).fields =
      [⟨1, .varint, ⟨0, 2⟩, none, .uint32, .scalar (.uint32 3), [], []⟩,
        ⟨2, .lengthDelimited, ⟨2, 6⟩, some "child", .message,
          .message (inner ⟨1, .varint, ⟨4, 6⟩, none, .uint32, .scalar (.uint32 5), [], []⟩), [], []⟩] ∧
    (decodeWindow {} next (some type') data 0 6).fields =
      [⟨1, .varint, ⟨0, 2⟩, some "count", .sint32, .scalar (.sint32 (-2)), [], []⟩,
        ⟨2, .lengthDelimited, ⟨2, 6⟩, some "child", .message,
          .message (inner ⟨1, .varint, ⟨4, 6⟩, some "count", .sint32, .scalar (.sint32 (-3)), [], []⟩), [], []⟩] ∧
    decodeWindow {} more (some type) data 0 6 = decodeWindow {} schema (some type) data 0 6 ∧
    (decodeWindow {} next (some type') data 0 6).mask hidden =
      (decodeWindow {} schema (some type) data 0 6).mask hidden := by
  intro child count steps schema more next type type' data inner hidden
  have htype : schema.message? ⟨0⟩ = some type := by decide
  have hadded : schema.addField ⟨0⟩ count = .ok next := by with_unfolding_all rfl
  have htype' : next.message? ⟨0⟩ = some type' := by decide
  obtain ⟨hmore, hnext⟩ := decodeWindow_extends steps ⟨0⟩ type htype {} data 0 6
  obtain ⟨-, hsame⟩ := hmore [.insertEnum "E", .insertMessage "N"] (by decide)
  obtain ⟨owner, found, howner, hfound, -, hmask⟩ := hnext ⟨0⟩ count next hadded
  cases howner.symm.trans htype
  cases hfound.symm.trans htype'
  exact ⟨by with_unfolding_all rfl, by with_unfolding_all rfl, hsame, hmask⟩

end Message

end WireTree
