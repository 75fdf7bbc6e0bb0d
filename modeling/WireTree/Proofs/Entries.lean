import WireTree.Proofs.Lookup

/-!
# What stands in a schema

A schema is known by its entries: the types with their names and places, and the members of each type. A step that is
done adds one entry, with keys that no other entry has, and leaves all others.
-/

namespace WireTree

/-- A list that steps add to at its end: the types of one kind, or the methods of a service. -/
inductive Row where
  | messages
  | enums
  | services
  | methods (owner : ServiceRef)
deriving DecidableEq, Repr

/-- A type with its name, or a member of a type. -/
inductive SchemaEntry where
  | message (ref : MessageRef) (name : String)
  | enum (ref : EnumRef) (name : String)
  | service (ref : ServiceRef) (name : String)
  | field (owner : MessageRef) (field : FieldDescription)
  | value (owner : EnumRef) (name : String) (number : Int32)
  | method (owner : ServiceRef) (place : Nat) (name : String) (input output : MessageRef)
deriving DecidableEq, Repr

/-- What a step reports that adds the entry. -/
def SchemaEntry.added : SchemaEntry → Added
  | .message ref _ => .type ref.index
  | .enum ref _ => .type ref.index
  | .service ref _ => .type ref.index
  | .field .. | .value .. | .method .. => .member

/-- The step that adds the entry. -/
def SchemaEntry.step : SchemaEntry → BuildStep
  | .message _ name => .insertMessage name
  | .enum _ name => .insertEnum name
  | .service _ name => .insertService name
  | .field owner description => .addField owner description
  | .value owner name number => .addEnumValue owner name number
  | .method owner _ name input output => .addMethod owner name input output

/-- What no two entries may share. -/
inductive Key where
  | type (name : String)
  | service (name : String)
  | fieldNumber (owner : MessageRef) (number : Nat)
  | fieldName (owner : MessageRef) (name : String)
  | value (owner : EnumRef) (name : String)
  | method (owner : ServiceRef) (name : String)
deriving DecidableEq, Repr

namespace BuildStep

/-- What the step takes for what it adds. Message types and enum types have their names in common. -/
def keys : BuildStep → List Key
  | .insertMessage name => [.type name]
  | .insertEnum name => [.type name]
  | .insertService name => [.service name]
  | .addField target field => [.fieldNumber target field.number, .fieldName target field.name]
  | .addEnumValue target name _ => [.value target name]
  | .addMethod target name .. => [.method target name]

theorem exists_mem_keys (step : BuildStep) : ∃ key, key ∈ step.keys := by
  cases step <;> exact ⟨_, List.mem_cons_self⟩

/-- The row that the step adds to. Fields and values stand in no order of their own. -/
def row? : BuildStep → Option Row
  | .insertMessage _ => some .messages
  | .insertEnum _ => some .enums
  | .insertService _ => some .services
  | .addMethod target .. => some (.methods target)
  | .addField .. | .addEnumValue .. => none

/-- What the step adds, if it adds at a place of its row. -/
def entry (place : Nat) : BuildStep → SchemaEntry
  | .insertMessage name => .message ⟨place⟩ name
  | .insertEnum name => .enum ⟨place⟩ name
  | .insertService name => .service ⟨place⟩ name
  | .addField target field => .field target field
  | .addEnumValue target name number => .value target name number
  | .addMethod target name input output => .method target place name input output

/-- The name that the step gives a number of an enum type. -/
def nameFor? (owner : EnumRef) (number : Int32) : BuildStep → Option String
  | .addEnumValue target name other => if target = owner ∧ other = number then some name else none
  | _ => none

@[simp] theorem step_entry (step : BuildStep) (place : Nat) : (step.entry place).step = step := by
  cases step <;> rfl

end BuildStep

namespace IndexedSchema

/-- Whether the entry stands in the schema, and is known there by its own place and full name. -/
def Has (indexed : IndexedSchema) : SchemaEntry → Prop
  | .message ref name =>
    ∃ message, indexed.message? ref = some message ∧ message.type.ref = ref ∧ message.type.fullName = name
  | .enum ref name => ∃ type, indexed.enum? ref = some type ∧ type.ref = ref ∧ type.fullName = name
  | .service ref name =>
    ∃ service, indexed.service? ref = some service ∧ service.service.ref = ref ∧ service.service.fullName = name
  | .field owner field => ∃ message, indexed.message? owner = some message ∧ message.field? field.number = some field
  | .value owner name number => ∃ type, indexed.enum? owner = some type ∧ type.number? name = some number
  | .method owner place name input output =>
    ∃ service, indexed.service? owner = some service ∧
      service.service.methods[place]? = some ⟨name, service.service.fullName ++ "." ++ name, input, output⟩

/-- Whether an entry of the schema has the key. -/
def Taken (indexed : IndexedSchema) (key : Key) : Prop := ∃ entry, indexed.Has entry ∧ key ∈ entry.step.keys

/-- Whether a key is found where it is looked up. -/
def lookUp (indexed : IndexedSchema) : Key → Bool
  | .type name => (indexed.types.get? name).isSome
  | .service name => (indexed.servicePlaces.get? name).isSome
  | .fieldNumber owner number => (indexed.message? owner).any fun message => (message.field? number).isSome
  | .fieldName owner name => (indexed.message? owner).any fun message => (message.numbers.get? name).isSome
  | .value owner name => (indexed.enum? owner).any fun type => (type.number? name).isSome
  | .method owner name => (indexed.service? owner).any fun service => (service.places.get? name).isSome

/-- How much stands in a row. -/
def count (indexed : IndexedSchema) : Row → Nat
  | .messages => indexed.messages.length
  | .enums => indexed.enums.length
  | .services => indexed.services.length
  | .methods owner => (indexed.service? owner).elim 0 (·.service.methods.length)

/-- What a step adds to the schema: the last entry of its row from then on. -/
def entry (indexed : IndexedSchema) (step : BuildStep) : SchemaEntry := step.entry ((step.row?.map indexed.count).getD 0)

/-- The name that stands for a number of an enum type. -/
def nameOf? (indexed : IndexedSchema) (owner : EnumRef) (number : Int32) : Option String :=
  (indexed.enum? owner).elim none (·.name? number)

end IndexedSchema

/-! ### Lists that a step changes -/

section ChangedLists

variable {α : Type} {list : List α} {place : Nat} {p : α → Prop} {q : Prop}

theorem getElem?_concat_eq_some_iff {new found : α} :
    (list ++ [new])[place]? = some found ↔ list[place]? = some found ∨ place = list.length ∧ new = found := by
  rcases Nat.lt_trichotomy place list.length with hlt | rfl | hgt
  · rw [List.getElem?_append_left hlt]
    exact (or_iff_left fun h => Nat.ne_of_lt hlt h.1).symm
  · simp
  · rw [List.getElem?_eq_none (by simp; omega), List.getElem?_eq_none (by omega)]
    simp [Nat.ne_of_gt hgt]

theorem exists_concat_iff {new : α} (hnew : place = list.length → (p new ↔ q)) :
    (∃ found, (list ++ [new])[place]? = some found ∧ p found) ↔
      (∃ found, list[place]? = some found ∧ p found) ∨ place = list.length ∧ q := by
  simp only [getElem?_concat_eq_some_iff, or_and_right, exists_or]
  refine or_congr_right ⟨?_, fun ⟨hplace, hq⟩ => ⟨new, ⟨hplace, rfl⟩, (hnew hplace).2 hq⟩⟩
  rintro ⟨_, ⟨hplace, rfl⟩, hp⟩
  exact ⟨hplace, (hnew hplace).1 hp⟩

theorem exists_concat_iff_of_not {new : α} (hnew : ¬ p new) :
    (∃ found, (list ++ [new])[place]? = some found ∧ p found) ↔ ∃ found, list[place]? = some found ∧ p found :=
  (exists_concat_iff fun _ => iff_false_intro hnew).trans (or_iff_left And.right)

theorem elim_getElem?_concat {β : Type} {new : α} {see : α → β} {nothing : β} (hnew : see new = nothing) :
    (list ++ [new])[place]?.elim nothing see = list[place]?.elim nothing see := by
  rcases Nat.lt_trichotomy place list.length with hlt | rfl | hgt
  · rw [List.getElem?_append_left hlt]
  · simpa using hnew
  · rw [List.getElem?_eq_none (by simp; omega), List.getElem?_eq_none (by omega)]

theorem exists_set_iff {changed : Nat} {old new : α} (hold : list[changed]? = some old)
    (hnew : place = changed → (p new ↔ p old ∨ q)) :
    (∃ found, (list.set changed new)[place]? = some found ∧ p found) ↔
      (∃ found, list[place]? = some found ∧ p found) ∨ place = changed ∧ q := by
  by_cases hplace : place = changed
  · subst hplace
    obtain ⟨hlt, -⟩ := List.getElem?_eq_some_iff.1 hold
    simp [List.getElem?_set_self hlt, hold, hnew rfl]
  · rw [List.getElem?_set_ne (Ne.symm hplace)]
    exact (or_iff_left fun h => hplace h.1).symm

theorem exists_set_iff_of_iff {changed : Nat} {old new : α} (hold : list[changed]? = some old) (hnew : p new ↔ p old) :
    (∃ found, (list.set changed new)[place]? = some found ∧ p found) ↔ ∃ found, list[place]? = some found ∧ p found :=
  (exists_set_iff hold fun _ => hnew.trans (or_iff_left id).symm).trans (or_iff_left And.right)

end ChangedLists

theorem IndexedMessage.Exact.field?_insert {messages enums place : Nat} {message : IndexedMessage}
    {field : FieldDescription} (h : message.Exact messages enums place) (hnumber : message.field? field.number = none)
    (other : FieldDescription) :
    (message.type.fields.insert field.number field).get? other.number = some other ↔
      message.field? other.number = some other ∨ other = field := by
  rw [Table.get?_insert h.ascending, show message.type.fields.get? field.number = none from hnumber]
  by_cases hsame : other.number = field.number
  · rw [if_pos hsame, hsame, hnumber]
    simp [eq_comm]
  · rw [if_neg hsame]
    exact (or_iff_left fun heq => hsame (congrArg _ heq)).symm

theorem EnumType.Exact.number?_insert {place : Nat} {type : EnumType} {name : String} (h : type.Exact place)
    (hname : type.number? name = none) (number : Int32) (other : String) (number' : Int32) :
    (type.numbers.insert name number).get? other = some number' ↔
      type.number? other = some number' ∨ other = name ∧ number' = number := by
  rw [Table.get?_insert h.ascendingNumbers, show type.numbers.get? name = none from hname]
  by_cases hsame : other = name
  · rw [if_pos hsame, hsame, hname]
    simp [eq_comm]
  · rw [if_neg hsame]
    exact (or_iff_left fun heq => hsame heq.1).symm

namespace IndexedSchema

variable {indexed next : IndexedSchema} {step : BuildStep}

/-! ### What a step adds -/

theorem Does.has_insertMessage_iff {name : String}
    (h : indexed.Does (.insertMessage name) next) (entry : SchemaEntry) :
    next.Has entry ↔ indexed.Has entry ∨ entry = indexed.entry (.insertMessage name) := by
  cases h
  cases entry with
  | message ref other =>
    refine (exists_concat_iff fun _ => Iff.rfl).trans (or_congr_right ⟨?_, ?_⟩)
    · rintro ⟨-, rfl, rfl⟩
      rfl
    · rintro ⟨⟩
      exact ⟨rfl, rfl, rfl⟩
  | field owner field =>
    refine (exists_concat_iff_of_not ?_).trans (or_iff_left (by rintro ⟨⟩)).symm
    simp [IndexedMessage.field?, MessageType.field?]
  | enum | service | value | method => exact (or_iff_left (by rintro ⟨⟩)).symm

theorem Does.has_insertEnum_iff {name : String}
    (h : indexed.Does (.insertEnum name) next) (entry : SchemaEntry) :
    next.Has entry ↔ indexed.Has entry ∨ entry = indexed.entry (.insertEnum name) := by
  cases h
  cases entry with
  | enum ref other =>
    refine (exists_concat_iff fun _ => Iff.rfl).trans (or_congr_right ⟨?_, ?_⟩)
    · rintro ⟨-, rfl, rfl⟩
      rfl
    · rintro ⟨⟩
      exact ⟨rfl, rfl, rfl⟩
  | value owner other number =>
    refine (exists_concat_iff_of_not ?_).trans (or_iff_left (by rintro ⟨⟩)).symm
    simp [EnumType.number?]
  | message | service | field | method => exact (or_iff_left (by rintro ⟨⟩)).symm

theorem Does.has_insertService_iff {name : String}
    (h : indexed.Does (.insertService name) next) (entry : SchemaEntry) :
    next.Has entry ↔ indexed.Has entry ∨ entry = indexed.entry (.insertService name) := by
  cases h
  cases entry with
  | service ref other =>
    refine (exists_concat_iff fun _ => Iff.rfl).trans (or_congr_right ⟨?_, ?_⟩)
    · rintro ⟨-, rfl, rfl⟩
      rfl
    · rintro ⟨⟩
      exact ⟨rfl, rfl, rfl⟩
  | method owner place other input output =>
    refine (exists_concat_iff_of_not ?_).trans (or_iff_left (by rintro ⟨⟩)).symm
    simp
  | message | enum | field | value => exact (or_iff_left (by rintro ⟨⟩)).symm

theorem Does.has_addField_iff {target : MessageRef} {field : FieldDescription}
    (hexact : indexed.Exact) (h : indexed.Does (.addField target field) next) (entry : SchemaEntry) :
    next.Has entry ↔ indexed.Has entry ∨ entry = indexed.entry (.addField target field) := by
  cases h with
  | addField target field message hrefers hmessage hnumber hname =>
    cases entry with
    | message ref other =>
      refine (exists_set_iff_of_iff hmessage ?_).trans (or_iff_left (by rintro ⟨⟩)).symm
      rfl
    | field owner other =>
      have hfield := (hexact.messages _ _ hmessage).field?_insert hnumber other
      refine (exists_set_iff hmessage fun _ => hfield).trans (or_congr_right ⟨?_, ?_⟩)
      · rintro ⟨hsame, rfl⟩
        exact congrArg (SchemaEntry.field · other) (congrArg MessageRef.mk hsame)
      · rintro ⟨⟩
        exact ⟨rfl, rfl⟩
    | enum | service | value | method => exact (or_iff_left (by rintro ⟨⟩)).symm

theorem Does.has_addEnumValue_iff {target : EnumRef} {name : String} {number : Int32}
    (hexact : indexed.Exact) (h : indexed.Does (.addEnumValue target name number) next) (entry : SchemaEntry) :
    next.Has entry ↔ indexed.Has entry ∨ entry = indexed.entry (.addEnumValue target name number) := by
  cases h with
  | addEnumValue target name number type htype hname =>
    cases entry with
    | enum ref other =>
      refine (exists_set_iff_of_iff htype ?_).trans (or_iff_left (by rintro ⟨⟩)).symm
      rfl
    | value owner other number' =>
      have hnumber := (hexact.enums _ _ htype).number?_insert hname number other number'
      refine (exists_set_iff htype fun _ => hnumber).trans (or_congr_right ⟨?_, ?_⟩)
      · rintro ⟨hsame, rfl, rfl⟩
        exact congrArg (SchemaEntry.value · other number') (congrArg EnumRef.mk hsame)
      · rintro ⟨⟩
        exact ⟨rfl, rfl, rfl⟩
    | message | service | field | method => exact (or_iff_left (by rintro ⟨⟩)).symm

theorem Does.has_addMethod_iff {target : ServiceRef} {name : String} {input output : MessageRef}
    (h : indexed.Does (.addMethod target name input output) next) (entry : SchemaEntry) :
    next.Has entry ↔ indexed.Has entry ∨ entry = indexed.entry (.addMethod target name input output) := by
  cases h with
  | addMethod target name input output service hservice hname =>
    have hcount : indexed.count (.methods target) = service.service.methods.length := by
      rw [count, hservice]
      rfl
    cases entry with
    | service ref other =>
      refine (exists_set_iff_of_iff hservice ?_).trans (or_iff_left (by rintro ⟨⟩)).symm
      rfl
    | method owner place other input' output' =>
      refine (exists_set_iff hservice fun _ => getElem?_concat_eq_some_iff).trans (or_congr_right ?_)
      rw [entry, BuildStep.row?, Option.map_some, hcount, Option.getD_some]
      constructor
      · rintro ⟨hsame, rfl, hmethod⟩
        cases hmethod
        exact congrArg (SchemaEntry.method · _ name input output) (congrArg ServiceRef.mk hsame)
      · rintro ⟨⟩
        exact ⟨rfl, rfl, rfl⟩
    | message | enum | field | value => exact (or_iff_left (by rintro ⟨⟩)).symm

/-- A step adds its own entry and no other, and takes none away. -/
theorem Does.has_iff (hexact : indexed.Exact) (h : indexed.Does step next) (entry : SchemaEntry) :
    next.Has entry ↔ indexed.Has entry ∨ entry = indexed.entry step := by
  cases step with
  | insertMessage name => exact h.has_insertMessage_iff entry
  | insertEnum name => exact h.has_insertEnum_iff entry
  | insertService name => exact h.has_insertService_iff entry
  | addField target field => exact h.has_addField_iff hexact entry
  | addEnumValue target name number => exact h.has_addEnumValue_iff hexact entry
  | addMethod target name input output => exact h.has_addMethod_iff entry

theorem Does.count_eq (h : indexed.Does step next) (row : Row) :
    next.count row = indexed.count row + if step.row? = some row then 1 else 0 := by
  cases h with
  | insertMessage | insertEnum | addField | addEnumValue => cases row <;> simp [count, BuildStep.row?, service?]
  | insertService name hnew =>
    cases row with
    | methods owner =>
      -- The new service has no methods yet.
      exact elim_getElem?_concat rfl
    | messages | enums | services => simp [count, BuildStep.row?]
  | addMethod target name input output service hservice hname =>
    cases row with
    | methods owner =>
      by_cases hsame : target = owner
      · subst hsame
        obtain ⟨hlt, -⟩ := List.getElem?_eq_some_iff.1 hservice
        rw [count, count, hservice, service?, List.getElem?_set_self hlt]
        simp [BuildStep.row?]
      · have hindex : target.index ≠ owner.index := fun heq => hsame (congrArg ServiceRef.mk heq)
        simp [count, BuildStep.row?, service?, List.getElem?_set_ne hindex, hsame]
    | messages | enums | services => simp [count, BuildStep.row?]

theorem Does.nameOf?_eq (hexact : indexed.Exact) (h : indexed.Does step next) (owner : EnumRef) (number : Int32) :
    next.nameOf? owner number = (indexed.nameOf? owner number).or (step.nameFor? owner number) := by
  cases h with
  | insertMessage | insertService | addField | addMethod => exact Option.or_none.symm
  | insertEnum name hnew =>
    refine Eq.trans ?_ Option.or_none.symm
    exact elim_getElem?_concat rfl
  | addEnumValue target name other type htype hname =>
    by_cases hsame : target = owner
    · subst hsame
      obtain ⟨hlt, -⟩ := List.getElem?_eq_some_iff.1 htype
      rw [nameOf?, nameOf?, htype, enum?, List.getElem?_set_self hlt, Option.elim_some, Option.elim_some]
      refine ((hexact.enums _ _ htype).name?_insert name other number).trans ?_
      by_cases hnumber : number = other
      · subst hnumber
        cases type.name? number <;> simp [BuildStep.nameFor?]
      · simp [BuildStep.nameFor?, hnumber, Ne.symm hnumber]
    · have hindex : target.index ≠ owner.index := fun heq => hsame (congrArg EnumRef.mk heq)
      simp [nameOf?, enum?, List.getElem?_set_ne hindex, BuildStep.nameFor?, hsame]

/-! ### What the tables find -/

theorem Exact.has_message_iff (h : indexed.Exact) {ref : MessageRef} {name : String} :
    indexed.Has (.message ref name) ↔ indexed.types.get? name = some (.message ref) := by
  rw [h.types.get?_iff]
  refine Iff.trans ?_ Option.map_eq_some_iff.symm
  refine exists_congr fun message => and_congr_right fun hmessage => and_iff_right ?_
  exact (h.messages _ _ hmessage).ref

theorem Exact.has_enum_iff (h : indexed.Exact) {ref : EnumRef} {name : String} :
    indexed.Has (.enum ref name) ↔ indexed.types.get? name = some (.enum ref) := by
  rw [h.types.get?_iff]
  refine Iff.trans ?_ Option.map_eq_some_iff.symm
  refine exists_congr fun type => and_congr_right fun htype => and_iff_right ?_
  exact (h.enums _ _ htype).ref

theorem Exact.has_service_iff (h : indexed.Exact) {ref : ServiceRef} {name : String} :
    indexed.Has (.service ref name) ↔ indexed.servicePlaces.get? name = some ref.index := by
  rw [h.servicePlaces.get?_iff]
  refine Iff.trans ?_ Option.map_eq_some_iff.symm
  refine exists_congr fun service => and_congr_right fun hservice => and_iff_right ?_
  exact (h.services _ _ hservice).ref

theorem Exact.taken_of_lookUp (h : indexed.Exact) {key : Key} (hlook : indexed.lookUp key = true) :
    indexed.Taken key := by
  cases key with
  | type name =>
    obtain ⟨ref, href⟩ := Option.isSome_iff_exists.1 hlook
    cases ref with
    | message ref => exact ⟨.message ref name, h.has_message_iff.2 href, List.mem_singleton_self _⟩
    | enum ref => exact ⟨.enum ref name, h.has_enum_iff.2 href, List.mem_singleton_self _⟩
  | service name =>
    obtain ⟨place, hplace⟩ := Option.isSome_iff_exists.1 hlook
    exact ⟨.service ⟨place⟩ name, h.has_service_iff.2 hplace, List.mem_singleton_self _⟩
  | fieldNumber owner number =>
    obtain ⟨message, hmessage, hsome⟩ := (Option.any_eq_true ..).1 hlook
    obtain ⟨field, hfield⟩ := Option.isSome_iff_exists.1 hsome
    obtain rfl := (h.messages _ _ hmessage).number number field hfield
    exact ⟨.field owner field, ⟨message, hmessage, hfield⟩, List.mem_cons_self⟩
  | fieldName owner name =>
    obtain ⟨message, hmessage, hsome⟩ := (Option.any_eq_true ..).1 hlook
    obtain ⟨number, hnumber⟩ := Option.isSome_iff_exists.1 hsome
    have hexact := h.messages _ _ hmessage
    obtain ⟨field, hfield, rfl⟩ := Option.map_eq_some_iff.1 ((hexact.numbers.get?_iff _ _).1 hnumber)
    obtain rfl := hexact.number number field hfield
    exact ⟨.field owner field, ⟨message, hmessage, hfield⟩, List.mem_cons_of_mem _ (List.mem_singleton_self _)⟩
  | value owner name =>
    obtain ⟨type, htype, hsome⟩ := (Option.any_eq_true ..).1 hlook
    obtain ⟨number, hnumber⟩ := Option.isSome_iff_exists.1 hsome
    exact ⟨.value owner name number, ⟨type, htype, hnumber⟩, List.mem_singleton_self _⟩
  | method owner name =>
    obtain ⟨service, hservice, hsome⟩ := (Option.any_eq_true ..).1 hlook
    obtain ⟨place, hplace⟩ := Option.isSome_iff_exists.1 hsome
    have hexact := h.services _ _ hservice
    obtain ⟨method, hmethod, rfl⟩ := Option.map_eq_some_iff.1 ((hexact.places.get?_iff _ _).1 hplace)
    refine ⟨.method owner place method.name method.input method.output, ⟨service, hservice, ?_⟩,
      List.mem_singleton_self _⟩
    rw [hmethod, ← hexact.fullName method (List.mem_of_getElem? hmethod)]

theorem Exact.lookUp_of_taken (h : indexed.Exact) {key : Key} (htaken : indexed.Taken key) :
    indexed.lookUp key = true := by
  obtain ⟨entry, hentry, hkey⟩ := htaken
  cases entry with
  | message ref name =>
    obtain rfl := List.mem_singleton.1 hkey
    exact Option.isSome_iff_exists.2 ⟨_, h.has_message_iff.1 hentry⟩
  | enum ref name =>
    obtain rfl := List.mem_singleton.1 hkey
    exact Option.isSome_iff_exists.2 ⟨_, h.has_enum_iff.1 hentry⟩
  | service ref name =>
    obtain rfl := List.mem_singleton.1 hkey
    exact Option.isSome_iff_exists.2 ⟨_, h.has_service_iff.1 hentry⟩
  | field owner field =>
    obtain ⟨message, hmessage, hfield⟩ := hentry
    simp only [SchemaEntry.step, BuildStep.keys, List.mem_cons, List.not_mem_nil, or_false] at hkey
    rcases hkey with rfl | rfl
    · simp [lookUp, hmessage, hfield]
    · have hname := ((h.messages _ _ hmessage).numbers.get?_iff field.name field.number).2 (by rw [hfield]; rfl)
      simp [lookUp, hmessage, hname]
  | value owner name number =>
    obtain ⟨type, htype, hnumber⟩ := hentry
    obtain rfl := List.mem_singleton.1 hkey
    simp [lookUp, htype, hnumber]
  | method owner place name input output =>
    obtain ⟨service, hservice, hmethod⟩ := hentry
    obtain rfl := List.mem_singleton.1 hkey
    have hname := ((h.services _ _ hservice).places.get?_iff name place).2 (Option.map_eq_some_iff.2 ⟨_, hmethod, rfl⟩)
    simp [lookUp, hservice, hname]

theorem Exact.lookUp_iff (h : indexed.Exact) (key : Key) : indexed.lookUp key = true ↔ indexed.Taken key :=
  ⟨h.taken_of_lookUp, h.lookUp_of_taken⟩

theorem Does.lookUp_eq_false (h : indexed.Does step next) {key : Key} (hkey : key ∈ step.keys) :
    indexed.lookUp key = false := by
  cases h with
  | insertMessage name hnew | insertEnum name hnew | insertService name hnew =>
    obtain rfl := List.mem_singleton.1 hkey
    simp [lookUp, hnew]
  | addField target field message hrefers hmessage hnumber hname =>
    simp only [BuildStep.keys, List.mem_cons, List.not_mem_nil, or_false] at hkey
    rcases hkey with rfl | rfl
    · simp [lookUp, hmessage, hnumber]
    · simp [lookUp, hmessage, hname]
  | addEnumValue target name number type htype hname =>
    obtain rfl := List.mem_singleton.1 hkey
    simp [lookUp, htype, hname]
  | addMethod target name input output service hservice hname =>
    obtain rfl := List.mem_singleton.1 hkey
    simp [lookUp, hservice, hname]

theorem Does.not_taken (hexact : indexed.Exact) (h : indexed.Does step next) {key : Key} (hkey : key ∈ step.keys) :
    ¬ indexed.Taken key := by
  rw [← hexact.lookUp_iff, h.lookUp_eq_false hkey]
  exact Bool.false_ne_true

theorem Does.not_has (hexact : indexed.Exact) (h : indexed.Does step next) : ¬ indexed.Has (indexed.entry step) := by
  intro hhas
  obtain ⟨key, hkey⟩ := step.exists_mem_keys
  refine h.not_taken hexact hkey ⟨_, hhas, ?_⟩
  rwa [entry, BuildStep.step_entry]

/-! ### Members of a type -/

theorem Exact.field?_eq_some_iff (h : indexed.Exact) {owner : MessageRef} {message : IndexedMessage}
    (hmessage : indexed.message? owner = some message) {number : Nat} {field : FieldDescription} :
    message.field? number = some field ↔ indexed.Has (.field owner field) ∧ field.number = number := by
  constructor
  · intro hfield
    obtain rfl := (h.messages _ _ hmessage).number number field hfield
    exact ⟨⟨message, hmessage, hfield⟩, rfl⟩
  · rintro ⟨⟨found, hfound, hfield⟩, rfl⟩
    cases hmessage.symm.trans hfound
    exact hfield

theorem number?_eq_some_iff {owner : EnumRef} {type : EnumType} (htype : indexed.enum? owner = some type)
    {name : String} {number : Int32} : type.number? name = some number ↔ indexed.Has (.value owner name number) := by
  refine ⟨fun hnumber => ⟨type, htype, hnumber⟩, ?_⟩
  rintro ⟨found, hfound, hnumber⟩
  cases htype.symm.trans hfound
  exact hnumber

theorem Exact.methods_eq_some_iff (h : indexed.Exact) {owner : ServiceRef} {service : IndexedService}
    (hservice : indexed.service? owner = some service) {place : Nat} {method : Method} :
    service.service.methods[place]? = some method ↔
      indexed.Has (.method owner place method.name method.input method.output) ∧
        method.fullName = service.service.fullName ++ "." ++ method.name := by
  constructor
  · intro hmethod
    have hname := (h.services _ _ hservice).fullName method (List.mem_of_getElem? hmethod)
    refine ⟨⟨service, hservice, ?_⟩, hname⟩
    rw [hmethod, ← hname]
  · rintro ⟨⟨found, hfound, hmethod⟩, hname⟩
    cases hservice.symm.trans hfound
    rw [hmethod, ← hname]

end IndexedSchema

end WireTree
