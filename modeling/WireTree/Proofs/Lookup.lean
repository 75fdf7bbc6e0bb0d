import Mathlib.Data.List.Induction
import WireTree.Proofs.Indexed

/-!
# What tables of names find

In an exact schema looking a name up in a table gives what searching the list for it gives, so an indexed schema is built
just as the schema without tables is. A name that stands for a number of an enum type is never replaced.
-/

namespace WireTree

/-! ### Looking up -/

theorem find?_eq_of_iff {α : Type} {list : List α} {nameOf : α → String} {query : String} {found : Option α}
    (h : ∀ a, found = some a ↔ a ∈ list ∧ nameOf a = query) : list.find? (nameOf · == query) = found := by
  cases hfind : list.find? (nameOf · == query) with
  | none =>
    cases found with
    | none => rfl
    | some a =>
      obtain ⟨hmem, hname⟩ := (h a).1 rfl
      exact absurd (beq_iff_eq.2 hname) (List.find?_eq_none.1 hfind a hmem)
  | some a =>
    have hname := List.find?_some hfind
    exact ((h a).2 ⟨List.mem_of_find?_eq_some hfind, beq_iff_eq.1 hname⟩).symm

namespace IndexedMessage

variable {messages enums place : Nat} {message : IndexedMessage}

theorem Exact.mem_fields_iff (h : message.Exact messages enums place) {field : FieldDescription} :
    field ∈ message.fields ↔ message.field? field.number = some field := by
  refine ⟨fun hfield => ?_, fun hfield => List.mem_map.2 ⟨_, Table.mem_of_get? hfield, rfl⟩⟩
  obtain ⟨⟨number, field⟩, hentry, rfl⟩ := List.mem_map.1 hfield
  have hat : message.field? number = some field := (Table.get?_eq_some_iff h.ascending).2 hentry
  rw [h.number number field hat, hat]

theorem Exact.pairwise_fields (h : message.Exact messages enums place) :
    message.fields.Pairwise (·.number < ·.number) := by
  have hnumber : ∀ entry ∈ message.type.fields, entry.2.number = entry.1 := fun entry hentry =>
    h.number entry.1 entry.2 ((Table.get?_eq_some_iff h.ascending).2 hentry)
  refine List.pairwise_map.2 (h.ascending.imp_of_mem fun {first second} hfirst hsecond hlt => ?_)
  rw [hnumber first hfirst, hnumber second hsecond]
  exact Nat.compare_eq_lt.1 hlt

theorem Exact.fieldNamed?_eq_some_iff (h : message.Exact messages enums place) {name : String}
    {field : FieldDescription} :
    message.fieldNamed? name = some field ↔ message.field? field.number = some field ∧ field.name = name := by
  refine h.numbers.bind_eq_some_iff.trans ⟨fun ⟨number, hfield, hname⟩ => ⟨?_, hname⟩, fun hfield => ⟨_, hfield⟩⟩
  rw [h.number number field hfield, hfield]

theorem Exact.fieldNamed?_type (h : message.Exact messages enums place) (name : String) :
    message.type.fieldNamed? name = message.fieldNamed? name :=
  find?_eq_of_iff fun field => by
    rw [h.fieldNamed?_eq_some_iff, ← h.mem_fields_iff]
    rfl

theorem Exact.isSome_fieldNamed? (h : message.Exact messages enums place) (name : String) :
    (message.fieldNamed? name).isSome = (message.numbers.get? name).isSome :=
  h.numbers.isSome_bind name

end IndexedMessage

namespace IndexedService

variable {place : Nat} {service : IndexedService}

theorem Exact.methodNamed?_eq_some_iff (h : service.Exact place) {name : String} {method : Method} :
    service.methodNamed? name = some method ↔ method ∈ service.service.methods ∧ method.name = name := by
  refine h.places.bind_eq_some_iff.trans ?_
  rw [exists_and_right, List.mem_iff_getElem?]

theorem Exact.methodNamed?_service (h : service.Exact place) (name : String) :
    service.service.methodNamed? name = service.methodNamed? name :=
  find?_eq_of_iff fun _ => h.methodNamed?_eq_some_iff

theorem Exact.isSome_methodNamed? (h : service.Exact place) (name : String) :
    (service.methodNamed? name).isSome = (service.places.get? name).isSome :=
  h.places.isSome_bind name

end IndexedService

namespace IndexedSchema

variable {indexed : IndexedSchema}

theorem Exact.messageNamed?_eq_some_iff (h : indexed.Exact) {name : String} {message : IndexedMessage} :
    indexed.messageNamed? name = some message ↔ message ∈ indexed.messages ∧ message.type.fullName = name := by
  refine ⟨fun hfound => ?_, ?_⟩
  · unfold messageNamed? at hfound
    split at hfound
    · rename_i ref href
      obtain ⟨other, hother, hname⟩ := Option.map_eq_some_iff.1 ((h.types.get?_iff _ _).1 href)
      cases hother.symm.trans hfound
      exact ⟨List.mem_of_getElem? hother, hname⟩
    · cases hfound
  · rintro ⟨hmem, hname⟩
    obtain ⟨place, hplace⟩ := List.mem_iff_getElem?.1 hmem
    have href : indexed.types.get? name = some (.message ⟨place⟩) :=
      (h.types.get?_iff _ _).2 (Option.map_eq_some_iff.2 ⟨message, hplace, hname⟩)
    rw [messageNamed?, href]
    exact hplace

theorem Exact.enumNamed?_eq_some_iff (h : indexed.Exact) {name : String} {type : EnumType} :
    indexed.enumNamed? name = some type ↔ type ∈ indexed.enums ∧ type.fullName = name := by
  refine ⟨fun hfound => ?_, ?_⟩
  · unfold enumNamed? at hfound
    split at hfound
    · rename_i ref href
      obtain ⟨other, hother, hname⟩ := Option.map_eq_some_iff.1 ((h.types.get?_iff _ _).1 href)
      cases hother.symm.trans hfound
      exact ⟨List.mem_of_getElem? hother, hname⟩
    · cases hfound
  · rintro ⟨hmem, hname⟩
    obtain ⟨place, hplace⟩ := List.mem_iff_getElem?.1 hmem
    have href : indexed.types.get? name = some (.enum ⟨place⟩) :=
      (h.types.get?_iff _ _).2 (Option.map_eq_some_iff.2 ⟨type, hplace, hname⟩)
    rw [enumNamed?, href]
    exact hplace

theorem Exact.serviceNamed?_eq_some_iff (h : indexed.Exact) {name : String} {service : IndexedService} :
    indexed.serviceNamed? name = some service ↔ service ∈ indexed.services ∧ service.service.fullName = name := by
  refine h.servicePlaces.bind_eq_some_iff.trans ?_
  rw [exists_and_right, List.mem_iff_getElem?]

/-- What looking into the tables gives, and in which order the fields come. -/
structure Finds (indexed : IndexedSchema) : Prop where
  /-- No two types of either kind have the same full name. -/
  typeName?_inj : ∀ ref ref' name, indexed.typeName? ref = some name → indexed.typeName? ref' = some name → ref = ref'
  messageNamed? : ∀ name message,
    indexed.messageNamed? name = some message ↔ message ∈ indexed.messages ∧ message.type.fullName = name
  enumNamed? : ∀ name type, indexed.enumNamed? name = some type ↔ type ∈ indexed.enums ∧ type.fullName = name
  serviceNamed? : ∀ name service,
    indexed.serviceNamed? name = some service ↔ service ∈ indexed.services ∧ service.service.fullName = name
  fields : ∀ message ∈ indexed.messages, message.fields.Pairwise (·.number < ·.number)
  mem_fields : ∀ message ∈ indexed.messages, ∀ field,
    field ∈ message.fields ↔ message.field? field.number = some field
  fieldNamed? : ∀ message ∈ indexed.messages, ∀ name field,
    message.fieldNamed? name = some field ↔ message.field? field.number = some field ∧ field.name = name
  methodNamed? : ∀ service ∈ indexed.services, ∀ name method,
    service.methodNamed? name = some method ↔ method ∈ service.service.methods ∧ method.name = name

theorem Exact.finds (h : indexed.Exact) : indexed.Finds := by
  have hmessage : ∀ message ∈ indexed.messages,
      ∃ place, message.Exact indexed.messages.length indexed.enums.length place := by
    intro message hmem
    obtain ⟨place, hplace⟩ := List.mem_iff_getElem?.1 hmem
    exact ⟨place, h.messages place message hplace⟩
  refine ⟨fun ref ref' name => h.types.unique, fun _ _ => h.messageNamed?_eq_some_iff,
    fun _ _ => h.enumNamed?_eq_some_iff, fun _ _ => h.serviceNamed?_eq_some_iff, fun message hmem => ?_,
    fun message hmem field => ?_, fun message hmem name field => ?_, fun service hmem name method => ?_⟩
  · obtain ⟨place, hexact⟩ := hmessage message hmem
    exact hexact.pairwise_fields
  · obtain ⟨place, hexact⟩ := hmessage message hmem
    exact hexact.mem_fields_iff
  · obtain ⟨place, hexact⟩ := hmessage message hmem
    exact hexact.fieldNamed?_eq_some_iff
  · obtain ⟨place, hplace⟩ := List.mem_iff_getElem?.1 hmem
    exact (h.services place service hplace).methodNamed?_eq_some_iff

/-! ### The schema without tables -/

theorem message?_schema (ref : MessageRef) : indexed.schema.message? ref = (indexed.message? ref).map (·.type) :=
  List.getElem?_map

theorem enum?_schema (ref : EnumRef) : indexed.schema.enum? ref = indexed.enum? ref := rfl

theorem service?_schema (ref : ServiceRef) : indexed.schema.service? ref = (indexed.service? ref).map (·.service) :=
  List.getElem?_map

theorem Exact.messageNamed?_schema (h : indexed.Exact) (name : String) :
    indexed.schema.messageNamed? name = (indexed.messageNamed? name).map (·.type) := by
  rw [Schema.messageNamed?, schema, List.find?_map]
  exact congrArg _ (find?_eq_of_iff fun _ => h.messageNamed?_eq_some_iff)

theorem Exact.enumNamed?_schema (h : indexed.Exact) (name : String) :
    indexed.schema.enumNamed? name = indexed.enumNamed? name :=
  find?_eq_of_iff fun _ => h.enumNamed?_eq_some_iff

theorem Exact.serviceNamed?_schema (h : indexed.Exact) (name : String) :
    indexed.schema.serviceNamed? name = (indexed.serviceNamed? name).map (·.service) := by
  rw [Schema.serviceNamed?, schema, List.find?_map]
  exact congrArg _ (find?_eq_of_iff fun _ => h.serviceNamed?_eq_some_iff)

theorem Exact.typeNamed?_schema (h : indexed.Exact) (name : String) :
    indexed.schema.typeNamed? name = indexed.types.get? name := by
  rw [Schema.typeNamed?, h.messageNamed?_schema, h.enumNamed?_schema, messageNamed?, enumNamed?]
  cases href : indexed.types.get? name with
  | none => rfl
  | some ref =>
    have hname := (h.types.get?_iff name ref).1 href
    cases ref with
    | message ref =>
      obtain ⟨message, hmessage, -⟩ := Option.map_eq_some_iff.1 hname
      simp only [message?, hmessage, Option.map_some, (h.messages ref.index message hmessage).ref]
    | enum ref =>
      obtain ⟨type, htype, -⟩ := Option.map_eq_some_iff.1 hname
      simp only [enum?, htype, Option.map_some, Option.map_none, (h.enums ref.index type htype).ref]

theorem refersWell_schema (field : FieldDescription) : indexed.schema.refersWell field = indexed.refersWell field := by
  have hrange : ∀ {α : Type} (list : List α) (index : Nat), list[index]?.isSome = decide (index < list.length) := by
    intro α list index
    rw [Bool.eq_iff_iff]
    simp
  unfold Schema.refersWell refersWell
  split <;> simp_all [schema, Schema.message?, Schema.enum?]

/-- A step does to an exact schema what it does to the schema without tables. -/
theorem Exact.apply_schema (h : indexed.Exact) (step : BuildStep) :
    indexed.schema.apply step = (indexed.apply step).map fun result => (result.1.schema, result.2) := by
  cases step with
  | insertMessage name =>
    simp only [Schema.apply, apply, Schema.insertMessage, insertMessage, claim, h.typeNamed?_schema]
    cases indexed.types.get? name with
    | none => simp [schema, Except.map]
    | some ref => rfl
  | insertEnum name =>
    simp only [Schema.apply, apply, Schema.insertEnum, insertEnum, claim, h.typeNamed?_schema]
    cases indexed.types.get? name with
    | none => simp [schema, Except.map]
    | some ref => rfl
  | insertService name =>
    have hfree : (indexed.schema.serviceNamed? name).isSome = (indexed.servicePlaces.get? name).isSome := by
      rw [h.serviceNamed?_schema, Option.isSome_map]
      exact h.servicePlaces.isSome_bind name
    simp only [Schema.apply, apply, Schema.insertService, insertService]
    cases hfound : indexed.schema.serviceNamed? name <;> cases hplace : indexed.servicePlaces.get? name <;>
      simp [hfound, hplace] at hfree
    · simp [schema, Except.map]
    · rfl
  | addField target field =>
    simp only [Schema.apply, apply, Schema.addField, addField, refersWell_schema, message?_schema]
    cases hrefers : indexed.refersWell field with
    | false => rfl
    | true =>
      cases hmessage : indexed.message? target with
      | none => rfl
      | some message =>
        have hexact := h.messages _ _ hmessage
        simp only [Option.map_some, hexact.fieldNamed?_type, hexact.isSome_fieldNamed?,
          show message.type.field? field.number = message.field? field.number from rfl]
        cases message.field? field.number with
        | some => rfl
        | none =>
          cases message.numbers.get? field.name with
          | some => rfl
          | none => simp [schema, Except.map, List.map_set]
  | addEnumValue target name number =>
    simp only [Schema.apply, apply, Schema.addEnumValue, addEnumValue, enum?_schema]
    cases indexed.enum? target with
    | none => rfl
    | some type =>
      cases hname : type.numbers.get? name with
      | some => simp [EnumType.number?, hname, Except.map]
      | none => simp [EnumType.number?, hname, schema, Except.map]
  | addMethod target name input output =>
    simp only [Schema.apply, apply, Schema.addMethod, addMethod, service?_schema]
    cases hservice : indexed.service? target with
    | none => rfl
    | some service =>
      have hexact := h.services _ _ hservice
      simp only [Option.map_some, hexact.methodNamed?_service, hexact.isSome_methodNamed?]
      cases service.places.get? name with
      | some => rfl
      | none => simp [schema, Except.map, List.map_set]

theorem schema_after (h : indexed.Exact) (step : BuildStep) : (indexed.after step).schema = indexed.schema.after step := by
  rw [after, Schema.after, h.apply_schema]
  cases indexed.apply step <;> rfl

theorem build_concat (steps : List BuildStep) (step : BuildStep) : build (steps ++ [step]) = (build steps).after step :=
  List.foldl_concat ..

theorem schema_build (steps : List BuildStep) : (build steps).schema = Schema.build steps := by
  induction steps using List.reverseRecOn with
  | nil => rfl
  | append_singleton steps step ih =>
    rw [build_concat, schema_after (exact_build steps), ih]
    exact (List.foldl_concat ..).symm

theorem exists_does_of_apply {steps : List BuildStep} {step : BuildStep} {next : Schema} {added : Added}
    (h : (Schema.build steps).apply step = .ok (next, added)) :
    ∃ indexed : IndexedSchema, (build steps).Does step indexed ∧ indexed.schema = next := by
  rw [← schema_build, (exact_build steps).apply_schema] at h
  cases happly : (build steps).apply step with
  | error => rw [happly] at h; cases h
  | ok result =>
    rw [happly] at h
    cases h
    exact ⟨result.1, does_of_apply happly, rfl⟩

/-- The schema has the same types, finds them and their members by the same names, and takes and refuses the same steps. -/
structure Represents (indexed : IndexedSchema) (schema : Schema) : Prop where
  eq : indexed.schema = schema
  messageNamed? : ∀ name, schema.messageNamed? name = (indexed.messageNamed? name).map (·.type)
  enumNamed? : ∀ name, schema.enumNamed? name = indexed.enumNamed? name
  serviceNamed? : ∀ name, schema.serviceNamed? name = (indexed.serviceNamed? name).map (·.service)
  fieldNamed? : ∀ message ∈ indexed.messages, ∀ name, message.type.fieldNamed? name = message.fieldNamed? name
  methodNamed? : ∀ service ∈ indexed.services, ∀ name, service.service.methodNamed? name = service.methodNamed? name
  apply : ∀ step, schema.apply step = (indexed.apply step).map fun result => (result.1.schema, result.2)

theorem Exact.represents (h : indexed.Exact) : indexed.Represents indexed.schema := by
  refine ⟨rfl, h.messageNamed?_schema, h.enumNamed?_schema, h.serviceNamed?_schema, fun message hmem name => ?_,
    fun service hmem name => ?_, h.apply_schema⟩
  · obtain ⟨place, hplace⟩ := List.mem_iff_getElem?.1 hmem
    exact (h.messages place message hplace).fieldNamed?_type name
  · obtain ⟨place, hplace⟩ := List.mem_iff_getElem?.1 hmem
    exact (h.services place service hplace).methodNamed?_service name

theorem exists_exact_of_message? {steps : List BuildStep} {ref : MessageRef} {type : MessageType}
    (h : (Schema.build steps).message? ref = some type) :
    ∃ message : IndexedMessage, (build steps).message? ref = some message ∧ message.type = type ∧
      message.Exact (build steps).messages.length (build steps).enums.length ref.index := by
  rw [← schema_build, message?_schema] at h
  obtain ⟨message, hmessage, htype⟩ := Option.map_eq_some_iff.1 h
  exact ⟨message, hmessage, htype, (exact_build steps).messages _ _ hmessage⟩

theorem ref_unique {steps : List BuildStep} {ref ref' : MessageRef} {type type' : MessageType}
    (h : (Schema.build steps).message? ref = some type) (h' : (Schema.build steps).message? ref' = some type')
    (hname : type.fullName = type'.fullName) : ref = ref' := by
  obtain ⟨message, hmessage, rfl, -⟩ := exists_exact_of_message? h
  obtain ⟨message', hmessage', rfl, -⟩ := exists_exact_of_message? h'
  have hfound : (build steps).typeName? (.message ref) = some message.type.fullName :=
    Option.map_eq_some_iff.2 ⟨message, hmessage, rfl⟩
  have hfound' : (build steps).typeName? (.message ref') = some message.type.fullName :=
    Option.map_eq_some_iff.2 ⟨message', hmessage', hname.symm⟩
  have hsame := (exact_build steps).types.unique hfound hfound'
  rwa [TypeRef.message.injEq] at hsame

/-! ### Names that stand for a number -/

/-- Every name that stands for a number of an enum type stands for it in the next schema too. -/
def KeepsNames (indexed next : IndexedSchema) : Prop :=
  ∀ target type, indexed.enum? target = some type →
    ∃ type', next.enum? target = some type' ∧
      ∀ number name, type.name? number = some name → type'.name? number = some name

theorem KeepsNames.refl (indexed : IndexedSchema) : indexed.KeepsNames indexed :=
  fun _ type htype => ⟨type, htype, fun _ _ hname => hname⟩

theorem KeepsNames.trans {indexed next last : IndexedSchema} (h : indexed.KeepsNames next) (h' : next.KeepsNames last) :
    indexed.KeepsNames last := by
  intro target type htype
  obtain ⟨type', htype', hkept⟩ := h target type htype
  obtain ⟨type'', htype'', hkept'⟩ := h' target type' htype'
  exact ⟨type'', htype'', fun number name hname => hkept' number name (hkept number name hname)⟩

theorem Does.keepsNames {next : IndexedSchema} {step : BuildStep} (hexact : indexed.Exact)
    (h : indexed.Does step next) : indexed.KeepsNames next := by
  cases h with
  | insertMessage => exact KeepsNames.refl indexed
  | insertEnum name hnew =>
    exact fun target type htype => ⟨type, getElem?_concat_of_eq_some htype _, fun number name hname => hname⟩
  | insertService => exact KeepsNames.refl indexed
  | addField => exact KeepsNames.refl indexed
  | addEnumValue changed name number type htype hname =>
    intro target other hother
    by_cases hsame : changed.index = target.index
    · obtain ⟨hindex, -⟩ := List.getElem?_eq_some_iff.1 htype
      rw [enum?, ← hsame] at hother
      cases hother.symm.trans htype
      refine ⟨_, (List.getElem?_set).trans ((if_pos hsame).trans (if_pos hindex)), fun at' first hfirst => ?_⟩
      refine ((hexact.enums _ _ htype).name?_insert name number at').trans ?_
      split
      · rename_i hat
        rw [← hat, hfirst, Option.getD_some]
      · exact hfirst
    · exact ⟨other, (List.getElem?_set_ne hsame).trans hother, fun number name hname => hname⟩
  | addMethod => exact KeepsNames.refl indexed

theorem keepsNames_build (before later : List BuildStep) : (build before).KeepsNames (build (before ++ later)) := by
  induction later using List.reverseRecOn with
  | nil => exact (List.append_nil before).symm ▸ KeepsNames.refl _
  | append_singleton later step ih =>
    refine ih.trans ?_
    rw [← List.append_assoc, build_concat]
    rcases does_or_after_eq (build (before ++ later)) step with hdoes | hsame
    · exact hdoes.keepsNames (exact_build _)
    · exact hsame.symm ▸ KeepsNames.refl _

theorem name?_build_of_first {before later : List BuildStep} {target : EnumRef} {name : String} {number : Int32}
    {type : EnumType} (htype : (build before).enum? target = some type) (hnumber : type.name? number = none)
    (hname : type.number? name = none) :
    ∃ type', (build (before ++ .addEnumValue target name number :: later)).enum? target = some type' ∧
      type'.name? number = some name := by
  have hentered : ∃ type', (build (before ++ [.addEnumValue target name number])).enum? target = some type' ∧
      type'.name? number = some name := by
    obtain ⟨hindex, -⟩ := List.getElem?_eq_some_iff.1 htype
    have hexact := (exact_build before).enums _ _ htype
    simp only [build_concat, after, apply, addEnumValue, htype, show type.numbers.get? name = none from hname]
    refine ⟨_, List.getElem?_set_self hindex, ?_⟩
    refine (hexact.name?_insert name number number).trans ?_
    rw [if_pos rfl, hnumber, Option.getD_none]
  obtain ⟨type', htype', hstands⟩ := hentered
  obtain ⟨type'', htype'', hkept⟩ := keepsNames_build _ later target type' htype'
  rw [List.append_assoc] at htype''
  exact ⟨type'', htype'', hkept number name hstands⟩

/-- **Tables of names stay in step.** Whatever is added to a schema, and whatever is refused, every type knows its place,
every table of names is the inverse of the names in its list, and every field that refers to a type refers to one that its
field type asks for. So the tables find just what the lists hold, the schema is the one that is built without tables, and
the first name of a number stands for it ever after. -/
theorem represents_build (steps : List BuildStep) :
    (build steps).Exact ∧ (build steps).Finds ∧ (build steps).Represents (Schema.build steps) ∧
      ∀ before later target name number type, steps = before ++ .addEnumValue target name number :: later →
        (build before).enum? target = some type → type.name? number = none → type.number? name = none →
        ∃ type', (build steps).enum? target = some type' ∧ type'.name? number = some name := by
  have hexact := exact_build steps
  refine ⟨hexact, hexact.finds, ?_, ?_⟩
  · rw [← schema_build]
    exact hexact.represents
  · rintro before later target name number type rfl htype hnumber hname
    exact name?_build_of_first htype hnumber hname

end IndexedSchema

end WireTree
