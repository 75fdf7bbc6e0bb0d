import Mathlib.Data.List.Basic
import WireTree.Schema.Indexed

/-!
# Tables of names stay in step

Every table of names is the exact inverse of the names that stand in its list: a name is found where it stands, and nowhere
else. A step enters a name where it adds a type or a member, and only if the name is new, so it keeps every table exact; a
step that is refused changes nothing.
-/

namespace WireTree

/-! ### Exact tables -/

/-- The name that stands at a place of a list. -/
def nameAt {α : Type} (name : α → String) (list : List α) (place : Nat) : Option String := (list[place]?).map name

section NameAt

variable {α : Type} {name : α → String} {list : List α}

theorem nameAt_length : nameAt name list list.length = none := by
  simp [nameAt]

theorem nameAt_concat_length (new : α) : nameAt name (list ++ [new]) list.length = some (name new) := by
  simp [nameAt]

theorem nameAt_concat_of_ne (new : α) {place : Nat} (h : place ≠ list.length) :
    nameAt name (list ++ [new]) place = nameAt name list place := by
  simp only [nameAt, List.getElem?_append]
  split
  · rfl
  · rw [List.getElem?_eq_none (by simp; omega), List.getElem?_eq_none (by omega)]

theorem nameAt_set {place : Nat} {old new : α} (hold : list[place]? = some old) (hname : name new = name old)
    (other : Nat) : nameAt name (list.set place new) other = nameAt name list other := by
  simp only [nameAt, List.getElem?_set]
  split
  · rename_i hplace
    subst hplace
    obtain ⟨hplace, -⟩ := List.getElem?_eq_some_iff.1 hold
    rw [if_pos hplace, hold, Option.map_some, Option.map_some, hname]
  · rfl

end NameAt

section PerPlace

variable {α : Type} {list : List α} {p : Nat → α → Prop}

theorem getElem?_concat_of_eq_some {place : Nat} {found : α} (h : list[place]? = some found) (new : α) :
    (list ++ [new])[place]? = some found := by
  obtain ⟨hplace, -⟩ := List.getElem?_eq_some_iff.1 h
  rw [List.getElem?_append_left hplace, h]

theorem forall_getElem?_concat (h : ∀ (place : Nat) (old : α), list[place]? = some old → p place old) {new : α}
    (hnew : p list.length new) (place : Nat) (found : α) (hat : (list ++ [new])[place]? = some found) : p place found := by
  rw [List.getElem?_append] at hat
  split at hat
  · exact h place found hat
  · obtain ⟨hplace, rfl⟩ := List.getElem?_eq_some_iff.1 hat
    have hplace : place = list.length := by
      simp only [List.length_singleton] at hplace
      omega
    subst hplace
    simpa using hnew

theorem forall_getElem?_set (h : ∀ (place : Nat) (old : α), list[place]? = some old → p place old) {changed : Nat}
    {new : α} (hnew : p changed new) (place : Nat) (found : α) (hat : (list.set changed new)[place]? = some found) :
    p place found := by
  rw [List.getElem?_set] at hat
  split at hat
  · rename_i hplace
    split at hat
    · cases hat
      exact hplace ▸ hnew
    · cases hat
  · exact h place found hat

end PerPlace

/-- Each name has the place where it stands, and a name that stands nowhere has none. -/
structure Table.Inverts {ι : Type} (table : Table String ι) (name : ι → Option String) : Prop where
  ascending : table.Ascending
  get?_iff : ∀ query place, table.get? query = some place ↔ name place = some query

namespace Table.Inverts

variable {ι : Type} {table : Table String ι} {name name' : ι → Option String}

theorem nil (h : ∀ place, name place = none) : Table.Inverts [] name :=
  ⟨List.Pairwise.nil, fun query place => by simp [h]⟩

theorem unique (h : table.Inverts name) {place place' : ι} {query : String} (hplace : name place = some query)
    (hplace' : name place' = some query) : place = place' := by
  rw [← h.get?_iff] at hplace hplace'
  rw [hplace, Option.some.injEq] at hplace'
  exact hplace'

theorem congr (h : table.Inverts name) (hname : ∀ place, name' place = name place) : table.Inverts name' :=
  ⟨h.ascending, fun query place => by rw [hname, h.get?_iff]⟩

theorem insert (h : table.Inverts name) {query : String} {place : ι} (hnew : table.get? query = none)
    (hfree : name place = none) (hplace : name' place = some query)
    (hother : ∀ other, other ≠ place → name' other = name other) : (Table.insert table query place).Inverts name' := by
  refine ⟨ascending_insert h.ascending query place, fun asked found => ?_⟩
  have hold := h.get?_iff asked found
  rw [get?_insert h.ascending]
  by_cases hfound : found = place
  · subst hfound
    rw [hfree] at hold
    by_cases hasked : asked = query
    · simp [hasked, hnew, hplace]
    · simp [hasked, hold, hplace, Ne.symm hasked]
  · rw [hother found hfound, ← hold]
    by_cases hasked : asked = query
    · simp [hasked, hnew, Ne.symm hfound]
    · rw [if_neg hasked]

section Looking

variable {α : Type} {look : ι → Option α} {nameOf : α → String}

theorem bind_eq_some_iff (h : table.Inverts fun place => (look place).map nameOf) {query : String} {found : α} :
    (table.get? query).bind look = some found ↔ ∃ place, look place = some found ∧ nameOf found = query := by
  rw [Option.bind_eq_some_iff]
  refine exists_congr fun place => ?_
  rw [h.get?_iff, Option.map_eq_some_iff]
  refine ⟨fun ⟨⟨other, hother, hname⟩, hfound⟩ => ?_, fun ⟨hfound, hname⟩ => ⟨⟨found, hfound, hname⟩, hfound⟩⟩
  rw [hother, Option.some.injEq] at hfound
  exact ⟨hother.trans (congrArg some hfound), hfound ▸ hname⟩

theorem isSome_bind (h : table.Inverts fun place => (look place).map nameOf) (query : String) :
    ((table.get? query).bind look).isSome = (table.get? query).isSome := by
  cases hplace : table.get? query with
  | none => rfl
  | some place =>
    obtain ⟨found, hfound, -⟩ := Option.map_eq_some_iff.1 ((h.get?_iff query place).1 hplace)
    rw [Option.bind_some, hfound, Option.isSome_some, Option.isSome_some]

end Looking

end Table.Inverts

/-! ### Exact schemas -/

/-- Whether a field of the type may refer so, where there are so many message types and enum types. -/
inductive TypeRef.Fits (messages enums : Nat) : FieldType → TypeRef → Prop
  | message (ref : MessageRef) (hrange : ref.index < messages) : Fits messages enums .message (.message ref)
  | group (ref : MessageRef) (hrange : ref.index < messages) : Fits messages enums .group (.message ref)
  | enum (ref : EnumRef) (hrange : ref.index < enums) : Fits messages enums .enum (.enum ref)

/-- The message type knows its place, and each field stands at its own number and is found there by its name. -/
structure IndexedMessage.Exact (messages enums place : Nat) (message : IndexedMessage) : Prop where
  ref : message.type.ref = ⟨place⟩
  ascending : message.type.fields.Ascending
  number : ∀ number field, message.field? number = some field → field.number = number
  numbers : message.numbers.Inverts fun number => (message.field? number).map (·.name)
  typeRef : ∀ number field, message.field? number = some field → ∀ ref, field.typeRef = some ref →
    ref.Fits messages enums field.type

/-- The enum type knows its place, the name that stands for a number has that number, and every number that has a name has
one that stands for it. -/
structure EnumType.Exact (place : Nat) (type : EnumType) : Prop where
  ref : type.ref = ⟨place⟩
  ascendingNames : type.names.Ascending
  ascendingNumbers : type.numbers.Ascending
  number_of_name : ∀ number name, type.name? number = some name → type.number? name = some number
  name_of_number : ∀ name number, type.number? name = some number → ∃ first, type.name? number = some first

/-- The service knows its place, and each method is found where it stands by its name. -/
structure IndexedService.Exact (place : Nat) (service : IndexedService) : Prop where
  ref : service.service.ref = ⟨place⟩
  places : service.places.Inverts (nameAt (·.name) service.service.methods)
  fullName : ∀ method ∈ service.service.methods, method.fullName = service.service.fullName ++ "." ++ method.name

theorem TypeRef.Fits.mono {messages enums messages' enums' : Nat} {type : FieldType} {ref : TypeRef}
    (h : ref.Fits messages enums type) (hmessages : messages ≤ messages') (henums : enums ≤ enums') :
    ref.Fits messages' enums' type := by
  cases h with
  | message ref hrange => exact .message ref (Nat.lt_of_lt_of_le hrange hmessages)
  | group ref hrange => exact .group ref (Nat.lt_of_lt_of_le hrange hmessages)
  | enum ref hrange => exact .enum ref (Nat.lt_of_lt_of_le hrange henums)

namespace IndexedMessage

theorem exact_empty (messages enums place : Nat) (name : String) :
    Exact messages enums place ⟨⟨name, ⟨place⟩, []⟩, []⟩ where
  ref := rfl
  ascending := List.Pairwise.nil
  number number field hfield := by cases hfield
  numbers := Table.Inverts.nil fun _ => rfl
  typeRef number field hfield := by cases hfield

variable {messages enums place : Nat} {message : IndexedMessage}

theorem Exact.mono {messages' enums' : Nat} (h : message.Exact messages enums place) (hmessages : messages ≤ messages')
    (henums : enums ≤ enums') : message.Exact messages' enums' place :=
  { h with typeRef := fun number field hfield ref href => (h.typeRef number field hfield ref href).mono hmessages henums }

theorem Exact.insert {field : FieldDescription} (h : message.Exact messages enums place)
    (hfits : ∀ ref, field.typeRef = some ref → ref.Fits messages enums field.type)
    (hnumber : message.field? field.number = none) (hname : message.numbers.get? field.name = none) :
    Exact messages enums place
      ⟨{ message.type with fields := message.type.fields.insert field.number field },
        message.numbers.insert field.name field.number⟩ := by
  have hfield : ∀ number, Table.get? (message.type.fields.insert field.number field) number =
      if number = field.number then some field else message.field? number := by
    intro number
    rw [Table.get?_insert h.ascending, show message.type.fields.get? field.number = none from hnumber]
    rfl
  refine ⟨h.ref, Table.ascending_insert h.ascending _ _, fun number other hother => ?_, ?_,
    fun number other hother => ?_⟩
  · change Table.get? _ _ = _ at hother
    rw [hfield] at hother
    split at hother
    · rename_i hsame
      cases hother
      exact hsame.symm
    · exact h.number number other hother
  · refine h.numbers.insert hname (by simp [hnumber]) ?_ fun other hne => ?_
    · exact congrArg _ (hfield field.number) |>.trans (by simp)
    · exact congrArg _ (hfield other) |>.trans (by rw [if_neg hne])
  · change Table.get? _ _ = _ at hother
    rw [hfield] at hother
    split at hother
    · cases hother
      exact hfits
    · exact h.typeRef number other hother

end IndexedMessage

namespace EnumType

theorem exact_empty (place : Nat) (name : String) : Exact place ⟨name, ⟨place⟩, [], []⟩ where
  ref := rfl
  ascendingNames := List.Pairwise.nil
  ascendingNumbers := List.Pairwise.nil
  number_of_name number name hname := by cases hname
  name_of_number name number hnumber := by cases hnumber

variable {place : Nat} {type : EnumType}

theorem Exact.name?_insert (h : type.Exact place) (name : String) (number other : Int32) :
    (type.names.insert number name).get? other =
      if other = number then some ((type.name? number).getD name) else type.name? other :=
  Table.get?_insert h.ascendingNames number name other

theorem Exact.insert {name : String} {number : Int32} (h : type.Exact place) (hname : type.number? name = none) :
    Exact place { type with names := type.names.insert number name, numbers := type.numbers.insert name number } := by
  have hnumbers : ∀ other, (type.numbers.insert name number).get? other =
      if other = name then some number else type.number? other := by
    intro other
    rw [Table.get?_insert h.ascendingNumbers, show type.numbers.get? name = none from hname]
    rfl
  refine ⟨h.ref, Table.ascending_insert h.ascendingNames _ _, Table.ascending_insert h.ascendingNumbers _ _,
    fun at' first hfirst => ?_, fun other at' hnumber => ?_⟩
  · change Table.get? _ _ = _ at hfirst ⊢
    have hold : type.name? at' = some first → (type.numbers.insert name number).get? first = some at' := by
      intro hstands
      have hfound := h.number_of_name at' first hstands
      rw [hnumbers, if_neg (by rintro rfl; simp [hname] at hfound), hfound]
    rw [h.name?_insert] at hfirst
    split at hfirst
    · rename_i hsame
      cases hstands : type.name? number with
      | none =>
        rw [hstands] at hfirst
        cases hfirst
        rw [hnumbers, Option.getD_none, if_pos rfl, hsame]
      | some old =>
        rw [hstands] at hfirst
        cases hfirst
        exact hold (hsame ▸ hstands)
    · exact hold hfirst
  · change Table.get? _ _ = _ at hnumber
    change ∃ first, Table.get? _ _ = _
    rw [hnumbers] at hnumber
    rw [h.name?_insert]
    split at hnumber
    · cases hnumber
      exact ⟨_, if_pos rfl⟩
    · split
      · exact ⟨_, rfl⟩
      · exact h.name_of_number other at' hnumber

end EnumType

namespace IndexedService

theorem exact_empty (place : Nat) (name : String) : Exact place ⟨⟨name, ⟨place⟩, []⟩, []⟩ where
  ref := rfl
  places := Table.Inverts.nil fun _ => rfl
  fullName method hmethod := by cases hmethod

theorem Exact.insert {place : Nat} {service : IndexedService} {name : String} (h : service.Exact place)
    (hname : service.places.get? name = none) (input output : MessageRef) :
    Exact place
      ⟨{ service.service with
          methods := service.service.methods ++ [⟨name, service.service.fullName ++ "." ++ name, input, output⟩] },
        service.places.insert name service.service.methods.length⟩ := by
  refine ⟨h.ref, ?_, fun method hmethod => ?_⟩
  · exact h.places.insert hname nameAt_length (nameAt_concat_length _) fun other hne => nameAt_concat_of_ne _ hne
  · rcases List.mem_append.1 hmethod with hmethod | hmethod
    · exact h.fullName method hmethod
    · cases List.mem_singleton.1 hmethod
      rfl

end IndexedService

namespace IndexedSchema

/-- The full name of the type that is referred to. -/
def typeName? (indexed : IndexedSchema) : TypeRef → Option String
  | .message ref => nameAt (·.type.fullName) indexed.messages ref.index
  | .enum ref => nameAt (·.fullName) indexed.enums ref.index

/-- All types know their places, and all tables of names are exact. -/
structure Exact (indexed : IndexedSchema) : Prop where
  messages : ∀ (place : Nat) (message : IndexedMessage), indexed.messages[place]? = some message →
    message.Exact indexed.messages.length indexed.enums.length place
  enums : ∀ (place : Nat) (type : EnumType), indexed.enums[place]? = some type → type.Exact place
  services : ∀ (place : Nat) (service : IndexedService), indexed.services[place]? = some service → service.Exact place
  types : indexed.types.Inverts indexed.typeName?
  servicePlaces : indexed.servicePlaces.Inverts (nameAt (·.service.fullName) indexed.services)

/-! ### Steps -/

/-- What a step that is not refused does to the schema and its tables. -/
inductive Does (indexed : IndexedSchema) : BuildStep → IndexedSchema → Prop
  | insertMessage (name : String) (hnew : indexed.types.get? name = none) :
    Does indexed (.insertMessage name)
      { indexed with
        types := indexed.types.insert name (.message ⟨indexed.messages.length⟩)
        messages := indexed.messages ++ [⟨⟨name, ⟨indexed.messages.length⟩, []⟩, []⟩] }
  | insertEnum (name : String) (hnew : indexed.types.get? name = none) :
    Does indexed (.insertEnum name)
      { indexed with
        types := indexed.types.insert name (.enum ⟨indexed.enums.length⟩)
        enums := indexed.enums ++ [⟨name, ⟨indexed.enums.length⟩, [], []⟩] }
  | insertService (name : String) (hnew : indexed.servicePlaces.get? name = none) :
    Does indexed (.insertService name)
      { indexed with
        servicePlaces := indexed.servicePlaces.insert name indexed.services.length
        services := indexed.services ++ [⟨⟨name, ⟨indexed.services.length⟩, []⟩, []⟩] }
  | addField (target : MessageRef) (field : FieldDescription) (message : IndexedMessage)
      (hrefers : indexed.refersWell field = true) (hmessage : indexed.message? target = some message)
      (hnumber : message.field? field.number = none) (hname : message.numbers.get? field.name = none) :
    Does indexed (.addField target field)
      { indexed with
        messages := indexed.messages.set target.index
          ⟨{ message.type with fields := message.type.fields.insert field.number field },
            message.numbers.insert field.name field.number⟩ }
  | addEnumValue (target : EnumRef) (name : String) (number : Int32) (type : EnumType)
      (htype : indexed.enum? target = some type) (hname : type.number? name = none) :
    Does indexed (.addEnumValue target name number)
      { indexed with
        enums := indexed.enums.set target.index
          { type with names := type.names.insert number name, numbers := type.numbers.insert name number } }
  | addMethod (target : ServiceRef) (name : String) (input output : MessageRef) (service : IndexedService)
      (hservice : indexed.service? target = some service) (hname : service.places.get? name = none) :
    Does indexed (.addMethod target name input output)
      { indexed with
        services := indexed.services.set target.index
          ⟨{ service.service with
              methods := service.service.methods ++ [⟨name, service.service.fullName ++ "." ++ name, input, output⟩] },
            service.places.insert name service.service.methods.length⟩ }

theorem claim_eq_ok {types next : Table String TypeRef} {name : String} {ref : TypeRef}
    (h : claim types name ref = .ok next) : types.get? name = none ∧ next = types.insert name ref := by
  unfold claim at h
  split at h
  · cases h
  · rename_i hnew
    cases h
    exact ⟨hnew, rfl⟩

theorem does_of_apply {indexed next : IndexedSchema} {step : BuildStep} {added : Added}
    (h : indexed.apply step = .ok (next, added)) : indexed.Does step next := by
  cases step with
  | insertMessage name =>
    simp only [apply, insertMessage] at h
    split at h
    · cases h
    · rename_i types hclaim
      obtain ⟨hnew, rfl⟩ := claim_eq_ok hclaim
      cases h
      exact .insertMessage name hnew
  | insertEnum name =>
    simp only [apply, insertEnum] at h
    split at h
    · cases h
    · rename_i types hclaim
      obtain ⟨hnew, rfl⟩ := claim_eq_ok hclaim
      cases h
      exact .insertEnum name hnew
  | insertService name =>
    simp only [apply, insertService] at h
    split at h
    · cases h
    · rename_i hnew
      cases h
      exact .insertService name hnew
  | addField target field =>
    simp only [apply, addField] at h
    split at h
    · cases h
    · rename_i hrefers
      split at h
      · cases h
      · rename_i message hmessage
        split at h
        · cases h
        · cases h
        · rename_i hnumber hname
          cases h
          exact .addField target field message (by simpa using hrefers) hmessage hnumber hname
  | addEnumValue target name number =>
    simp only [apply, addEnumValue] at h
    split at h
    · cases h
    · rename_i type htype
      split at h
      · cases h
      · rename_i hname
        cases h
        exact .addEnumValue target name number type htype hname
  | addMethod target name input output =>
    simp only [apply, addMethod] at h
    split at h
    · cases h
    · rename_i service places hservice
      split at h
      · cases h
      · rename_i hname
        cases h
        exact .addMethod target name input output ⟨service, places⟩ hservice hname

/-- A step is done, or it is refused and leaves no trace. -/
theorem does_or_after_eq (indexed : IndexedSchema) (step : BuildStep) :
    indexed.Does step (indexed.after step) ∨ indexed.after step = indexed := by
  unfold after
  split
  · rename_i happly
    exact .inl (does_of_apply happly)
  · exact .inr rfl

/-! ### Every step keeps the tables exact -/

theorem exact_empty : ({} : IndexedSchema).Exact where
  messages place message hmessage := by cases hmessage
  enums place type htype := by cases htype
  services place service hservice := by cases hservice
  types := Table.Inverts.nil fun ref => by cases ref <;> rfl
  servicePlaces := Table.Inverts.nil fun _ => rfl

theorem fits_of_refersWell {indexed : IndexedSchema} {field : FieldDescription} (h : indexed.refersWell field = true)
    (ref : TypeRef) (href : field.typeRef = some ref) :
    ref.Fits indexed.messages.length indexed.enums.length field.type := by
  unfold refersWell at h
  split at h
  · rename_i target htype htarget
    rw [htarget] at href
    cases href
    exact htype ▸ .message target (of_decide_eq_true h)
  · rename_i target htype htarget
    rw [htarget] at href
    cases href
    exact htype ▸ .group target (of_decide_eq_true h)
  · rename_i target htype htarget
    rw [htarget] at href
    cases href
    exact htype ▸ .enum target (of_decide_eq_true h)
  · rename_i hnone
    rw [hnone] at href
    cases href
  · cases h

theorem Exact.step {indexed next : IndexedSchema} {step : BuildStep} (hexact : indexed.Exact)
    (h : indexed.Does step next) : next.Exact := by
  cases h with
  | insertMessage name hnew =>
    refine { hexact with messages := ?_, types := ?_ }
    · refine forall_getElem?_concat (fun place message hmessage => ?_) (IndexedMessage.exact_empty ..)
      exact (hexact.messages place message hmessage).mono (by simp) (Nat.le_refl _)
    · refine hexact.types.insert hnew nameAt_length (nameAt_concat_length _) fun other hne => ?_
      cases other with
      | message ref => exact nameAt_concat_of_ne _ fun hindex => hne (by rw [← hindex])
      | enum => rfl
  | insertEnum name hnew =>
    refine { hexact with messages := ?_, enums := ?_, types := ?_ }
    · exact fun place message hmessage => (hexact.messages place message hmessage).mono (Nat.le_refl _) (by simp)
    · exact forall_getElem?_concat hexact.enums (EnumType.exact_empty ..)
    · refine hexact.types.insert hnew nameAt_length (nameAt_concat_length _) fun other hne => ?_
      cases other with
      | message => rfl
      | enum ref => exact nameAt_concat_of_ne _ fun hindex => hne (by rw [← hindex])
  | insertService name hnew =>
    refine { hexact with services := ?_, servicePlaces := ?_ }
    · exact forall_getElem?_concat hexact.services (IndexedService.exact_empty ..)
    · exact hexact.servicePlaces.insert hnew nameAt_length (nameAt_concat_length _) fun _ hne => nameAt_concat_of_ne _ hne
  | addField target field message hrefers hmessage hnumber hname =>
    refine { hexact with messages := ?_, types := ?_ }
    · rw [List.length_set]
      exact forall_getElem?_set hexact.messages
        ((hexact.messages _ _ hmessage).insert (fits_of_refersWell hrefers) hnumber hname)
    · -- The type keeps its full name, so its entry in the table of types is as good as before.
      refine hexact.types.congr fun ref => ?_
      cases ref with
      | message =>
        change nameAt _ _ _ = nameAt _ _ _
        exact nameAt_set hmessage (by rfl) _
      | enum => rfl
  | addEnumValue target name number type htype hname =>
    refine { hexact with messages := ?_, enums := ?_, types := ?_ }
    · rw [List.length_set]
      exact hexact.messages
    · exact forall_getElem?_set hexact.enums ((hexact.enums _ _ htype).insert hname)
    · refine hexact.types.congr fun ref => ?_
      cases ref with
      | message => rfl
      | enum => exact nameAt_set htype (by rfl) _
  | addMethod target name input output service hservice hname =>
    refine { hexact with services := ?_, servicePlaces := ?_ }
    · exact forall_getElem?_set hexact.services ((hexact.services _ _ hservice).insert hname input output)
    · exact hexact.servicePlaces.congr fun _ => nameAt_set hservice (by rfl) _

theorem Exact.after {indexed : IndexedSchema} (hexact : indexed.Exact) (step : BuildStep) :
    (indexed.after step).Exact := by
  rcases does_or_after_eq indexed step with hdoes | hsame
  · exact hexact.step hdoes
  · exact hsame.symm ▸ hexact

theorem exact_build (steps : List BuildStep) : (build steps).Exact :=
  List.foldlRecOn steps after exact_empty fun _ hexact step _ => hexact.after step

end IndexedSchema

end WireTree
