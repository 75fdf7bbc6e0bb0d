import WireTree.Proofs.Entries

/-!
# Schemas with the same entries

Two exact schemas with the same entries, in which the same names stand for the numbers of enum types, are equal, with
their tables.
-/

namespace WireTree

theorem Table.Inverts.eq {ι : Type} {table table' : Table String ι} {name name' : ι → Option String}
    (h : table.Inverts name) (h' : table'.Inverts name') (hname : ∀ place, name place = name' place) : table = table' :=
  ext_of_ascending h.ascending h'.ascending fun key => Option.ext fun place => by
    rw [h.get?_iff, h'.get?_iff, hname]

theorem IndexedMessage.Exact.eq {messages enums messages' enums' place : Nat} {message message' : IndexedMessage}
    (h : message.Exact messages enums place) (h' : message'.Exact messages' enums' place)
    (hname : message.type.fullName = message'.type.fullName)
    (hfield : ∀ number, message.field? number = message'.field? number) : message = message' := by
  have hnumbers := h.numbers.eq h'.numbers fun number => by rw [hfield]
  have hfields : message.type.fields = message'.type.fields := Table.ext_of_ascending h.ascending h'.ascending hfield
  have href := h.ref.trans h'.ref.symm
  obtain ⟨⟨fullName, ref, fields⟩, numbers⟩ := message
  obtain ⟨⟨fullName', ref', fields'⟩, numbers'⟩ := message'
  cases hname
  cases href
  cases hfields
  cases hnumbers
  rfl

theorem EnumType.Exact.eq {place : Nat} {type type' : EnumType} (h : type.Exact place) (h' : type'.Exact place)
    (hfullName : type.fullName = type'.fullName) (hname : ∀ number, type.name? number = type'.name? number)
    (hnumber : ∀ name, type.number? name = type'.number? name) : type = type' := by
  have hnames : type.names = type'.names := Table.ext_of_ascending h.ascendingNames h'.ascendingNames hname
  have hnumbers : type.numbers = type'.numbers := Table.ext_of_ascending h.ascendingNumbers h'.ascendingNumbers hnumber
  have href := h.ref.trans h'.ref.symm
  obtain ⟨fullName, ref, names, numbers⟩ := type
  obtain ⟨fullName', ref', names', numbers'⟩ := type'
  cases hfullName
  cases href
  cases hnames
  cases hnumbers
  rfl

theorem IndexedService.Exact.eq {place : Nat} {service service' : IndexedService} (h : service.Exact place)
    (h' : service'.Exact place) (hname : service.service.fullName = service'.service.fullName)
    (hmethods : service.service.methods = service'.service.methods) : service = service' := by
  have hplaces := h.places.eq h'.places fun place => by rw [hmethods]
  have href := h.ref.trans h'.ref.symm
  obtain ⟨⟨fullName, ref, methods⟩, places⟩ := service
  obtain ⟨⟨fullName', ref', methods'⟩, places'⟩ := service'
  cases hname
  cases href
  cases hmethods
  cases hplaces
  rfl

namespace IndexedSchema

/-- The same stands in both, and the same names stand for numbers. -/
structure Alike (indexed indexed' : IndexedSchema) : Prop where
  has_iff : ∀ entry, indexed.Has entry ↔ indexed'.Has entry
  nameOf? : ∀ owner number, indexed.nameOf? owner number = indexed'.nameOf? owner number

section Alike

variable {indexed indexed' : IndexedSchema}

theorem Alike.symm (h : indexed.Alike indexed') : indexed'.Alike indexed :=
  ⟨fun entry => (h.has_iff entry).symm, fun owner number => (h.nameOf? owner number).symm⟩

theorem Alike.message? (h : indexed.Alike indexed') (hexact : indexed.Exact) (hexact' : indexed'.Exact)
    (ref : MessageRef) {message : IndexedMessage} (hmessage : indexed.message? ref = some message) :
    indexed'.message? ref = some message := by
  have hat := hexact.messages _ _ hmessage
  obtain ⟨message', hmessage', -, hname⟩ :=
    (h.has_iff (.message ref message.type.fullName)).1 ⟨message, hmessage, hat.ref, rfl⟩
  rw [hmessage', Option.some.injEq]
  refine (hexact'.messages _ _ hmessage').eq hat hname fun number => Option.ext fun field => ?_
  rw [hexact'.field?_eq_some_iff hmessage', hexact.field?_eq_some_iff hmessage, h.has_iff]

theorem Alike.enum? (h : indexed.Alike indexed') (hexact : indexed.Exact) (hexact' : indexed'.Exact)
    (ref : EnumRef) {type : EnumType} (htype : indexed.enum? ref = some type) : indexed'.enum? ref = some type := by
  have hat := hexact.enums _ _ htype
  obtain ⟨type', htype', -, hname⟩ := (h.has_iff (.enum ref type.fullName)).1 ⟨type, htype, hat.ref, rfl⟩
  rw [htype', Option.some.injEq]
  refine (hexact'.enums _ _ htype').eq hat hname (fun number => ?_) fun name => Option.ext fun number => ?_
  · have hnameOf := h.nameOf? ref number
    rw [IndexedSchema.nameOf?, IndexedSchema.nameOf?, htype, htype'] at hnameOf
    exact hnameOf.symm
  · rw [number?_eq_some_iff htype', number?_eq_some_iff htype, h.has_iff]

theorem Alike.service? (h : indexed.Alike indexed') (hexact : indexed.Exact) (hexact' : indexed'.Exact)
    (ref : ServiceRef) {service : IndexedService} (hservice : indexed.service? ref = some service) :
    indexed'.service? ref = some service := by
  have hat := hexact.services _ _ hservice
  obtain ⟨service', hservice', -, hname⟩ :=
    (h.has_iff (.service ref service.service.fullName)).1 ⟨service, hservice, hat.ref, rfl⟩
  rw [hservice', Option.some.injEq]
  refine (hexact'.services _ _ hservice').eq hat hname ?_
  refine List.ext_getElem? fun place => Option.ext fun method => ?_
  rw [hexact'.methods_eq_some_iff hservice', hexact.methods_eq_some_iff hservice, h.has_iff, hname]

/-- Exact schemas in which the same stands are equal, tables and all. -/
theorem Alike.eq (h : indexed.Alike indexed') (hexact : indexed.Exact) (hexact' : indexed'.Exact) :
    indexed = indexed' := by
  have hmessages : indexed.messages = indexed'.messages :=
    List.ext_getElem? fun place => Option.ext fun _ =>
      ⟨h.message? hexact hexact' ⟨place⟩, h.symm.message? hexact' hexact ⟨place⟩⟩
  have henums : indexed.enums = indexed'.enums :=
    List.ext_getElem? fun place => Option.ext fun _ =>
      ⟨h.enum? hexact hexact' ⟨place⟩, h.symm.enum? hexact' hexact ⟨place⟩⟩
  have hservices : indexed.services = indexed'.services :=
    List.ext_getElem? fun place => Option.ext fun _ =>
      ⟨h.service? hexact hexact' ⟨place⟩, h.symm.service? hexact' hexact ⟨place⟩⟩
  have htypes := hexact.types.eq hexact'.types fun ref => by
    cases ref with
    | message ref => rw [typeName?, typeName?, hmessages]
    | enum ref => rw [typeName?, typeName?, henums]
  have hplaces := hexact.servicePlaces.eq hexact'.servicePlaces fun place => by rw [hservices]
  obtain ⟨messages, enums, services, types, servicePlaces⟩ := indexed
  obtain ⟨messages', enums', services', types', servicePlaces'⟩ := indexed'
  cases hmessages
  cases henums
  cases hservices
  cases htypes
  cases hplaces
  rfl

end Alike

end IndexedSchema

end WireTree
