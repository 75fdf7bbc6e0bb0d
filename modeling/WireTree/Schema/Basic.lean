import WireTree.Table
import WireTree.WireType

/-!
# Schemas

A schema holds message types, enum types and services in the order they were added. A reference is the place of a type
in its list, and each type knows its own. Types are looked up by reference, by full name, and methods by a path.
-/

namespace WireTree

/-! ### References -/

/-- The place of a message type in a schema. -/
structure MessageRef where
  index : Nat
deriving DecidableEq, Repr

/-- The place of an enum type in a schema. -/
structure EnumRef where
  index : Nat
deriving DecidableEq, Repr

/-- The place of a service in a schema. -/
structure ServiceRef where
  index : Nat
deriving DecidableEq, Repr

/-- The type that a field refers to. -/
inductive TypeRef where
  | message (ref : MessageRef)
  | enum (ref : EnumRef)
deriving DecidableEq, Repr

/-! ### Types -/

/-- How many values a field holds, and whether they are packed into one. -/
inductive Multiplicity where
  | single
  | repeated
  | packed
deriving DecidableEq, Repr

/-- What a message type says about the field of one number. -/
structure FieldDescription where
  name : String
  number : Nat
  type : FieldType
  multiplicity : Multiplicity
  typeRef : Option TypeRef
deriving DecidableEq, Repr

def FieldDescription.isRepeated (field : FieldDescription) : Bool := field.multiplicity != .single

def FieldDescription.isPacked (field : FieldDescription) : Bool := field.multiplicity == .packed

structure MessageType where
  fullName : String
  ref : MessageRef
  fields : Table Nat FieldDescription
deriving DecidableEq, Repr

namespace MessageType

def field? (type : MessageType) (number : Nat) : Option FieldDescription := type.fields.get? number

def fieldNamed? (type : MessageType) (name : String) : Option FieldDescription :=
  type.fields.values.find? (·.name == name)

end MessageType

/-- Several names may share a number; the one added first stands for it. -/
structure EnumType where
  fullName : String
  ref : EnumRef
  names : Table Int32 String
  numbers : Table String Int32
deriving DecidableEq, Repr

namespace EnumType

/-- The name that stands for a number. -/
def name? (type : EnumType) (number : Int32) : Option String := type.names.get? number

def number? (type : EnumType) (name : String) : Option Int32 := type.numbers.get? name

end EnumType

structure Method where
  name : String
  fullName : String
  input : MessageRef
  output : MessageRef
deriving DecidableEq, Repr

structure Service where
  fullName : String
  ref : ServiceRef
  methods : List Method
deriving DecidableEq, Repr

structure Schema where
  messages : List MessageType := []
  enums : List EnumType := []
  services : List Service := []
deriving DecidableEq, Repr, Inhabited

/-! ### Looking up -/

namespace Schema

def message? (schema : Schema) (ref : MessageRef) : Option MessageType := schema.messages[ref.index]?

def enum? (schema : Schema) (ref : EnumRef) : Option EnumType := schema.enums[ref.index]?

def service? (schema : Schema) (ref : ServiceRef) : Option Service := schema.services[ref.index]?

def messageNamed? (schema : Schema) (name : String) : Option MessageType :=
  schema.messages.find? (·.fullName == name)

def enumNamed? (schema : Schema) (name : String) : Option EnumType :=
  schema.enums.find? (·.fullName == name)

def serviceNamed? (schema : Schema) (name : String) : Option Service :=
  schema.services.find? (·.fullName == name)

/-- The type of either kind with a full name. -/
def typeNamed? (schema : Schema) (name : String) : Option TypeRef :=
  match schema.messageNamed? name with
  | some type => some (.message type.ref)
  | none => (schema.enumNamed? name).map (.enum ·.ref)

/-- The message type that a field refers to. -/
def messageOf? (schema : Schema) (field : FieldDescription) : Option MessageType :=
  match field.typeRef with
  | some (.message ref) => schema.message? ref
  | _ => none

theorem mem_of_messageOf? {schema : Schema} {field : FieldDescription} {type : MessageType}
    (h : schema.messageOf? field = some type) : type ∈ schema.messages := by
  unfold messageOf? at h
  split at h
  · exact List.mem_of_getElem? h
  · cases h

/-- The enum type that a field refers to. -/
def enumOf? (schema : Schema) (field : FieldDescription) : Option EnumType :=
  match field.typeRef with
  | some (.enum ref) => schema.enum? ref
  | _ => none

theorem mem_of_enumOf? {schema : Schema} {field : FieldDescription} {type : EnumType}
    (h : schema.enumOf? field = some type) : type ∈ schema.enums := by
  unfold enumOf? at h
  split at h
  · exact List.mem_of_getElem? h
  · cases h

end Schema

end WireTree
