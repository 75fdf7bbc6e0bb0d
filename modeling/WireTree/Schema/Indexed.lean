import WireTree.Schema.Build

/-!
# Schemas with tables of names

An indexed schema keeps, beside its types, the tables by which names are found: one for the types of both kinds, one for
the services, one for the fields of each message type and one for the methods of each service. A step looks into the tables
only, and enters what it adds, so every step has to keep lists and tables together. What an indexed schema is without its
tables is `IndexedSchema.schema`.
-/

namespace WireTree

/-- A message type, and the numbers of its fields by their names. -/
structure IndexedMessage where
  type : MessageType
  numbers : Table String Nat
deriving DecidableEq, Repr

/-- A service, and the places of its methods by their names. -/
structure IndexedService where
  service : Service
  places : Table String Nat
deriving DecidableEq, Repr

structure IndexedSchema where
  messages : List IndexedMessage := []
  enums : List EnumType := []
  services : List IndexedService := []
  /-- The types of both kinds by their full names. -/
  types : Table String TypeRef := []
  /-- The places of the services by their full names. -/
  servicePlaces : Table String Nat := []
deriving DecidableEq, Repr, Inhabited

/-! ### Looking up -/

namespace IndexedMessage

/-- The fields, in the order of their numbers. -/
def fields (message : IndexedMessage) : List FieldDescription := message.type.fields.values

def field? (message : IndexedMessage) (number : Nat) : Option FieldDescription := message.type.field? number

def fieldNamed? (message : IndexedMessage) (name : String) : Option FieldDescription :=
  (message.numbers.get? name).bind message.field?

end IndexedMessage

def IndexedService.methodNamed? (service : IndexedService) (name : String) : Option Method :=
  (service.places.get? name).bind (service.service.methods[·]?)

namespace IndexedSchema

def message? (indexed : IndexedSchema) (ref : MessageRef) : Option IndexedMessage := indexed.messages[ref.index]?

def enum? (indexed : IndexedSchema) (ref : EnumRef) : Option EnumType := indexed.enums[ref.index]?

def service? (indexed : IndexedSchema) (ref : ServiceRef) : Option IndexedService := indexed.services[ref.index]?

def messageNamed? (indexed : IndexedSchema) (name : String) : Option IndexedMessage :=
  match indexed.types.get? name with
  | some (.message ref) => indexed.message? ref
  | _ => none

def enumNamed? (indexed : IndexedSchema) (name : String) : Option EnumType :=
  match indexed.types.get? name with
  | some (.enum ref) => indexed.enum? ref
  | _ => none

def serviceNamed? (indexed : IndexedSchema) (name : String) : Option IndexedService :=
  (indexed.servicePlaces.get? name).bind (indexed.services[·]?)

/-- The method of a path, with its service. -/
def methodAt? (indexed : IndexedSchema) (path : String) : Option (IndexedService × Method) := do
  let (front, last) ← MethodPath.split? (MethodPath.normalize path.toList)
  let service ← indexed.serviceNamed? (String.ofList front)
  let method ← service.methodNamed? (String.ofList last)
  return (service, method)

/-- The schema without its tables of names. -/
def schema (indexed : IndexedSchema) : Schema :=
  ⟨indexed.messages.map (·.type), indexed.enums, indexed.services.map (·.service)⟩

/-! ### Types -/

/-- Enters a name of a type, unless a type of either kind has it. -/
def claim (types : Table String TypeRef) (name : String) (ref : TypeRef) :
    Except BuildError (Table String TypeRef) :=
  match types.get? name with
  | some _ => .error (.typeExists name)
  | none => .ok (types.insert name ref)

def insertMessage (indexed : IndexedSchema) (name : String) : Except BuildError (IndexedSchema × MessageRef) :=
  let ref : MessageRef := ⟨indexed.messages.length⟩
  match claim indexed.types name (.message ref) with
  | .error error => .error error
  | .ok types => .ok ({ indexed with types, messages := indexed.messages ++ [⟨⟨name, ref, []⟩, []⟩] }, ref)

def insertEnum (indexed : IndexedSchema) (name : String) : Except BuildError (IndexedSchema × EnumRef) :=
  let ref : EnumRef := ⟨indexed.enums.length⟩
  match claim indexed.types name (.enum ref) with
  | .error error => .error error
  | .ok types => .ok ({ indexed with types, enums := indexed.enums ++ [⟨name, ref, [], []⟩] }, ref)

def insertService (indexed : IndexedSchema) (name : String) : Except BuildError (IndexedSchema × ServiceRef) :=
  let ref : ServiceRef := ⟨indexed.services.length⟩
  match indexed.servicePlaces.get? name with
  | some _ => .error (.typeExists name)
  | none =>
    .ok ({ indexed with
      servicePlaces := indexed.servicePlaces.insert name ref.index
      services := indexed.services ++ [⟨⟨name, ref, []⟩, []⟩] }, ref)

/-! ### Members -/

/-- Whether the field refers to no type, or to one in range that its field type asks for. -/
def refersWell (indexed : IndexedSchema) (field : FieldDescription) : Bool :=
  match field.type, field.typeRef with
  | .message, some (.message ref) | .group, some (.message ref) => decide (ref.index < indexed.messages.length)
  | .enum, some (.enum ref) => decide (ref.index < indexed.enums.length)
  | _, none => true
  | _, _ => false

def addField (indexed : IndexedSchema) (target : MessageRef) (field : FieldDescription) :
    Except BuildError IndexedSchema :=
  if !indexed.refersWell field then .error .invalidTypeRef
  else
    match indexed.message? target with
    | none => .error .unknownTarget
    | some message =>
      match message.field? field.number, message.numbers.get? field.name with
      | some _, _ => .error .numberConflict
      | none, some _ => .error .nameConflict
      | none, none =>
        let type := { message.type with fields := message.type.fields.insert field.number field }
        let message : IndexedMessage := ⟨type, message.numbers.insert field.name field.number⟩
        .ok { indexed with messages := indexed.messages.set target.index message }

/-- A number may get several names; the first keeps standing for it. -/
def addEnumValue (indexed : IndexedSchema) (target : EnumRef) (name : String) (number : Int32) :
    Except BuildError IndexedSchema :=
  match indexed.enum? target with
  | none => .error .unknownTarget
  | some type =>
    match type.numbers.get? name with
    | some _ => .error .nameConflict
    | none =>
      let type := { type with names := type.names.insert number name, numbers := type.numbers.insert name number }
      .ok { indexed with enums := indexed.enums.set target.index type }

def addMethod (indexed : IndexedSchema) (target : ServiceRef) (name : String) (input output : MessageRef) :
    Except BuildError IndexedSchema :=
  match indexed.service? target with
  | none => .error .unknownTarget
  | some ⟨service, places⟩ =>
    match places.get? name with
    | some _ => .error .nameConflict
    | none =>
      let places := places.insert name service.methods.length
      let method : Method := ⟨name, service.fullName ++ "." ++ name, input, output⟩
      let service := { service with methods := service.methods ++ [method] }
      .ok { indexed with services := indexed.services.set target.index ⟨service, places⟩ }

/-! ### Steps -/

def apply (indexed : IndexedSchema) : BuildStep → Except BuildError (IndexedSchema × Added)
  | .insertMessage name => (indexed.insertMessage name).map fun (indexed, ref) => (indexed, .type ref.index)
  | .insertEnum name => (indexed.insertEnum name).map fun (indexed, ref) => (indexed, .type ref.index)
  | .insertService name => (indexed.insertService name).map fun (indexed, ref) => (indexed, .type ref.index)
  | .addField target field => (indexed.addField target field).map (·, .member)
  | .addEnumValue target name number => (indexed.addEnumValue target name number).map (·, .member)
  | .addMethod target name input output => (indexed.addMethod target name input output).map (·, .member)

/-- The schema after a step, which is the same one if the step is refused. -/
def after (indexed : IndexedSchema) (step : BuildStep) : IndexedSchema :=
  match indexed.apply step with
  | .ok (next, _) => next
  | .error _ => indexed

/-- The schema that the steps build from nothing, leaving out those that are refused. -/
def build (steps : List BuildStep) : IndexedSchema := steps.foldl after {}

end IndexedSchema

end WireTree
