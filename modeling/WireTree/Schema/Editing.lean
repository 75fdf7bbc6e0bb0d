import WireTree.Schema.Indexed

/-!
# Schemas edited in place

An indexed schema can be built by editing one and the same schema: a step looks into its tables, and writes to one list or
table after the other. A step that is refused stops where it is, and what it wrote until then is not taken back. So each
step has to find out whether it is refused before its first write.
-/

namespace WireTree

/-- Edits an indexed schema in place. A refusal ends the edit and keeps what was written before. -/
abbrev Edit := ExceptT BuildError (StateM IndexedSchema)

namespace Edit

/-- How an edit of a schema ends, and the schema that it leaves. -/
def perform {α : Type} (edit : Edit α) (indexed : IndexedSchema) : Except BuildError α × IndexedSchema :=
  StateT.run (ExceptT.run edit) indexed

/-- What is there, or else the edit is refused. -/
def require {α : Type} : Option α → Edit α
  | some found => return found
  | none => throw .unknownTarget

/-! ### Single writes -/

def writeMessage (target : MessageRef) (change : IndexedMessage → IndexedMessage) : Edit Unit :=
  modify fun indexed => { indexed with messages := indexed.messages.modify target.index change }

def writeEnum (target : EnumRef) (change : EnumType → EnumType) : Edit Unit :=
  modify fun indexed => { indexed with enums := indexed.enums.modify target.index change }

def writeService (target : ServiceRef) (change : IndexedService → IndexedService) : Edit Unit :=
  modify fun indexed => { indexed with services := indexed.services.modify target.index change }

/-! ### Types -/

/-- Enters a name of a type, unless a type of either kind has it. -/
def claim (name : String) (ref : TypeRef) : Edit Unit := do
  if ((← get).types.get? name).isSome then throw (.typeExists name)
  modify fun indexed => { indexed with types := indexed.types.insert name ref }

def insertMessage (name : String) : Edit MessageRef := do
  let ref : MessageRef := ⟨(← get).messages.length⟩
  claim name (.message ref)
  modify fun indexed => { indexed with messages := indexed.messages ++ [⟨⟨name, ref, []⟩, []⟩] }
  return ref

def insertEnum (name : String) : Edit EnumRef := do
  let ref : EnumRef := ⟨(← get).enums.length⟩
  claim name (.enum ref)
  modify fun indexed => { indexed with enums := indexed.enums ++ [⟨name, ref, [], []⟩] }
  return ref

def insertService (name : String) : Edit ServiceRef := do
  let ref : ServiceRef := ⟨(← get).services.length⟩
  if ((← get).servicePlaces.get? name).isSome then throw (.typeExists name)
  modify fun indexed => { indexed with servicePlaces := indexed.servicePlaces.insert name ref.index }
  modify fun indexed => { indexed with services := indexed.services ++ [⟨⟨name, ref, []⟩, []⟩] }
  return ref

/-! ### Members -/

def addField (target : MessageRef) (field : FieldDescription) : Edit Unit := do
  if !(← get).refersWell field then throw .invalidTypeRef
  let message ← require ((← get).message? target)
  if (message.field? field.number).isSome then throw .numberConflict
  if (message.numbers.get? field.name).isSome then throw .nameConflict
  writeMessage target fun message =>
    { message with type := { message.type with fields := message.type.fields.insert field.number field } }
  writeMessage target fun message => { message with numbers := message.numbers.insert field.name field.number }

/-- A number may get several names; the first keeps standing for it. -/
def addEnumValue (target : EnumRef) (name : String) (number : Int32) : Edit Unit := do
  let type ← require ((← get).enum? target)
  if (type.numbers.get? name).isSome then throw .nameConflict
  writeEnum target fun type => { type with names := type.names.insert number name }
  writeEnum target fun type => { type with numbers := type.numbers.insert name number }

def addMethod (target : ServiceRef) (name : String) (input output : MessageRef) : Edit Unit := do
  let service ← require ((← get).service? target)
  if (service.places.get? name).isSome then throw .nameConflict
  writeService target fun service =>
    { service with places := service.places.insert name service.service.methods.length }
  writeService target fun service =>
    let method : Method := ⟨name, service.service.fullName ++ "." ++ name, input, output⟩
    { service with service := { service.service with methods := service.service.methods ++ [method] } }

/-! ### Steps -/

def apply : BuildStep → Edit Added
  | .insertMessage name => return .type (← insertMessage name).index
  | .insertEnum name => return .type (← insertEnum name).index
  | .insertService name => return .type (← insertService name).index
  | .addField target field => do
    addField target field
    return .member
  | .addEnumValue target name number => do
    addEnumValue target name number
    return .member
  | .addMethod target name input output => do
    addMethod target name input output
    return .member

/-- The schema that the steps leave, one after the other, beginning with nothing. -/
def build (steps : List BuildStep) : IndexedSchema :=
  steps.foldl (fun indexed step => ((apply step).perform indexed).2) {}

end Edit

end WireTree
