import WireTree.Schema.Path

/-!
# Building schemas

A schema is built step by step. A step that is refused leaves no trace: `Schema.apply` gives either the cause or the new
schema, in which every reference handed out before still stands for the same type.
-/

namespace WireTree

/-- Why a step is refused. -/
inductive BuildError where
  /-- A type of either kind, or a service, has the name. -/
  | typeExists (name : String)
  /-- The message type has a field of the number. -/
  | numberConflict
  /-- A member of the same type has the name. -/
  | nameConflict
  /-- The reference is of the wrong kind for the field type, or the schema has no such type. -/
  | invalidTypeRef
  /-- The type that is to get a member is not in the schema. -/
  | unknownTarget
deriving DecidableEq, Repr

def BuildError.message : BuildError → String
  | typeExists name => s!"Type '{name}' already exists"
  | numberConflict => "The number is taken"
  | nameConflict => "The name is taken"
  | invalidTypeRef => "The type reference does not fit"
  | unknownTarget => "The type is not in the schema"

/-- One addition to a schema. -/
inductive BuildStep where
  | insertMessage (name : String)
  | insertEnum (name : String)
  | insertService (name : String)
  | addField (target : MessageRef) (field : FieldDescription)
  | addEnumValue (target : EnumRef) (name : String) (number : Int32)
  | addMethod (target : ServiceRef) (name : String) (input output : MessageRef)
deriving DecidableEq, Repr

/-- What a step adds: a type, at a place of its list, or a member of a type. -/
inductive Added where
  | type (index : Nat)
  | member
deriving DecidableEq, Repr

namespace Schema

/-! ### Types -/

def insertMessage (schema : Schema) (name : String) : Except BuildError (Schema × MessageRef) :=
  match schema.typeNamed? name with
  | some _ => .error (.typeExists name)
  | none =>
    let ref : MessageRef := ⟨schema.messages.length⟩
    .ok ({ schema with messages := schema.messages ++ [⟨name, ref, []⟩] }, ref)

def insertEnum (schema : Schema) (name : String) : Except BuildError (Schema × EnumRef) :=
  match schema.typeNamed? name with
  | some _ => .error (.typeExists name)
  | none =>
    let ref : EnumRef := ⟨schema.enums.length⟩
    .ok ({ schema with enums := schema.enums ++ [⟨name, ref, [], []⟩] }, ref)

/-- The names of services are their own: a message type may have the same one. -/
def insertService (schema : Schema) (name : String) : Except BuildError (Schema × ServiceRef) :=
  match schema.serviceNamed? name with
  | some _ => .error (.typeExists name)
  | none =>
    let ref : ServiceRef := ⟨schema.services.length⟩
    .ok ({ schema with services := schema.services ++ [⟨name, ref, []⟩] }, ref)

/-! ### Members -/

/-- Whether the field refers to no type, or to one of the schema that its field type asks for. -/
def refersWell (schema : Schema) (field : FieldDescription) : Bool :=
  match field.type, field.typeRef with
  | _, none => true
  | .message, some (.message ref) | .group, some (.message ref) => (schema.message? ref).isSome
  | .enum, some (.enum ref) => (schema.enum? ref).isSome
  | _, _ => false

def addField (schema : Schema) (target : MessageRef) (field : FieldDescription) : Except BuildError Schema :=
  if !schema.refersWell field then .error .invalidTypeRef
  else
    match schema.message? target with
    | none => .error .unknownTarget
    | some type =>
      if (type.field? field.number).isSome then .error .numberConflict
      else if (type.fieldNamed? field.name).isSome then .error .nameConflict
      else
        let type := { type with fields := type.fields.insert field.number field }
        .ok { schema with messages := schema.messages.set target.index type }

/-- A number may get several names; the first keeps standing for it. -/
def addEnumValue (schema : Schema) (target : EnumRef) (name : String) (number : Int32) :
    Except BuildError Schema :=
  match schema.enum? target with
  | none => .error .unknownTarget
  | some type =>
    if (type.number? name).isSome then .error .nameConflict
    else
      let type := { type with names := type.names.insert number name, numbers := type.numbers.insert name number }
      .ok { schema with enums := schema.enums.set target.index type }

def addMethod (schema : Schema) (target : ServiceRef) (name : String) (input output : MessageRef) :
    Except BuildError Schema :=
  match schema.service? target with
  | none => .error .unknownTarget
  | some service =>
    if (service.methodNamed? name).isSome then .error .nameConflict
    else
      let method : Method := ⟨name, service.fullName ++ "." ++ name, input, output⟩
      let service := { service with methods := service.methods ++ [method] }
      .ok { schema with services := schema.services.set target.index service }

/-! ### Steps -/

def apply (schema : Schema) : BuildStep → Except BuildError (Schema × Added)
  | .insertMessage name => (schema.insertMessage name).map fun (schema, ref) => (schema, .type ref.index)
  | .insertEnum name => (schema.insertEnum name).map fun (schema, ref) => (schema, .type ref.index)
  | .insertService name => (schema.insertService name).map fun (schema, ref) => (schema, .type ref.index)
  | .addField target field => (schema.addField target field).map (·, .member)
  | .addEnumValue target name number => (schema.addEnumValue target name number).map (·, .member)
  | .addMethod target name input output => (schema.addMethod target name input output).map (·, .member)

/-- The schema after a step, which is the same one if the step is refused. -/
def after (schema : Schema) (step : BuildStep) : Schema :=
  match schema.apply step with
  | .ok (next, _) => next
  | .error _ => schema

/-- The schema that the steps build from nothing, leaving out those that are refused. -/
def build (steps : List BuildStep) : Schema := steps.foldl after {}

end Schema

end WireTree
