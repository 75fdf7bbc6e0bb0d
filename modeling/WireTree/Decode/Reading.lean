import WireTree.Decode.Packed
import WireTree.Record

/-!
# Reading a record

A record becomes a field once its value is read: by the description of its number if the message type has one, else by
listing every type or by a guess. However it is read, the field keeps the number, wire type and span of the record.
-/

namespace WireTree

/-- What reading a record adds to it. -/
structure Reading where
  type : FieldType
  value : Value
  candidates : List Candidate
  diagnostics : List Diagnostic

namespace Reading

/-- A reading with nothing to complain about. -/
def ofScalar (type : FieldType) (value : Scalar) : Reading := ⟨type, .scalar value, [], []⟩

end Reading

namespace Record

def field (record : Record) (name : Option String) (reading : Reading) : Field :=
  ⟨record.number, record.wireType, record.span, name, reading.type, reading.value, reading.candidates,
    reading.diagnostics⟩

/-- Keeps the payload and says why it was not read. -/
def keep (record : Record) (type : FieldType) (error : DecodeError) : Reading :=
  ⟨type, .scalar (.raw record.payload), [], [⟨record.valueSpan, error⟩]⟩

end Record

/-! ### Without a description -/

/-- The one type to show a value as: text only on request, and numbers without sign in the smallest width that holds
them. -/
def guessType (options : Options) (wireType : WireType) (number : Option UInt64) : FieldType :=
  match wireType with
  | .lengthDelimited => if options.guessString then .string else .none
  | .startGroup | .endGroup => .none
  | .varint | .fixed64 | .fixed32 =>
    match number with
    | some value => if value.toNat < UInt32.size then .uint32 else .uint64
    | none => .none

/-- Every type that the payload of `length` bytes could have, with what it reads as. -/
def Payload.candidates (options : Options) (length : Nat) (payload : Payload) : List Candidate :=
  payload.wireType.candidates.map fun type => ⟨type, Scalar.read options none type length payload⟩

namespace Record

/-- Reads the record as the type guessed for it. Guessed numbers take the value whatever their wire type is. -/
def guessed (options : Options) (record : Record) : Reading :=
  let type := guessType options record.wireType record.payload.number?
  match type, record.payload.number? with
  | .uint32, some value => .ofScalar type (.uint32 value.toUInt32)
  | .uint64, some value => .ofScalar type (.uint64 value)
  | _, _ =>
    match Scalar.read options none type record.valueSpan.length record.payload with
    | .ok value => .ofScalar type value
    | .error error => record.keep type error

def undescribed (options : Options) (record : Record) : Reading :=
  if options.allCandidates then
    ⟨.none, .scalar (.raw record.payload), record.payload.candidates options record.valueSpan.length, []⟩
  else record.guessed options

end Record

/-! ### With a description -/

/-- A note for a number that the enum type does not define. -/
def enumNotes (enumType : Option EnumType) (span : Span) (value : Scalar) : List Diagnostic :=
  match enumType, value with
  | some type, .enum number none => [⟨span, .unresolvedEnumValue type.fullName number⟩]
  | _, _ => []

/-- Decodes the bytes of an embedded message of a type, given their first offset. -/
abbrev Embed := MessageType → (start : Nat) → Bytes → Message

namespace Record

/-- Reads the record as one value of the described type. -/
def asScalar (options : Options) (enumType : Option EnumType) (description : FieldDescription)
    (record : Record) : Reading :=
  match Scalar.read options enumType description.type record.valueSpan.length record.payload with
  | .ok value => ⟨description.type, .scalar value, [], enumNotes enumType record.valueSpan value⟩
  | .error error => record.keep description.type error

/-- Reads the content of the record as a row of elements. -/
def asPacked (options : Options) (enumType : Option EnumType) (description : FieldDescription)
    (record : Record) (content : Bytes) : Reading :=
  match Packed.read options enumType description.type record.valueSpan.start content with
  | .ok elements =>
    ⟨description.type, .packed elements, [],
      elements.flatMap fun element => enumNotes enumType element.span element.value⟩
  | .error error => record.keep description.type error

/-- Reads the content of the record as a message, unless its type is unknown or no further level may be entered. -/
def asMessage (options : Options) (embed : Option Embed) (messageType : Option MessageType)
    (description : FieldDescription) (record : Record) (content : Bytes) : Reading :=
  match messageType, embed with
  | none, _ => record.keep description.type (.unresolvedMessage description.name)
  | some _, none => record.keep description.type (.nestingLimit options.maxDepth)
  | some type, some embed => ⟨description.type, .message (embed type record.valueSpan.start content), [], []⟩

/-- Reads the record by its description. Repeated numbers may be packed even if the description does not say so. -/
def described (options : Options) (schema : Schema) (embed : Option Embed) (description : FieldDescription)
    (record : Record) : Reading :=
  let enumType := schema.enumOf? description
  match record.payload with
  | .bytes content =>
    if description.isRepeated && (description.isPacked || description.type.isPackable) then
      record.asPacked options enumType description content
    else if description.type = .message then
      record.asMessage options embed (schema.messageOf? description) description content
    else record.asScalar options enumType description
  | _ => record.asScalar options enumType description

end Record

end WireTree
