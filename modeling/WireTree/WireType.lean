/-!
# Wire types and field types

The low three bits of a tag name one of six wire types, which say how many bytes a value takes. A field type says what
a value means; each but `none` is written with one wire type, and a wire type lists the field types its values could
have.
-/

namespace WireTree

inductive WireType where
  | varint
  | fixed64
  | lengthDelimited
  | startGroup
  | endGroup
  | fixed32
deriving DecidableEq, Repr

inductive FieldType where
  | int32 | int64 | uint32 | uint64 | sint32 | sint64 | bool | enum
  | fixed64 | sfixed64 | double
  | fixed32 | sfixed32 | float
  | string | bytes | message
  | group
  | none
deriving DecidableEq, Repr

/-! ### Wire types -/

namespace WireType

/-- The number a tag holds for the wire type. -/
def raw : WireType → Nat
  | varint => 0
  | fixed64 => 1
  | lengthDelimited => 2
  | startGroup => 3
  | endGroup => 4
  | fixed32 => 5

/-- The numbers 6, 7 and above name no wire type. -/
def ofRaw? : Nat → Option WireType
  | 0 => some varint
  | 1 => some fixed64
  | 2 => some lengthDelimited
  | 3 => some startGroup
  | 4 => some endGroup
  | 5 => some fixed32
  | _ => Option.none

def name : WireType → String
  | varint => "varint"
  | fixed64 => "64-bit"
  | lengthDelimited => "length-delimited"
  | startGroup => "start group (deprecated)"
  | endGroup => "end group (deprecated)"
  | fixed32 => "32-bit"

/-- The field types a value of the wire type could have, the likeliest first. -/
def candidates : WireType → List FieldType
  | varint => [.int32, .int64, .uint32, .uint64, .sint32, .sint64, .bool, .enum]
  | fixed64 => [.fixed64, .sfixed64, .double]
  | lengthDelimited => [.string, .bytes, .message, .group]
  | fixed32 => [.fixed32, .sfixed32, .float]
  | startGroup | endGroup => []

end WireType

/-! ### Field types -/

namespace FieldType

/-- The wire type that single values of the field type are written with. -/
def wireType? : FieldType → Option WireType
  | int32 | int64 | uint32 | uint64 | sint32 | sint64 | bool | enum => some .varint
  | fixed64 | sfixed64 | double => some .fixed64
  | fixed32 | sfixed32 | float => some .fixed32
  | string | bytes | message => some .lengthDelimited
  | group => some .startGroup
  | none => Option.none

/-- Whether many values may be written back to back in one length-delimited value. -/
def isPackable (type : FieldType) : Bool :=
  match type.wireType? with
  | some .varint | some .fixed64 | some .fixed32 => true
  | _ => false

def name : FieldType → String
  | int32 => "int32"
  | int64 => "int64"
  | uint32 => "uint32"
  | uint64 => "uint64"
  | sint32 => "sint32"
  | sint64 => "sint64"
  | bool => "bool"
  | enum => "enum"
  | fixed64 => "fixed64"
  | sfixed64 => "sfixed64"
  | double => "double"
  | fixed32 => "fixed32"
  | sfixed32 => "sfixed32"
  | float => "float"
  | string => "string"
  | bytes => "bytes"
  | message => "message"
  | group => "group"
  | none => "none"

end FieldType

end WireTree
