import WireTree.Number.Binary
import WireTree.Number.Zigzag
import WireTree.Options
import WireTree.Payload
import WireTree.Schema.Basic
import WireTree.Text.Quoted
import WireTree.Text.Utf8

/-!
# Scalar values

A payload read as a field type is a scalar. Floating-point values are kept as their bit patterns. A payload that no type
is asked for stays raw, and what a raw payload holds is never changed.
-/

namespace WireTree

inductive Scalar where
  | double (bits : UInt64)
  | float (bits : UInt32)
  | int32 (value : Int32)
  | int64 (value : Int64)
  | uint32 (value : UInt32)
  | uint64 (value : UInt64)
  | sint32 (value : Int32)
  | sint64 (value : Int64)
  | fixed32 (value : UInt32)
  | fixed64 (value : UInt64)
  | sfixed32 (value : Int32)
  | sfixed64 (value : Int64)
  | bool (value : Bool)
  | string (text : String)
  | bytes (content : Bytes)
  /-- A number of an enum type, and the name that stands for it if there is one. -/
  | enum (number : Int32) (name : Option String)
  /-- A payload that was not read as any type. -/
  | raw (payload : Payload)
deriving DecidableEq, Repr

/-! ### Reading -/

namespace Scalar

/-- Reads a payload of the wire type that the field type is written with. -/
def convert (options : Options) (enumType : Option EnumType) (length : Nat) :
    FieldType → Payload → Except DecodeError Scalar
  | .int32, .varint value => .ok (.int32 value.toUInt32.toInt32)
  | .int64, .varint value => .ok (.int64 value.toInt64)
  | .uint32, .varint value => .ok (.uint32 value.toUInt32)
  | .uint64, .varint value => .ok (.uint64 value)
  | .sint32, .varint value => .ok (.sint32 (Zigzag.decode32 value.toUInt32))
  | .sint64, .varint value => .ok (.sint64 (Zigzag.decode64 value))
  | .bool, .varint value => if length = 1 then .ok (.bool (value != 0)) else .error (.boolLength length)
  | .enum, .varint value =>
    let number := value.toUInt32.toInt32
    .ok (.enum number (enumType.bind (·.name? number)))
  | .fixed64, .fixed64 value => .ok (.fixed64 value)
  | .sfixed64, .fixed64 value => .ok (.sfixed64 value.toInt64)
  | .double, .fixed64 value => .ok (.double value)
  | .fixed32, .fixed32 value => .ok (.fixed32 value)
  | .sfixed32, .fixed32 value => .ok (.sfixed32 value.toInt32)
  | .float, .fixed32 value => .ok (.float value)
  | .string, .bytes content => .ok (.string (Utf8.lossyText content))
  | .bytes, .bytes content =>
    .ok (if options.bytesAsString then .string (Utf8.lossyText content) else .bytes content)
  | .message, .bytes _ => .error (.unresolvedMessage "<unknown>")
  | _, payload => .ok (.raw payload)

/-- Reads a payload that took `length` bytes as a field type. Groups are never read, and a message needs a type. -/
def read (options : Options) (enumType : Option EnumType) (type : FieldType) (length : Nat)
    (payload : Payload) : Except DecodeError Scalar :=
  match type, type.wireType? with
  | .group, _ => .error (.unsupportedWireType WireType.startGroup.raw)
  | _, none => .ok (.raw payload)
  | type, some expected =>
    if expected = payload.wireType then convert options enumType length type payload
    else .error (.wireTypeMismatch expected payload.wireType)

end Scalar

/-! ### Text -/

namespace Payload

/-- Varints are shown in decimal, all else in hex. -/
def text : Payload → String
  | varint value => toString value.toNat
  | fixed64 value => "0x" ++ Hex.padded 16 value.toNat
  | fixed32 value => "0x" ++ Hex.padded 8 value.toNat
  | bytes content => Hex.encode content

end Payload

namespace Scalar

def text : Scalar → String
  | double bits => FloatFormat.double.text bits.toNat
  | float bits => FloatFormat.single.text bits.toNat
  | int32 value | sint32 value | sfixed32 value => toString value.toInt
  | int64 value | sint64 value | sfixed64 value => toString value.toInt
  | uint32 value | fixed32 value => toString value.toNat
  | uint64 value | fixed64 value => toString value.toNat
  | bool value => if value then "true" else "false"
  | string text => Quoted.encode text
  | bytes content => Hex.encode content
  | enum number (some name) => s!"{name}({number.toInt})"
  | enum number none => toString number.toInt
  | raw payload => payload.text

end Scalar

end WireTree
