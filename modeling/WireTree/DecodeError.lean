import WireTree.Span
import WireTree.WireType

/-!
# What can be wrong with the bytes

Decoding never fails as a whole: each problem becomes a diagnostic, which ties one cause to the bytes it is about. The
wording of every cause is in `DecodeError.message`, and only three causes are no fault of the bytes themselves.
-/

namespace WireTree

mutual

inductive DecodeError where
  /-- No varint starts where a tag is due. -/
  | malformedTag (offset : Nat)
  /-- No varint starts where the length of a value is due. -/
  | malformedLength (offset : Nat)
  /-- A value starts at `offset` and would take `needed` bytes, but `available` are left. -/
  | truncated (offset needed available : Nat)
  /-- The varint at `offset` does not end within ten bytes. -/
  | overlongVarint (offset : Nat)
  /-- Groups are not decoded, and the raw wire types 6 and 7 mean nothing. -/
  | unsupportedWireType (raw : Nat)
  /-- A boolean takes one byte. -/
  | boolLength (length : Nat)
  /-- Only numbers can be packed. -/
  | notPackable (type : FieldType)
  /-- The bytes of a packed value are not a row of elements of the type. -/
  | packed (type : FieldType) (fault : PackedFault)
  /-- No message type is known for the field or name. -/
  | unresolvedMessage (name : String)
  /-- The enum type defines no such number. -/
  | unresolvedEnumValue (enumName : String) (number : Int32)
  /-- The declared type is written with another wire type. -/
  | wireTypeMismatch (expected actual : WireType)
  /-- Messages nest deeper than allowed. -/
  | nestingLimit (limit : Nat)

inductive PackedFault where
  /-- The value ends inside the varint at `offset`. -/
  | varintCut (offset : Nat)
  /-- The varint at `offset` does not end within ten bytes. -/
  | varintOverlong (offset : Nat)
  /-- The `length` bytes do not split into elements of `width` bytes. -/
  | width (length width : Nat)
  /-- One element is no value of the type. -/
  | element (span : Span) (cause : DecodeError)

end

deriving instance DecidableEq for DecodeError, PackedFault
deriving instance Repr for DecodeError, PackedFault

/-! ### Wording -/

mutual

def DecodeError.message : DecodeError → String
  | .malformedTag offset => s!"Failed to parse tag at offset {offset}"
  | .malformedLength offset => s!"Failed to parse length prefix at offset {offset}"
  | .truncated offset needed available =>
    s!"Value at offset {offset} needs {needed} bytes but only {available} are available"
  | .overlongVarint offset => s!"Varint at offset {offset} is longer than 10 bytes"
  | .unsupportedWireType raw => s!"Unsupported wire type {raw}"
  | .boolLength length => s!"Boolean value uses {length} bytes"
  | .notPackable type => s!"Field type {type.name} does not support packed repeated encoding"
  | .packed type fault => s!"Failed to parse packed repeated {type.name} field: {fault.detail}"
  | .unresolvedMessage name => s!"Message type of '{name}' could not be resolved"
  | .unresolvedEnumValue enumName number => s!"Enum '{enumName}' has no value {number.toInt}"
  | .wireTypeMismatch expected actual =>
    s!"Expected wire type {expected.name} but found {actual.name}"
  | .nestingLimit limit => s!"Message nesting exceeds the depth limit of {limit}"

def PackedFault.detail : PackedFault → String
  | .varintCut offset => s!"varint at offset {offset} overruns the value"
  | .varintOverlong offset => s!"varint at offset {offset} is too long"
  | .width length width => s!"length {length} is not a multiple of {width}"
  | .element span cause => s!"element at {span.text}: {cause.message}"

end

/-! ### Severity -/

/-- Whether a problem leaves the bytes well formed. -/
inductive Severity where
  | info
  | error
deriving DecidableEq, Repr

def Severity.name : Severity → String
  | info => "info"
  | error => "error"

/-- What the schema does not cover is worth a note; all else is wrong with the bytes. -/
def DecodeError.severity : DecodeError → Severity
  | .unresolvedMessage .. | .unresolvedEnumValue .. | .wireTypeMismatch .. => .info
  | _ => .error

/-! ### Diagnostics -/

/-- A problem, and the bytes it is about. -/
structure Diagnostic where
  span : Span
  error : DecodeError
deriving DecidableEq, Repr

namespace Diagnostic

def severity (diagnostic : Diagnostic) : Severity := diagnostic.error.severity

def text (diagnostic : Diagnostic) : String :=
  s!"[{diagnostic.severity.name}] {diagnostic.error.message} ({diagnostic.span.text})"

end Diagnostic

end WireTree
