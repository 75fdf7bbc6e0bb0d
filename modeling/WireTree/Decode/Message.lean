import WireTree.Decode.Reading

/-!
# Decoding messages

A window is split into records, and each record is read on its own. Embedded messages are decoded by the same rule with
one level less to go, so decoding ends whatever the schema says. The framing of a message does not depend on its type.
-/

namespace WireTree

/-! ### One message -/

/-- The description that a type, if there is one, has for a number. -/
def describe (type : Option MessageType) (number : Nat) : Option FieldDescription :=
  type.bind (·.field? number)

/-- The field of a complete record. -/
def Record.decode (options : Options) (schema : Schema) (embed : Option Embed) (type : Option MessageType)
    (record : Record) : Field :=
  match describe type record.number with
  | some description =>
    record.field (some description.name) (record.described options schema embed description)
  | none => record.field none (record.undescribed options)

namespace Stop

/-- The field that a stop leaves behind. -/
def field? (type : Option MessageType) : Stop → Option Field
  | .garbage .. => none
  | .incomplete number wireType span content error =>
    let description := describe type number
    some ⟨number, wireType, span, description.map (·.name), (description.map (·.type)).getD .none,
      .incomplete content, [], [⟨span, error⟩]⟩

def garbage? : Stop → Option Bytes
  | .garbage _ content _ => some content
  | .incomplete .. => none

/-- What a stop says about the message as a whole. -/
def diagnostics : Stop → List Diagnostic
  | .garbage span _ error => [⟨span, error⟩]
  | .incomplete .. => []

end Stop

namespace Message

/-- The name of messages without type. -/
def unknownName : String := "unknown"

/-- Decodes the window that starts at `start` as a message, with `embed` for the messages in it. -/
def ofWindow (options : Options) (schema : Schema) (embed : Option Embed) (type : Option MessageType)
    (start : Nat) (window : Bytes) : Message :=
  let framing := Framing.ofWindow start window
  { name := (type.map (·.fullName)).getD unknownName
    span := .ofLength start window.length
    fields := framing.records.map (Record.decode options schema embed type) ++
      (framing.stop.bind (Stop.field? type)).toList
    garbage := framing.stop.bind Stop.garbage?
    diagnostics := (framing.stop.map Stop.diagnostics).getD [] }

/-! ### All levels -/

/-- Decodes a window, entering no more than `budget` levels of embedded messages. -/
def ofBudget (options : Options) (schema : Schema) :
    (budget : Nat) → Option MessageType → (start : Nat) → Bytes → Message
  | 0 => ofWindow options schema none
  | budget + 1 => ofWindow options schema (some fun type => ofBudget options schema budget (some type))

/-- Decodes `length` bytes of `data` from `offset` on. What lies behind the end of the data is left out, with a
diagnostic. -/
def decodeWindow (options : Options) (schema : Schema) (type : Option MessageType) (data : Bytes)
    (offset length : Nat) : Message :=
  let start := min offset data.length
  let window := (data.drop start).take length
  let message := ofBudget options schema options.maxDepth type start window
  if offset + length ≤ data.length then message
  else
    let missing : Diagnostic := ⟨message.span, .truncated start length window.length⟩
    { message with diagnostics := missing :: message.diagnostics }

def decode (options : Options) (schema : Schema) (type : Option MessageType) (data : Bytes) : Message :=
  decodeWindow options schema type data 0 data.length

/-- Decodes all of the data without schema. -/
def decodeSchemaless (options : Options) (data : Bytes) : Message := decode options {} none data

/-- Decodes all of the data as the message type of a name, or without type, and with a diagnostic, if there is none. -/
def decodeNamed (options : Options) (schema : Schema) (name : String) (data : Bytes) : Message :=
  match schema.messageNamed? name with
  | some type => decode options schema (some type) data
  | none =>
    let message := decodeSchemaless options data
    { message with diagnostics := ⟨message.span, .unresolvedMessage name⟩ :: message.diagnostics }

end Message

end WireTree
