import WireTree.Scalar

/-!
# Decoded trees

A message is a list of fields in the order of their bytes, and a field may hold a message. Every message, field and
packed element knows its bytes by a span of the whole buffer, and carries what was found wrong with them. A message is
complete if nothing in it, at any depth, is an error.
-/

namespace WireTree

/-- One value of a packed field. -/
structure Element where
  span : Span
  value : Scalar
deriving DecidableEq, Repr

/-- One way to read a value without schema, or why it cannot be read so. -/
structure Candidate where
  type : FieldType
  reading : Except DecodeError Scalar

mutual

/-- A message: `unknown` is the name of a message without type. -/
structure Message where
  name : String
  span : Span
  fields : List Field
  /-- The bytes at the end that do not start with a tag. -/
  garbage : Option Bytes
  /-- What is wrong with the message itself. -/
  diagnostics : List Diagnostic

structure Field where
  number : Nat
  wireType : WireType
  /-- All bytes of the field: its tag, its length if it has one, and its value. -/
  span : Span
  name : Option String
  /-- What the value was read as, or was to be read as. -/
  type : FieldType
  value : Value
  candidates : List Candidate
  diagnostics : List Diagnostic

inductive Value where
  | scalar (value : Scalar)
  | packed (elements : List Element)
  | message (message : Message)
  /-- The bytes left where a value should be. -/
  | incomplete (content : Bytes)

end

/-! ### Fields by number -/

namespace Message

/-- The first field of a number. -/
def field? (message : Message) (number : Nat) : Option Field :=
  message.fields.find? (·.number == number)

def fieldsOf (message : Message) (number : Nat) : List Field :=
  message.fields.filter (·.number == number)

end Message

/-- The message that the value is. -/
def Value.message? : Value → Option Message
  | .message embedded => some embedded
  | _ => none

/-! ### Diagnostics at all depths -/

mutual

/-- The diagnostics of the message, then those of each field. -/
def Message.allDiagnostics : Message → List Diagnostic
  | ⟨_, _, fields, _, diagnostics⟩ => diagnostics ++ allFieldDiagnostics fields

/-- The diagnostics of the field, then those of the message in it. -/
def Field.allDiagnostics : Field → List Diagnostic
  | ⟨_, _, _, _, _, value, _, diagnostics⟩ => diagnostics ++ value.allDiagnostics

def Value.allDiagnostics : Value → List Diagnostic
  | .message embedded => embedded.allDiagnostics
  | _ => []

def allFieldDiagnostics : List Field → List Diagnostic
  | [] => []
  | field :: rest => field.allDiagnostics ++ allFieldDiagnostics rest

end

/-- Whether no diagnostic at any depth is an error. -/
def Message.isComplete (message : Message) : Bool :=
  message.allDiagnostics.all fun diagnostic => diagnostic.severity == .info

theorem allFieldDiagnostics_eq_flatMap (fields : List Field) :
    allFieldDiagnostics fields = fields.flatMap Field.allDiagnostics := by
  induction fields with
  | nil => rfl
  | cons field rest ih => simp [allFieldDiagnostics, ih]

end WireTree
