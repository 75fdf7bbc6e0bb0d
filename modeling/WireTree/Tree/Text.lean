import WireTree.Tree.Basic

/-!
# Trees as text

A message is shown as a header and one line for each field, diagnostic and stretch of garbage, indented by depth: first
what is wrong with the message, then each field, what is wrong with it and the body of the message in it, then the
garbage.
-/

namespace WireTree

/-- A line, and how many levels it is indented by. -/
structure Line where
  depth : Nat
  content : String
deriving DecidableEq, Repr

namespace Line

/-- Two spaces for each level, the content, and a line feed. -/
def text (line : Line) : String :=
  String.ofList (List.replicate (2 * line.depth) ' ') ++ line.content ++ "\n"

/-- The text of the lines, one behind the other. -/
def join (lines : List Line) : String := String.join (lines.map Line.text)

end Line

/-! ### Values -/

def Message.header (message : Message) : String := s!"{message.name} ({message.span.text})"

/-- The text of a value on the line of its field; the body of a message goes below it. -/
def Value.text : Value → String
  | .scalar value => value.text
  | .packed elements => "[" ++ ", ".intercalate (elements.map (·.value.text)) ++ "]"
  | .message embedded => embedded.header
  | .incomplete content => "incomplete " ++ Hex.encode content

/-- The text of a candidate that can be read. -/
def Candidate.text? (candidate : Candidate) : Option String :=
  match candidate.reading with
  | .ok value => some s!"{candidate.type.name}: {value.text}"
  | .error _ => none

/-! ### Lines -/

def Field.head (field : Field) : String :=
  let name := field.name.getD "<unknown>"
  if field.candidates.isEmpty then
    s!"Field({field.number}): {name} = {field.value.text} ({field.type.name})"
  else
    let readings := ", ".intercalate (field.candidates.filterMap Candidate.text?)
    s!"Field({field.number}): {name} = {readings} ({field.wireType.name})"

def Diagnostic.line (depth : Nat) (diagnostic : Diagnostic) : Line := ⟨depth, "! " ++ diagnostic.text⟩

def garbageLine (depth : Nat) (content : Bytes) : Line := ⟨depth, "garbage: " ++ Hex.encode content⟩

mutual

/-- The lines below the header of a message, which itself stands one level further out. -/
def Message.bodyLines (depth : Nat) : Message → List Line
  | ⟨_, _, fields, garbage, diagnostics⟩ =>
    diagnostics.map (Diagnostic.line depth) ++ fieldLines depth fields ++
      (garbage.map (garbageLine depth)).toList

/-- The lines of a field and of the message in it. -/
def Field.lines (depth : Nat) : Field → List Line
  | ⟨number, wireType, span, name, type, value, candidates, diagnostics⟩ =>
    ⟨depth, Field.head ⟨number, wireType, span, name, type, value, candidates, diagnostics⟩⟩ ::
      diagnostics.map (Diagnostic.line (depth + 1)) ++ value.bodyLines (depth + 1)

def Value.bodyLines (depth : Nat) : Value → List Line
  | .message embedded => embedded.bodyLines depth
  | _ => []

def fieldLines (depth : Nat) : List Field → List Line
  | [] => []
  | field :: rest => field.lines depth ++ fieldLines depth rest

end

def Message.lines (message : Message) : List Line := ⟨0, message.header⟩ :: message.bodyLines 1

def Message.text (message : Message) : String := Line.join message.lines

def Field.text (field : Field) : String := Line.join (field.lines 0)

theorem fieldLines_eq_flatMap (depth : Nat) (fields : List Field) :
    fieldLines depth fields = fields.flatMap (Field.lines depth) := by
  induction fields with
  | nil => rfl
  | cons field rest ih => simp [fieldLines, ih]

end WireTree
