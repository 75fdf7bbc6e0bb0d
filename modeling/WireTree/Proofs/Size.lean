import Mathlib.Algebra.BigOperators.Group.List.Basic
import WireTree.Proofs.Tiling

/-!
# How large a decoded tree is

The parts of a tree are its fields, the elements of its rows and its stretches of garbage, at all depths. Each of them
takes a byte of its own: a field has a tag that lies in no message inside it, an element is not empty, and garbage lies
behind the last field. So a tree has no more parts than bytes, and a message in a field is shorter than the field by a
tag and a length.
-/

namespace WireTree

/-- The kinds of parts that a tree has at all depths. -/
inductive Part where
  | field
  | element
  | garbage
deriving DecidableEq, Repr

/-! ### Counting -/

mutual

/-- How many parts of a kind there are in the message. -/
def Message.count (part : Part) : Message → Nat
  | ⟨_, _, fields, garbage, _⟩ =>
    countFields part fields + if part = .garbage then garbage.toList.length else 0

def Field.count (part : Part) : Field → Nat
  | ⟨_, _, _, _, _, value, _, _⟩ => (if part = .field then 1 else 0) + value.count part

def Value.count (part : Part) : Value → Nat
  | .packed elements => if part = .element then elements.length else 0
  | .message embedded => embedded.count part
  | _ => 0

def countFields (part : Part) : List Field → Nat
  | [] => 0
  | field :: rest => field.count part + countFields part rest

end

theorem Message.count_eq (part : Part) (message : Message) :
    message.count part =
      countFields part message.fields + if part = .garbage then message.garbage.toList.length else 0 := by
  cases message
  rfl

theorem Field.count_eq (part : Part) (field : Field) :
    field.count part = (if part = .field then 1 else 0) + field.value.count part := by
  cases field
  rfl

/-- The number of all parts in the value. -/
def Value.size (value : Value) : Nat := value.count .field + value.count .element + value.count .garbage

/-- The number of all parts of the field: itself, and those in its value. -/
def Field.size (field : Field) : Nat := 1 + field.value.size

/-- The number of all parts of the message. -/
def Message.size (message : Message) : Nat :=
  message.count .field + message.count .element + message.count .garbage

@[simp] theorem Value.size_scalar (value : Scalar) : (Value.scalar value).size = 0 := rfl

@[simp] theorem Value.size_incomplete (content : Bytes) : (Value.incomplete content).size = 0 := rfl

@[simp] theorem Value.size_packed (elements : List Element) : (Value.packed elements).size = elements.length := by
  simp [size, count]

@[simp] theorem Value.size_message (embedded : Message) : (Value.message embedded).size = embedded.size := rfl

theorem Field.size_eq (field : Field) :
    field.size = field.count .field + field.count .element + field.count .garbage := by
  simp only [size, Value.size, count_eq, if_true, reduceCtorEq, if_false]
  omega

theorem countFields_eq_sum (part : Part) (fields : List Field) :
    countFields part fields = (fields.map (Field.count part)).sum := by
  induction fields with
  | nil => rfl
  | cons field rest ih => rw [countFields, ih, List.map_cons, List.sum_cons]

theorem Message.size_eq (message : Message) :
    message.size = (message.fields.map Field.size).sum + message.garbage.toList.length := by
  have hfields : message.fields.map Field.size = message.fields.map fun field =>
      field.count .field + field.count .element + field.count .garbage :=
    List.map_congr_left fun field _ => field.size_eq
  rw [hfields, List.sum_map_add, List.sum_map_add]
  simp only [size, count_eq, countFields_eq_sum, if_true, reduceCtorEq, if_false]
  omega

/-! ### Parts and bytes -/

namespace Span.Tile

variable {start stop : Nat} {spans : List Span}

theorem le (h : Tile start spans stop) : start ≤ stop := by
  induction h with
  | nil => exact Nat.le_refl _
  | cons _ hnonempty _ ih => omega

theorem length_le (h : Tile start spans stop) : start + spans.length ≤ stop := by
  induction h with
  | nil => exact Nat.le_refl _
  | cons _ hnonempty _ ih =>
    rw [List.length_cons]
    omega

theorem of_mem {span : Span} (h : Tile start spans stop) (hmem : span ∈ spans) :
    start ≤ span.start ∧ span.start < span.stop ∧ span.stop ≤ stop := by
  induction h with
  | nil => cases hmem
  | cons hstart hnonempty hrest ih =>
    rcases List.mem_cons.1 hmem with rfl | hmem
    · exact ⟨hstart.ge, by omega, hrest.le⟩
    · have := ih hmem
      omega

theorem sum_le {fields : List Field} (h : Tile start (fields.map (·.span)) stop) {cost : Field → Nat}
    (hcost : ∀ field ∈ fields, cost field ≤ field.span.length) : start + (fields.map cost).sum ≤ stop := by
  induction fields generalizing start with
  | nil =>
    cases h
    exact Nat.le_refl _
  | cons field rest ih =>
    cases h with
    | cons hstart hnonempty hrest =>
      obtain ⟨hfield, hcost⟩ := List.forall_mem_cons.1 hcost
      have hsum := ih hrest hcost
      simp only [Span.length] at hfield hstart hnonempty hsum
      rw [List.map_cons, List.sum_cons]
      omega

end Span.Tile

theorem Field.ContentAt.le {data : Bytes} {field : Field} {offset : Nat} (h : field.ContentAt data offset) :
    field.span.start + 2 ≤ offset := by
  obtain ⟨tag, lead, htag, hlead, rfl⟩ := h
  have htag := Tag.length_of_read htag
  have hlead := Varint.length_of_read hlead
  omega

namespace Message.Tiled

variable {data : Bytes} {message embedded : Message} {field : Field}

theorem length_field (h : message.Tiled data) (hfield : field ∈ message.fields) :
    0 < field.span.length ∧ field.span.length ≤ message.span.length := by
  obtain ⟨hstart, hnonempty, hstop⟩ := h.fields.of_mem (List.mem_map_of_mem hfield)
  have := h.reach_le
  simp only [Span.length]
  omega

theorem length_embedded (h : message.Tiled data) (hfield : field ∈ message.fields)
    (hvalue : field.value = .message embedded) (hembedded : embedded.Tiled data) :
    embedded.span.length + 2 ≤ field.span.length := by
  obtain ⟨hcontent, hstop⟩ := h.embedded field hfield embedded hvalue
  have := hcontent.le
  have := hembedded.ordered
  simp only [Span.length]
  omega

theorem length_packed (h : message.Tiled data) (hfield : field ∈ message.fields) {elements : List Element}
    (hvalue : field.value = .packed elements) : elements.length + 2 ≤ field.span.length := by
  obtain ⟨offset, hcontent, htile⟩ := h.packed field hfield elements hvalue
  have hlength := htile.length_le
  rw [List.length_map] at hlength
  have := hcontent.le
  simp only [Span.length]
  omega

theorem length_garbage (h : message.Tiled data) :
    message.reach + message.garbage.toList.length ≤ message.span.stop := by
  cases hgarbage : message.garbage with
  | none => exact h.reach_le
  | some content =>
    exact h.garbage_iff.1 (by rw [hgarbage]; rfl)

end Message.Tiled

/-- A tree that is tiled at every depth has no more parts than bytes. -/
theorem Message.size_le_of_tiled {data : Bytes} {message : Message}
    (h : ∀ level inner, message.Nests level inner → inner.Tiled data) : message.size ≤ message.span.length := by
  induction hlength : message.span.length using Nat.strongRecOn generalizing message with
  | ind length ih =>
    subst hlength
    have htiled := h 0 message (.self message)
    have hcost : ∀ field ∈ message.fields, field.size ≤ field.span.length := by
      intro field hfield
      obtain ⟨hpos, hwithin⟩ := htiled.length_field hfield
      rw [Field.size]
      cases hvalue : field.value with
      | scalar value => rwa [Value.size_scalar]
      | incomplete content => rwa [Value.size_incomplete]
      | packed elements =>
        have := htiled.length_packed hfield hvalue
        rw [Value.size_packed]
        omega
      | message embedded =>
        have hinner : ∀ level inner, embedded.Nests level inner → inner.Tiled data := fun level inner hinner =>
          h (level + 1) inner (.inside hfield hvalue hinner)
        have hshorter := htiled.length_embedded hfield hvalue (hinner 0 embedded (.self embedded))
        have hsize := ih embedded.span.length (by omega) hinner rfl
        rw [Value.size_message]
        omega
    have hfields := htiled.fields.sum_le hcost
    have hgarbage := htiled.length_garbage
    rw [size_eq, Span.length]
    omega

end WireTree
