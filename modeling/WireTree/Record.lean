import WireTree.Payload
import WireTree.Tag

/-!
# Records

A message is a row of records, each a tag and a value. Where one record ends is settled by its bytes alone, so a window
is split into records before any field type is known. Splitting ends at the end of the window, at bytes that are no tag,
or at a value that cannot be read; behind a stop nothing can be located. The records lie end to end from the start of the
window, none is empty, and a stop covers all that is left.
-/

namespace WireTree

/-- A complete field: the number and wire type of its tag, all its bytes, and its value with the bytes of it. -/
structure Record where
  number : Nat
  wireType : WireType
  span : Span
  payload : Payload
  valueSpan : Span
deriving DecidableEq, Repr

/-- Why splitting stops before the end of the window. Its span covers the rest of the window. -/
inductive Stop where
  /-- The bytes left do not start with a tag of a known wire type. -/
  | garbage (span : Span) (content : Bytes) (error : DecodeError)
  /-- A tag is there, but its value cannot be read from the bytes `content` behind it. -/
  | incomplete (number : Nat) (wireType : WireType) (span : Span) (content : Bytes) (error : DecodeError)
deriving DecidableEq, Repr

namespace Record

/-- Reads the record at the front of the window that starts at `start`. -/
def read (start : Nat) (window : Bytes) : Except Stop Record :=
  let rest := Span.ofLength start window.length
  match Tag.read start window with
  | .error error => .error (.garbage rest window error)
  | .ok tag =>
    match WireType.ofRaw? tag.wireType with
    | none => .error (.garbage rest window (.unsupportedWireType tag.wireType))
    | some wireType =>
      let content := window.drop tag.length
      match Payload.read wireType (start + tag.length) content with
      | .error error => .error (.incomplete tag.number wireType rest content error)
      | .ok located =>
        .ok ⟨tag.number, wireType, ⟨start, located.span.stop⟩, located.payload, located.span⟩

theorem span_of_read {start : Nat} {window : Bytes} {record : Record}
    (h : read start window = .ok record) :
    record.span.start = start ∧ start < record.span.stop ∧
      record.span.stop ≤ start + window.length := by
  simp only [read] at h
  split at h
  · simp at h
  · rename_i tag htag
    have := Tag.length_of_read htag
    split at h
    · simp at h
    · split at h
      · simp at h
      · rename_i located hlocated
        have hspan := Payload.span_of_read hlocated
        rw [List.length_drop] at hspan
        simp only [Except.ok.injEq] at h
        subst h
        refine ⟨rfl, ?_, ?_⟩ <;> simp only <;> omega

theorem length_of_read {start : Nat} {window : Bytes} {record : Record}
    (h : read start window = .ok record) :
    0 < record.span.length ∧ record.span.length ≤ window.length := by
  have := span_of_read h
  simp only [Span.length]
  omega

end Record

/-- The records of a window, and the stop if there is one. -/
structure Framing where
  records : List Record
  stop : Option Stop
deriving DecidableEq, Repr

namespace Framing

/-- Splits the window that starts at `start` into records. -/
def ofWindow (start : Nat) (window : Bytes) : Framing :=
  if window.isEmpty then ⟨[], none⟩
  else
    match _ : Record.read start window with
    | .error stop => ⟨[], some stop⟩
    | .ok record =>
      let rest := ofWindow record.span.stop (window.drop record.span.length)
      ⟨record :: rest.records, rest.stop⟩
termination_by window.length
decreasing_by
  have := Record.length_of_read ‹Record.read start window = .ok record›
  simp only [List.length_drop]
  omega

@[simp] theorem ofWindow_nil (start : Nat) : ofWindow start [] = ⟨[], none⟩ := by
  rw [ofWindow]
  rfl

theorem ofWindow_of_read_error {start : Nat} {window : Bytes} {stop : Stop} (nonempty : window ≠ [])
    (h : Record.read start window = .error stop) : ofWindow start window = ⟨[], some stop⟩ := by
  rw [ofWindow, if_neg (by simpa using nonempty)]
  split
  · rename_i found
    rw [h, Except.error.injEq] at found
    rw [found]
  · rename_i found
    rw [h] at found
    cases found

theorem ofWindow_of_read_ok {start : Nat} {window : Bytes} {record : Record}
    (h : Record.read start window = .ok record) :
    ofWindow start window =
      ⟨record :: (ofWindow record.span.stop (window.drop record.span.length)).records,
        (ofWindow record.span.stop (window.drop record.span.length)).stop⟩ := by
  have nonempty : window ≠ [] := by
    have := Record.length_of_read h
    intro hnil
    simp only [hnil, List.length_nil] at this
    omega
  rw [ofWindow, if_neg (by simpa using nonempty)]
  split
  · rename_i found
    rw [h] at found
    cases found
  · rename_i found
    rw [h, Except.ok.injEq] at found
    rw [found]

end Framing

end WireTree
