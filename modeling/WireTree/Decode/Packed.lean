import WireTree.Tree.Basic

/-!
# Packed values

A packed value is a row of elements of one wire type, end to end. It is read as a whole: one element that cannot be read
spoils all of them.
-/

namespace WireTree

namespace Packed

/-- Splits the window that starts at `start` into values of one wire type. A failure tells where the value is that
cannot be read. -/
def split (wireType : WireType) (start : Nat) (window : Bytes) : Except (Nat × DecodeError) (List Located) :=
  if window.isEmpty then .ok []
  else
    match _ : Payload.read wireType start window with
    | .error cause => .error (start, cause)
    | .ok located =>
      match split wireType located.span.stop (window.drop (located.span.stop - start)) with
      | .error failure => .error failure
      | .ok rest => .ok (located :: rest)
termination_by window.length
decreasing_by
  have := Payload.span_of_read ‹Payload.read wireType start window = .ok located›
  simp only [List.length_drop]
  omega

@[simp] theorem split_nil (wireType : WireType) (start : Nat) : split wireType start [] = .ok [] := by
  rw [split]
  rfl

theorem split_of_read_error {wireType : WireType} {start : Nat} {window : Bytes} {cause : DecodeError}
    (nonempty : window ≠ []) (h : Payload.read wireType start window = .error cause) :
    split wireType start window = .error (start, cause) := by
  rw [split, if_neg (by simpa using nonempty)]
  split
  · rename_i found
    rw [h, Except.error.injEq] at found
    rw [found]
  · rename_i found
    rw [h] at found
    cases found

theorem split_of_read_ok {wireType : WireType} {start : Nat} {window : Bytes} {located : Located}
    (h : Payload.read wireType start window = .ok located) :
    split wireType start window =
      (split wireType located.span.stop (window.drop (located.span.stop - start))).map (located :: ·) := by
  have nonempty : window ≠ [] := by
    have := Payload.span_of_read h
    intro hnil
    simp only [hnil, List.length_nil] at this
    omega
  rw [split, if_neg (by simpa using nonempty)]
  split
  · rename_i found
    rw [h] at found
    cases found
  · rename_i found
    rw [h, Except.ok.injEq] at found
    subst found
    cases split wireType located.span.stop (window.drop (located.span.stop - start)) <;> rfl

/-- Why `length` bytes do not split, when the value at `offset` fails for `cause`. -/
def fault (wireType : WireType) (length offset : Nat) (cause : DecodeError) : PackedFault :=
  match wireType, cause with
  | .fixed64, _ => .width length 8
  | .fixed32, _ => .width length 4
  | _, .truncated .. => .varintCut offset
  | _, _ => .varintOverlong offset

/-- Reads one element as a field type. -/
def readElement (options : Options) (enumType : Option EnumType) (type : FieldType) (located : Located) :
    Except DecodeError Element :=
  match Scalar.read options enumType type located.span.length located.payload with
  | .ok value => .ok ⟨located.span, value⟩
  | .error cause => .error (.packed type (.element located.span cause))

/-- Reads the elements of a packed value whose content starts at `start`. -/
def read (options : Options) (enumType : Option EnumType) (type : FieldType) (start : Nat)
    (content : Bytes) : Except DecodeError (List Element) :=
  match type.isPackable, type.wireType? with
  | true, some wireType =>
    match split wireType start content with
    | .error (offset, cause) => .error (.packed type (fault wireType content.length offset cause))
    | .ok values => values.mapM (readElement options enumType type)
  | _, _ => .error (.notPackable type)

end Packed

end WireTree
