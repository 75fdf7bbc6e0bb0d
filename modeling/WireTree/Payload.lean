import WireTree.Varint
import WireTree.DecodeError

/-!
# Payloads

A payload is the value of a field as its wire type has it. It is read at the front of a window, which is the rest of the
bytes from an absolute offset on; offsets and spans are those of the whole buffer. Nothing outside the window matters,
and what is read lies within it and is never empty, counting the length that may stand before a payload.
-/

namespace WireTree

/-- A value as the wire holds it, not yet read as a field type. -/
inductive Payload where
  | varint (value : UInt64)
  | fixed64 (value : UInt64)
  | fixed32 (value : UInt32)
  | bytes (content : Bytes)
deriving DecidableEq, Repr

namespace Payload

def wireType : Payload → WireType
  | varint _ => .varint
  | fixed64 _ => .fixed64
  | fixed32 _ => .fixed32
  | bytes _ => .lengthDelimited

/-- The value of a numeric payload. -/
def number? : Payload → Option UInt64
  | varint value | fixed64 value => some value
  | fixed32 value => some value.toUInt64
  | bytes _ => none

end Payload

/-- A payload, the length of the length written before it, and the bytes of the payload alone. -/
structure Located where
  payload : Payload
  prefixLength : Nat
  span : Span
deriving DecidableEq, Repr

namespace Payload

/-- Checks that `width` bytes are left for a value. -/
def ofWidth (width start : Nat) (window : Bytes) (payload : Payload) : Except DecodeError Located :=
  if width ≤ window.length then .ok ⟨payload, 0, .ofLength start width⟩
  else .error (.truncated start width window.length)

/-- Reads the value of a wire type at the front of the window that starts at `start`. -/
def read (wireType : WireType) (start : Nat) (window : Bytes) : Except DecodeError Located :=
  match wireType with
  | .varint =>
    match Varint.read window with
    | .ok number => .ok ⟨.varint number.value, 0, .ofLength start number.length⟩
    | .error .truncated => .error (.truncated start (window.length + 1) window.length)
    | .error .overlong => .error (.overlongVarint start)
  | .fixed64 =>
    ofWidth 8 start window (.fixed64 (UInt64.ofNat (LittleEndian.decode (window.take 8))))
  | .fixed32 =>
    ofWidth 4 start window (.fixed32 (UInt32.ofNat (LittleEndian.decode (window.take 4))))
  | .lengthDelimited =>
    match Varint.read window with
    | .error _ => .error (.malformedLength start)
    | .ok length =>
      let rest := window.drop length.length
      let first := start + length.length
      if length.value.toNat ≤ rest.length then
        .ok ⟨.bytes (rest.take length.value.toNat), length.length, .ofLength first length.value.toNat⟩
      else .error (.truncated first length.value.toNat rest.length)
  | .startGroup | .endGroup => .error (.unsupportedWireType wireType.raw)

/-- Reads the value at `offset` of `data`, which has to end before `stop`. -/
def readAt (data : Bytes) (offset stop : Nat) (wireType : WireType) : Except DecodeError Located :=
  read wireType offset ((data.take stop).drop offset)

theorem span_of_ofWidth {width start : Nat} {window : Bytes} {payload : Payload} {located : Located}
    (positive : 0 < width) (h : ofWidth width start window payload = .ok located) :
    start + located.prefixLength ≤ located.span.start ∧ located.span.start ≤ located.span.stop ∧
      start < located.span.stop ∧ located.span.stop ≤ start + window.length := by
  simp only [ofWidth] at h
  split at h
  · simp only [Except.ok.injEq] at h
    subst h
    simp only [Span.start_ofLength, Span.stop_ofLength]
    omega
  · simp at h

theorem span_of_read {wireType : WireType} {start : Nat} {window : Bytes} {located : Located}
    (h : read wireType start window = .ok located) :
    start + located.prefixLength ≤ located.span.start ∧ located.span.start ≤ located.span.stop ∧
      start < located.span.stop ∧ located.span.stop ≤ start + window.length := by
  cases wireType with
  | varint =>
    simp only [read] at h
    split at h
    · rename_i number heq
      have := Varint.length_of_read heq
      simp only [Except.ok.injEq] at h
      subst h
      simp only [Span.start_ofLength, Span.stop_ofLength]
      omega
    · simp at h
    · simp at h
  | fixed64 => exact span_of_ofWidth (by decide) h
  | fixed32 => exact span_of_ofWidth (by decide) h
  | lengthDelimited =>
    simp only [read] at h
    split at h
    · simp at h
    · rename_i length heq
      have := Varint.length_of_read heq
      split at h
      · simp only [Except.ok.injEq] at h
        subst h
        simp only [List.length_drop] at *
        simp only [Span.start_ofLength, Span.stop_ofLength]
        omega
      · simp at h
  | startGroup => simp [read] at h
  | endGroup => simp [read] at h

end Payload

end WireTree
