import WireTree.Varint
import WireTree.DecodeError

/-!
# Tags

A tag is one varint: a field number, and in its low three bits a raw wire type. It is read at the front of a window,
which is the rest of the bytes from an absolute offset on. A tag takes one to ten bytes, all of them in the window.
-/

namespace WireTree

/-- The number of a field and its raw wire type, written as one varint of `length` bytes. -/
structure Tag where
  number : Nat
  wireType : Nat
  length : Nat
deriving DecidableEq, Repr

namespace Tag

/-- Reads the tag at the front of the window that starts at `start`. -/
def read (start : Nat) (window : Bytes) : Except DecodeError Tag :=
  match Varint.read window with
  | .error _ => .error (.malformedTag start)
  | .ok varint => .ok ⟨varint.value.toNat / 8, varint.value.toNat % 8, varint.length⟩

/-- Reads the tag at `offset` of `data`, looking at no more than `limit` bytes. -/
def readAt (data : Bytes) (offset limit : Nat) : Except DecodeError Tag :=
  read offset ((data.drop offset).take limit)

theorem length_of_read {start : Nat} {window : Bytes} {tag : Tag} (h : read start window = .ok tag) :
    0 < tag.length ∧ tag.length ≤ Varint.maxLength ∧ tag.length ≤ window.length := by
  simp only [read] at h
  split at h
  · simp at h
  · rename_i heq
    simp only [Except.ok.injEq] at h
    subst h
    exact Varint.length_of_read heq

end Tag

end WireTree
