import WireTree.Bytes

/-!
# Variable-length integers

A varint holds a number in groups of seven bits, least significant first; every byte but the last has its high bit
set. At most ten bytes are read, and the sum of the groups is taken modulo 2^64. A result depends on the bytes up to
the terminator only, and its length is positive and within the bytes given.
-/

namespace WireTree

/-- A varint as read: its value, and the number of bytes it took. -/
structure Varint where
  value : UInt64
  length : Nat
deriving DecidableEq, Repr

namespace Varint

/-- Why no varint could be read. -/
inductive ReadError where
  /-- The bytes end before the last group. -/
  | truncated
  /-- The tenth byte still announces another one. -/
  | overlong
deriving DecidableEq, Repr

/-- The most bytes a varint may take. -/
def maxLength : Nat := 10

/-- The unreduced sum of the groups and their number, looking at no more than `limit` bytes. -/
def readGroups : (limit : Nat) → Bytes → Except ReadError (Nat × Nat)
  | 0, _ => .error .overlong
  | _ + 1, [] => .error .truncated
  | limit + 1, byte :: rest =>
    if byte < 128 then .ok (byte.toNat, 1)
    else match readGroups limit rest with
      | .error error => .error error
      | .ok (sum, count) => .ok (byte.toNat % 128 + 128 * sum, count + 1)

/-- Reads the varint at the front of `bytes`. -/
def read (bytes : Bytes) : Except ReadError Varint :=
  match readGroups maxLength bytes with
  | .error error => .error error
  | .ok (sum, count) => .ok ⟨UInt64.ofNat sum, count⟩

theorem count_of_readGroups {limit : Nat} {bytes : Bytes} {sum count : Nat}
    (h : readGroups limit bytes = .ok (sum, count)) :
    0 < count ∧ count ≤ limit ∧ count ≤ bytes.length := by
  induction limit generalizing bytes sum count with
  | zero => simp [readGroups] at h
  | succ limit ih =>
    cases bytes with
    | nil => simp [readGroups] at h
    | cons byte rest =>
      simp only [readGroups] at h
      split at h
      · simp only [Except.ok.injEq, Prod.mk.injEq] at h
        simp [← h.2]
      · split at h
        · simp at h
        · rename_i heq
          have := ih heq
          simp only [Except.ok.injEq, Prod.mk.injEq] at h
          simp only [← h.2, List.length_cons]
          omega

theorem length_of_read {bytes : Bytes} {varint : Varint} (h : read bytes = .ok varint) :
    0 < varint.length ∧ varint.length ≤ maxLength ∧ varint.length ≤ bytes.length := by
  simp only [read] at h
  split at h
  · simp at h
  · rename_i heq
    simp only [Except.ok.injEq] at h
    subst h
    exact count_of_readGroups heq

end Varint

end WireTree
