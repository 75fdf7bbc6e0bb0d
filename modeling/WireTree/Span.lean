/-!
# Byte ranges

A span is a half-open range of byte offsets in the decoded buffer. Offsets are plain natural numbers, so moving a
range never overflows. The rest relies on `Span.ofLength`, whose length is the one asked for.
-/

namespace WireTree

/-- The bytes from `start` up to, and not including, `stop`. -/
structure Span where
  start : Nat
  stop : Nat
deriving DecidableEq, Repr, Inhabited

namespace Span

/-- The range of `length` bytes from `start` on. -/
def ofLength (start length : Nat) : Span := ⟨start, start + length⟩

def length (span : Span) : Nat := span.stop - span.start

def isEmpty (span : Span) : Bool := span.start == span.stop

/-- Whether every byte of `inner` lies in `outer`; an empty range counts by its two ends. -/
def contains (outer inner : Span) : Bool :=
  decide (outer.start ≤ inner.start) && decide (inner.stop ≤ outer.stop)

/-- The two ends with two dots between them. -/
def text (span : Span) : String := s!"{span.start}..{span.stop}"

@[simp] theorem start_ofLength (start length : Nat) : (ofLength start length).start = start := rfl

@[simp] theorem stop_ofLength (start length : Nat) :
    (ofLength start length).stop = start + length := rfl

@[simp] theorem length_ofLength (start length : Nat) : (ofLength start length).length = length := by
  simp [Span.length]

end Span

end WireTree
