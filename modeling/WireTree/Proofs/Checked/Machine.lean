import WireTree.Proofs.Tiling

/-!
# Operations that can fail

Where decoding counts and cuts bytes, it does so in words of 64 bits, and there each operation can fail: `Fault` lists how.
A computation in `Except Fault` stops at the first operation that fails. Each operation comes with the condition under
which it does not.
-/

namespace WireTree.Checked

/-- How an operation can fail. -/
inductive Fault where
  /-- A sum or a product that takes more than 64 bits. -/
  | overflow
  /-- A difference below zero. -/
  | underflow
  /-- A word shifted by as many bits as it has, or by more. -/
  | shift
  /-- A range of bytes that ends before it starts, or behind the last byte. -/
  | range
  /-- A span that ends before it starts. -/
  | span
  /-- A reference to a type that the schema does not have. -/
  | reference
  /-- A loop that does not go on, or levels that do not end. -/
  | stalled
deriving DecidableEq, Repr

@[simp] theorem ok_bind {α β : Type} (value : α) (next : α → Except Fault β) : (Except.ok value >>= next) = next value :=
  rfl

@[simp] theorem pure_eq_ok {α : Type} (value : α) : (pure value : Except Fault α) = .ok value := rfl

/-! ### Words -/

def add (left right : Nat) : Except Fault Nat :=
  if left + right < 2 ^ 64 then .ok (left + right) else .error .overflow

def mul (left right : Nat) : Except Fault Nat :=
  if left * right < 2 ^ 64 then .ok (left * right) else .error .overflow

def sub (left right : Nat) : Except Fault Nat :=
  if right ≤ left then .ok (left - right) else .error .underflow

/-- The sum, or the largest word if it is none. -/
def saturatingAdd (left right : Nat) : Nat := min (left + right) (2 ^ 64 - 1)

def shiftLeft (word : UInt64) (amount : Nat) : Except Fault UInt64 :=
  if amount < 64 then .ok (word <<< UInt64.ofNat amount) else .error .shift

theorem add_of_lt {left right : Nat} (h : left + right < 2 ^ 64) : add left right = .ok (left + right) := if_pos h

theorem mul_of_lt {left right : Nat} (h : left * right < 2 ^ 64) : mul left right = .ok (left * right) := if_pos h

theorem sub_of_le {left right : Nat} (h : right ≤ left) : sub left right = .ok (left - right) := if_pos h

theorem shiftLeft_of_lt {amount : Nat} (word : UInt64) (h : amount < 64) :
    shiftLeft word amount = .ok (word <<< UInt64.ofNat amount) :=
  if_pos h

/-! ### Ranges -/

/-- The bytes from `start` up to, and not including, `stop`. -/
def slice (data : Bytes) (start stop : Nat) : Except Fault Bytes :=
  if start ≤ stop ∧ stop ≤ data.length then .ok (Span.slice ⟨start, stop⟩ data) else .error .range

def span (start stop : Nat) : Except Fault Span := if start ≤ stop then .ok ⟨start, stop⟩ else .error .span

def length (span : Span) : Except Fault Nat := sub span.stop span.start

/-- The type at a place of its list. -/
def resolve {α : Type} (types : List α) (index : Nat) : Except Fault α :=
  match types[index]? with
  | some type => .ok type
  | none => .error .reference

theorem slice_of_le {data : Bytes} {start stop : Nat} (hordered : start ≤ stop) (hwithin : stop ≤ data.length) :
    slice data start stop = .ok (Span.slice ⟨start, stop⟩ data) :=
  if_pos ⟨hordered, hwithin⟩

theorem length_slice {data : Bytes} {span : Span} (hwithin : span.stop ≤ data.length) :
    (span.slice data).length = span.length := by
  rw [Span.slice, List.length_drop, List.length_take, Nat.min_eq_left hwithin, Span.length]

theorem drop_slice (data : Bytes) (start stop count : Nat) :
    (Span.slice ⟨start, stop⟩ data).drop count = Span.slice ⟨start + count, stop⟩ data := by
  rw [Span.slice, Span.slice, List.drop_drop]

theorem ofLength_slice {data : Bytes} (span : Span) (hordered : span.start ≤ span.stop)
    (hwithin : span.stop ≤ data.length) : Span.ofLength span.start (span.slice data).length = span := by
  rw [length_slice hwithin, Span.length, Span.ofLength, Nat.add_sub_cancel' hordered]

theorem span_of_le {start stop : Nat} (h : start ≤ stop) : span start stop = .ok ⟨start, stop⟩ := if_pos h

theorem length_of_le {span : Span} (h : span.start ≤ span.stop) : length span = .ok span.length := sub_of_le h

theorem resolve_of_getElem? {α : Type} {types : List α} {index : Nat} {type : α} (h : types[index]? = some type) :
    resolve types index = .ok type := by
  rw [resolve, h]

end WireTree.Checked
