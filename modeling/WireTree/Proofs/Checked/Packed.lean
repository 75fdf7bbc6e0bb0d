import WireTree.Proofs.Checked.Wire
import WireTree.Decode.Packed

/-!
# Reading packed values in words

Varints are taken off the front of the content one by one; values of fixed width are counted first, and each offset is
computed from its place in the row. `Packed.split` does neither, but finds the same values.
-/

namespace WireTree.Checked

/-! ### Varints -/

/-- Splits the content that starts at `offset` into varints. -/
def splitVarints (offset : Nat) (content : Bytes) : Except Fault (Except PackedFault (List Located)) := do
  if content.isEmpty then return .ok []
  match ← readVarint content with
  | .error .truncated => return .error (.varintCut offset)
  | .error .overlong => return .error (.varintOverlong offset)
  | .ok number =>
    let span ← span offset (← add offset number.length)
    let rest ← slice content number.length content.length
    let next ← add offset number.length
    if _ : rest.length < content.length then
      match ← splitVarints next rest with
      | .error fault => return .error fault
      | .ok values => return .ok (⟨.varint number.value, 0, span⟩ :: values)
    else .error .stalled
termination_by content.length

theorem splitVarints_eq {offset : Nat} {content : Bytes} (hroom : offset + content.length < 2 ^ 64) (total : Nat) :
    splitVarints offset content = .ok ((Packed.split .varint offset content).mapError fun failure =>
      Packed.fault .varint total failure.1 failure.2) := by
  induction hlength : content.length using Nat.strongRecOn generalizing offset content with
  | ind length ih =>
    by_cases hempty : content = []
    · subst hempty
      rw [splitVarints, Packed.split_nil]
      rfl
    · rw [splitVarints, if_neg (by simpa using hempty), readVarint_eq, ok_bind]
      cases hread : Varint.read content with
      | error error =>
        cases error with
        | truncated =>
          have hsplit : Payload.read .varint offset content =
              .error (.truncated offset (content.length + 1) content.length) := by
            simp only [Payload.read, hread]
          rw [Packed.split_of_read_error hempty hsplit]
          rfl
        | overlong =>
          have hsplit : Payload.read .varint offset content = .error (.overlongVarint offset) := by
            simp only [Payload.read, hread]
          rw [Packed.split_of_read_error hempty hsplit]
          rfl
      | ok number =>
        have hsplit : Payload.read .varint offset content =
            .ok ⟨.varint number.value, 0, .ofLength offset number.length⟩ := by
          simp only [Payload.read, hread]
        obtain ⟨hpositive, -, hwithin⟩ := Varint.length_of_read hread
        have hrest : Span.slice ⟨number.length, content.length⟩ content = content.drop number.length := by
          rw [Span.slice, List.take_length]
        have hshorter : (content.drop number.length).length < content.length := by
          rw [List.length_drop]
          omega
        have hnext : offset + number.length + (content.drop number.length).length < 2 ^ 64 := by
          rw [List.length_drop]
          omega
        rw [Packed.split_of_read_ok hsplit, Span.stop_ofLength, Nat.add_sub_cancel_left]
        simp only [add_of_lt (show offset + number.length < 2 ^ 64 by omega), ok_bind,
          span_of_le (Nat.le_add_right offset _), slice_of_le hwithin (Nat.le_refl _), hrest, dif_pos hshorter,
          ih _ (hlength ▸ hshorter) hnext rfl]
        cases Packed.split .varint (offset + number.length) (content.drop number.length) <;> rfl

/-! ### Fixed width -/

/-- The values of `count` chunks from the one at the place `index` on, in a row that starts at `start`. -/
def chunks (width : Nat) (read : Bytes → Payload) (start : Nat) : (count index : Nat) → Bytes → Except Fault (List Located)
  | 0, _, _ => return []
  | count + 1, index, content => do
    let offset ← add start (← mul index width)
    let span ← span offset (← add offset width)
    let values ← chunks width read start count (index + 1) (content.drop width)
    return ⟨read (content.take width), 0, span⟩ :: values

/-- Splits the content that starts at `start` into values of one width. -/
def splitFixed (width : Nat) (read : Bytes → Payload) (start : Nat) (content : Bytes) :
    Except Fault (Except PackedFault (List Located)) := do
  if content.length % width ≠ 0 then return .error (.width content.length width)
  return .ok (← chunks width read start (content.length / width) 0 content)

section

variable {wireType : WireType} {width : Nat} {read : Bytes → Payload} (hpositive : 0 < width)
  (hread : ∀ start window,
    Payload.read wireType start window = Payload.ofWidth width start window (read (window.take width)))

include hpositive hread

omit hpositive in
theorem exists_chunks (start index : Nat) {count : Nat} {content : Bytes} (hcontent : content.length = count * width)
    (hroom : start + index * width + content.length < 2 ^ 64) :
    ∃ values, chunks width read start count index content = .ok values ∧
      Packed.split wireType (start + index * width) content = .ok values := by
  induction count generalizing index content with
  | zero =>
    rw [Nat.zero_mul, List.length_eq_zero_iff] at hcontent
    subst hcontent
    exact ⟨[], rfl, Packed.split_nil _ _⟩
  | succ count ih =>
    rw [Nat.succ_mul] at hcontent
    have hvalue : Payload.read wireType (start + index * width) content =
        .ok ⟨read (content.take width), 0, .ofLength (start + index * width) width⟩ := by
      rw [hread, Payload.ofWidth, if_pos (by omega)]
    have hnext : start + index * width + width = start + (index + 1) * width := by rw [Nat.succ_mul, Nat.add_assoc]
    have hrest : (content.drop width).length = count * width := by
      rw [List.length_drop]
      omega
    obtain ⟨values, hchunks, hsplit⟩ := ih (index + 1) hrest (by omega)
    refine ⟨⟨read (content.take width), 0, .ofLength (start + index * width) width⟩ :: values, ?_, ?_⟩
    · rw [chunks, mul_of_lt (by omega), ok_bind, add_of_lt (by omega), ok_bind, add_of_lt (by omega), ok_bind,
        span_of_le (Nat.le_add_right _ _), ok_bind, hchunks]
      rfl
    · rw [Packed.split_of_read_ok hvalue, Span.stop_ofLength, Nat.add_sub_cancel_left, hnext, hsplit]
      rfl

theorem exists_split_error {content : Bytes} (hcontent : content.length % width ≠ 0) (start : Nat) :
    ∃ failure, Packed.split wireType start content = .error failure := by
  induction hlength : content.length using Nat.strongRecOn generalizing start content with
  | ind length ih =>
    have hnonempty : content ≠ [] := by
      rintro rfl
      exact hcontent (Nat.zero_mod width)
    by_cases hfits : width ≤ content.length
    · have hvalue : Payload.read wireType start content =
          .ok ⟨read (content.take width), 0, .ofLength start width⟩ := by
        rw [hread, Payload.ofWidth, if_pos hfits]
      have hrest : (content.drop width).length % width ≠ 0 := by
        rwa [List.length_drop, ← Nat.mod_eq_sub_mod hfits]
      have hshorter : (content.drop width).length < length := by
        rw [List.length_drop]
        omega
      obtain ⟨failure, hfailure⟩ := ih _ hshorter hrest (start + width) rfl
      rw [Packed.split_of_read_ok hvalue, Span.stop_ofLength, Nat.add_sub_cancel_left, hfailure]
      exact ⟨failure, rfl⟩
    · have hvalue : Payload.read wireType start content = .error (.truncated start width content.length) := by
        rw [hread, Payload.ofWidth, if_neg hfits]
      exact ⟨_, Packed.split_of_read_error hnonempty hvalue⟩

theorem splitFixed_eq {start : Nat} {content : Bytes} (hroom : start + content.length < 2 ^ 64)
    (hfault : ∀ offset cause, Packed.fault wireType content.length offset cause = .width content.length width) :
    splitFixed width read start content = .ok ((Packed.split wireType start content).mapError fun failure =>
      Packed.fault wireType content.length failure.1 failure.2) := by
  rw [splitFixed]
  by_cases hcontent : content.length % width = 0
  · have hcount : content.length = content.length / width * width := by
      rw [Nat.div_mul_cancel (Nat.dvd_of_mod_eq_zero hcontent)]
    obtain ⟨values, hchunks, hsplit⟩ :=
      exists_chunks hread start 0 hcount (by omega)
    rw [Nat.zero_mul, Nat.add_zero] at hsplit
    rw [if_neg (not_not.2 hcontent), hchunks, hsplit]
    rfl
  · obtain ⟨failure, hsplit⟩ := exists_split_error hpositive hread hcontent start
    rw [if_pos hcontent, hsplit]
    exact congrArg (fun fault => Except.ok (Except.error fault)) (hfault _ _).symm

end

/-! ### Elements -/

/-- Splits the content of a packed value, for the wire type that the field type is written with. -/
def splitPacked (type : FieldType) (start : Nat) (content : Bytes) :
    Except Fault (Except DecodeError (List Located)) := do
  match type.wireType? with
  | some .varint => return (← splitVarints start content).mapError (.packed type)
  | some .fixed64 => return (← splitFixed 8 fixed64 start content).mapError (.packed type)
  | some .fixed32 => return (← splitFixed 4 fixed32 start content).mapError (.packed type)
  | _ => return .error (.notPackable type)

/-- Reads the elements of a packed value. The length of each of them is taken. -/
def readPacked (options : Options) (enumType : Option EnumType) (type : FieldType) (start : Nat) (content : Bytes) :
    Except Fault (Except DecodeError (List Element)) := do
  match ← splitPacked type start content with
  | .error error => return .error error
  | .ok values =>
    forM values fun located => discard (length located.span)
    return values.mapM (Packed.readElement options enumType type)

theorem splitPacked_eq {type : FieldType} {wireType : WireType} (hpackable : type.isPackable = true)
    (hkind : type.wireType? = some wireType) {start : Nat} {content : Bytes} (hroom : start + content.length < 2 ^ 64) :
    splitPacked type start content = .ok ((Packed.split wireType start content).mapError fun failure =>
      .packed type (Packed.fault wireType content.length failure.1 failure.2)) := by
  have hmapError : ∀ result : Except (Nat × DecodeError) (List Located),
      (result.mapError fun failure => Packed.fault wireType content.length failure.1 failure.2).mapError
        (DecodeError.packed type) = result.mapError fun failure =>
          .packed type (Packed.fault wireType content.length failure.1 failure.2) := by
    intro result
    cases result <;> rfl
  rw [splitPacked, ← hmapError]
  cases wireType with
  | varint => simp only [hkind, splitVarints_eq hroom content.length, ok_bind, pure_eq_ok]
  | fixed64 =>
    have hread : ∀ start window,
        Payload.read .fixed64 start window = Payload.ofWidth 8 start window (fixed64 (window.take 8)) :=
      fun _ _ => rfl
    have hfault : ∀ offset cause, Packed.fault .fixed64 content.length offset cause = .width content.length 8 :=
      fun _ _ => rfl
    simp only [hkind, splitFixed_eq (show 0 < 8 by decide) hread hroom hfault, ok_bind, pure_eq_ok]
  | fixed32 =>
    have hread : ∀ start window,
        Payload.read .fixed32 start window = Payload.ofWidth 4 start window (fixed32 (window.take 4)) :=
      fun _ _ => rfl
    have hfault : ∀ offset cause, Packed.fault .fixed32 content.length offset cause = .width content.length 4 :=
      fun _ _ => rfl
    simp only [hkind, splitFixed_eq (show 0 < 4 by decide) hread hroom hfault, ok_bind, pure_eq_ok]
  | _ => simp [FieldType.isPackable, hkind] at hpackable

theorem splitPacked_of_not_isPackable {type : FieldType} (h : type.isPackable = false) (start : Nat) (content : Bytes) :
    splitPacked type start content = .ok (.error (.notPackable type)) := by
  cases type <;> first | rfl | cases h

theorem forM_length {values : List Located} (h : ∀ located ∈ values, located.span.start ≤ located.span.stop) :
    (forM values fun located => discard (length located.span)) = .ok () := by
  induction values with
  | nil => rfl
  | cons located values ih =>
    obtain ⟨hlocated, hvalues⟩ := List.forall_mem_cons.1 h
    rw [List.forM_cons, length_of_le hlocated, ih hvalues]
    rfl

theorem ordered_of_split {wireType : WireType} {start : Nat} {content : Bytes} {values : List Located}
    (h : Packed.split wireType start content = .ok values) :
    ∀ located ∈ values, located.span.start ≤ located.span.stop := by
  obtain ⟨bodies, -, -, rfl⟩ := Packed.exists_bodies_of_split h
  clear h
  induction bodies generalizing start with
  | nil => simp [ItemBody.locate]
  | cons body bodies ih => exact List.forall_mem_cons.2 ⟨Nat.le_add_right _ _, ih⟩

theorem readPacked_eq (options : Options) (enumType : Option EnumType) (type : FieldType) {start : Nat}
    {content : Bytes} (hroom : start + content.length < 2 ^ 64) :
    readPacked options enumType type start content = .ok (Packed.read options enumType type start content) := by
  rw [readPacked, Packed.read]
  cases hpackable : type.isPackable with
  | false => rw [splitPacked_of_not_isPackable hpackable]; rfl
  | true =>
    obtain ⟨wireType, hkind⟩ : ∃ wireType, type.wireType? = some wireType := by
      cases type <;> first | exact ⟨_, rfl⟩ | cases hpackable
    rw [splitPacked_eq hpackable hkind hroom]
    simp only [hkind]
    cases hsplit : Packed.split wireType start content with
    | error failure => rfl
    | ok values =>
      simp only [Except.mapError, ok_bind, forM_length (ordered_of_split hsplit)]
      rfl

end WireTree.Checked
