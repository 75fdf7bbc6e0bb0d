import Mathlib.Algebra.BigOperators.Fin
import Mathlib.Order.Interval.Finset.Fin
import WireTree.Proofs.Checked.Wire

/-!
# Varints byte by byte

A varint ends with the first byte whose high bit is not set, if that is one of the first ten. Its number is the sum of the
groups up to there modulo 2^64, where a group counts 128 times as much for each byte in front of it. What is read depends on
the bytes up to that one only, so bytes behind change it just where there are fewer than ten and all announce another one.
The shortest bytes that spell a number are read as that number, and no operation on the way fails.
-/

namespace WireTree.Varint

/-! ### The last byte -/

/-- The varint at the front of the bytes ends with the byte `last`, the first that does not announce another one. -/
structure EndsAt (bytes : Bytes) (last : Fin bytes.length) : Prop where
  continues : ∀ index < last, ¬ bytes[index] < 128
  ends : bytes[last] < 128
  short : last.val < maxLength

namespace EndsAt

variable {bytes : Bytes} {last : Fin bytes.length}

/-- The bytes up to the last one of the varint. -/
def spelling (h : EndsAt bytes last) : Spelling where
  front := bytes.take last
  last := bytes[last]
  continues byte hbyte := by
    obtain ⟨index, hindex, rfl⟩ := List.mem_take_iff_getElem.1 hbyte
    exact h.continues ⟨index, by omega⟩ (Nat.lt_of_lt_of_le hindex (Nat.min_le_left _ _))
  ends := h.ends
  short := Nat.lt_of_le_of_lt (List.length_take_le _ _) h.short

theorem bytes_spelling (h : EndsAt bytes last) : h.spelling.bytes = bytes.take (last + 1) :=
  (List.take_succ_eq_append_getElem last.isLt).symm

theorem read_eq (h : EndsAt bytes last) :
    read bytes = .ok ⟨UInt64.ofNat (groupSum (bytes.take (last + 1))), last + 1⟩ := by
  have hlength : h.spelling.bytes.length = last + 1 := by
    rw [h.bytes_spelling, List.length_take_of_le last.isLt]
  have hread := read_append h.spelling (bytes.drop (last + 1))
  rwa [Spelling.value, hlength, h.bytes_spelling, List.take_append_drop] at hread

end EndsAt

theorem exists_endsAt_append (spelling : Spelling) (rest : Bytes) :
    ∃ last, EndsAt (spelling.bytes ++ rest) last := by
  have hsplit : spelling.bytes ++ rest = spelling.front ++ spelling.last :: rest := by simp [Spelling.bytes]
  rw [hsplit]
  refine ⟨⟨spelling.front.length, by simp⟩, ?_, ?_, spelling.short⟩
  · intro index hindex
    have hindex : index.val < spelling.front.length := hindex
    rw [Fin.getElem_fin, List.getElem_append_left hindex]
    exact spelling.continues _ (List.getElem_mem hindex)
  · simpa using spelling.ends

/-! ### The sum of the groups -/

theorem sum_le_succ {length : Nat} (f : Fin (length + 1) → Nat) (last : Fin length) :
    ∑ index ≤ last.succ, f index = f 0 + ∑ index ≤ last, f index.succ := by
  simp only [← Finset.filter_ge_eq_Iic, Finset.sum_filter, Fin.sum_univ_succ, Fin.zero_le, if_true,
    Fin.succ_le_succ_iff]

theorem groupSum_take_succ (bytes : Bytes) (last : Fin bytes.length) :
    groupSum (bytes.take (last + 1)) = ∑ index ≤ last, bytes[index].toNat % 128 * 128 ^ index.val := by
  induction bytes with
  | nil => exact last.elim0
  | cons byte rest ih =>
    cases last using Fin.cases with
    | zero =>
      have hfirst : Finset.Iic (0 : Fin (rest.length + 1)) = {0} := Finset.Iic_bot
      rw [hfirst, Finset.sum_singleton]
      simp
    | succ last =>
      have hshift : ∀ index : Fin rest.length, 128 * (rest[index].toNat % 128 * 128 ^ index.val) =
          rest[index].toNat % 128 * 128 ^ (index.val + 1) := by
        intro index
        rw [Nat.pow_succ', Nat.mul_left_comm]
      calc groupSum ((byte :: rest).take (last.succ + 1))
        _ = byte.toNat % 128 + 128 * ∑ index ≤ last, rest[index].toNat % 128 * 128 ^ index.val := by
          rw [Fin.val_succ, List.take_succ_cons, groupSum_cons, ih]
        _ = byte.toNat % 128 * 128 ^ 0 + ∑ index ≤ last, rest[index].toNat % 128 * 128 ^ (index.val + 1) := by
          simp only [Finset.mul_sum, hshift, Nat.pow_zero, Nat.mul_one]
        _ = ∑ index ≤ last.succ, (byte :: rest)[index].toNat % 128 * 128 ^ index.val :=
          (sum_le_succ (fun index => (byte :: rest)[index].toNat % 128 * 128 ^ index.val) last).symm

theorem read_eq_ok_iff_endsAt {bytes : Bytes} {value : UInt64} {count : Nat} :
    read bytes = .ok ⟨value, count⟩ ↔
      ∃ last, EndsAt bytes last ∧ count = last + 1 ∧
        value.toNat = (∑ index ≤ last, bytes[index].toNat % 128 * 128 ^ index.val) % 2 ^ 64 := by
  constructor
  · intro h
    obtain ⟨last, hlast⟩ : ∃ last, EndsAt bytes last := by
      obtain ⟨spelling, rest, rfl, -⟩ := read_eq_ok_iff.1 h
      exact exists_endsAt_append spelling rest
    rw [hlast.read_eq, Except.ok.injEq, Varint.mk.injEq] at h
    obtain ⟨rfl, rfl⟩ := h
    exact ⟨last, hlast, rfl, by rw [UInt64.toNat_ofNat', groupSum_take_succ]⟩
  · rintro ⟨last, hlast, rfl, hvalue⟩
    rw [hlast.read_eq, Except.ok.injEq, Varint.mk.injEq]
    exact ⟨UInt64.toNat_inj.1 (by rw [UInt64.toNat_ofNat', groupSum_take_succ, hvalue]), rfl⟩

/-! ### The bytes behind -/

theorem readGroups_take (limit : Nat) (bytes : Bytes) :
    readGroups limit (bytes.take limit) = readGroups limit bytes := by
  induction limit generalizing bytes with
  | zero => rfl
  | succ limit ih =>
    cases bytes with
    | nil => rfl
    | cons byte rest => rw [List.take_succ_cons, readGroups, readGroups, ih]

theorem read_take (bytes : Bytes) : read (bytes.take maxLength) = read bytes := by
  rw [read, read, readGroups_take]

theorem read_congr {bytes other : Bytes} {varint : Varint} (h : read bytes = .ok varint)
    (hsame : other.take varint.length = bytes.take varint.length) : read other = .ok varint := by
  obtain ⟨spelling, rest, rfl, rfl⟩ := read_eq_ok_iff.1 h
  rw [List.take_left] at hsame
  rw [← List.take_append_drop spelling.bytes.length other, hsame, read_append]

theorem read_append_of_ne_truncated {bytes : Bytes} (h : read bytes ≠ .error .truncated) (more : Bytes) :
    read (bytes ++ more) = read bytes := by
  cases hread : read bytes with
  | ok varint => exact read_congr hread (List.take_append_of_le_length (length_of_read hread).2.2)
  | error error =>
    cases error with
    | truncated => exact absurd hread h
    | overlong =>
      have hlength := (read_eq_overlong_iff.1 hread).1
      rw [← read_take, List.take_append_of_le_length hlength, read_take, hread]

/-! ### The shortest bytes -/

theorem read_encode_append (value : UInt64) (rest : Bytes) :
    read (encode value ++ rest) = .ok ⟨value, (encode value).length⟩ := by
  obtain ⟨spelling, hbytes, hvalue⟩ := exists_spelling value
  rw [← hbytes, read_append, hvalue]

theorem length_encode_le_of_read {bytes : Bytes} {varint : Varint} (h : read bytes = .ok varint) :
    (encode varint.value).length ≤ varint.length := by
  obtain ⟨spelling, rest, -, rfl⟩ := read_eq_ok_iff.1 h
  exact length_encode_le spelling

/-! ### Reading -/

/-- **A varint is the sum of the groups up to the first byte that announces no other**, modulo 2^64. There is none just
where the first ten bytes all announce another one, or where there are fewer and all of them do. No byte behind the last one
of the varint, and none behind the tenth, matters, so bytes that follow change a result only where it was cut short. What is
written for a number is read as it and nothing shorter is, and no shift reaches the width of the word. -/
theorem read_eq_iff (bytes : Bytes) :
    (∀ value count, read bytes = .ok ⟨value, count⟩ ↔
      ∃ last, EndsAt bytes last ∧ count = last + 1 ∧
        value.toNat = (∑ index ≤ last, bytes[index].toNat % 128 * 128 ^ index.val) % 2 ^ 64) ∧
    (read bytes = .error .overlong ↔ maxLength ≤ bytes.length ∧ ∀ byte ∈ bytes.take maxLength, ¬ byte < 128) ∧
    (read bytes = .error .truncated ↔ bytes.length < maxLength ∧ ∀ byte ∈ bytes, ¬ byte < 128) ∧
    (∀ varint, read bytes = .ok varint → ∀ other : Bytes,
      other.take varint.length = bytes.take varint.length → read other = .ok varint) ∧
    (∀ other : Bytes, other.take maxLength = bytes.take maxLength → read other = read bytes) ∧
    (read bytes ≠ .error .truncated → ∀ more, read (bytes ++ more) = read bytes) ∧
    (∀ value rest, read (encode value ++ rest) = .ok ⟨value, (encode value).length⟩) ∧
    (∀ varint, read bytes = .ok varint → (encode varint.value).length ≤ varint.length) ∧
    Checked.readVarint bytes = .ok (read bytes) := by
  refine ⟨fun value count => read_eq_ok_iff_endsAt, read_eq_overlong_iff, read_eq_truncated_iff,
    fun varint hread other hsame => read_congr hread hsame, fun other hsame => ?_, read_append_of_ne_truncated,
    read_encode_append, fun varint hread => length_encode_le_of_read hread, Checked.readVarint_eq bytes⟩
  rw [← read_take other, hsame, read_take]

/-- The largest number in ten bytes, the last of which has a bit that goes out of the word. Behind it stands a byte that
announces another one. -/
theorem read_eq_iff_ten :
    let bytes : Bytes := [255, 255, 255, 255, 255, 255, 255, 255, 255, 3, 128]
    let varint : Varint := ⟨0xffffffffffffffff, 10⟩
    read bytes = .ok varint ∧ (∃ last, EndsAt bytes last ∧ varint.length = last + 1) ∧
      read (bytes.take 10) = .ok varint ∧ read (bytes.take 10 ++ [0]) = read bytes ∧
      read (bytes ++ [0]) = read bytes ∧ (encode varint.value).length ≤ 10 ∧
      Checked.readVarint bytes = .ok (.ok varint) := by
  intro bytes varint
  have hread : read bytes = .ok varint := by decide
  obtain ⟨hok, -, -, hfront, hten, hmore, -, hshortest, hchecked⟩ := read_eq_iff bytes
  obtain ⟨last, hlast, hcount, -⟩ := (hok _ _).1 hread
  exact ⟨hread, ⟨last, hlast, hcount⟩, hfront varint hread _ rfl, hten _ rfl, hmore (by rw [hread]; simp) [0],
    hshortest varint hread, hread ▸ hchecked⟩

end WireTree.Varint
