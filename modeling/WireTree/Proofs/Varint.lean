import Mathlib.Data.Nat.Digits.Defs
import WireTree.Varint

/-!
# How varints are spelled

A spelling is a row of bytes whose high bit is set on all but the last, ten of them at most. The reader accepts exactly
the bytes that begin with a spelling, and gives its sum of groups modulo 2^64. No spelling begins another one, so the
bytes settle which spelling they begin with. Every number of 64 bits has a shortest spelling.
-/

namespace WireTree.Varint

/-- The sum of the groups of seven bits, least significant first. -/
def groupSum (bytes : Bytes) : Nat := Nat.ofDigits 128 (bytes.map fun byte => byte.toNat % 128)

@[simp] theorem groupSum_nil : groupSum [] = 0 := rfl

@[simp] theorem groupSum_cons (byte : UInt8) (rest : Bytes) :
    groupSum (byte :: rest) = byte.toNat % 128 + 128 * groupSum rest := by
  simp [groupSum, Nat.ofDigits_cons]

/-- The bytes of a varint: the high bit is set on all of `front` and not on `last`. -/
@[ext] structure Spelling where
  front : Bytes
  last : UInt8
  continues : ∀ byte ∈ front, ¬ byte < 128
  ends : last < 128
  short : front.length < maxLength

namespace Spelling

def bytes (spelling : Spelling) : Bytes := spelling.front ++ [spelling.last]

/-- The number that the bytes spell, which is the sum of the groups modulo 2^64. -/
def value (spelling : Spelling) : UInt64 := UInt64.ofNat (groupSum spelling.bytes)

@[simp] theorem length_bytes (spelling : Spelling) : spelling.bytes.length = spelling.front.length + 1 := by
  simp [bytes]

theorem front_unique {front front' : Bytes} {last last' : UInt8} {rest rest' : Bytes}
    (hfront : ∀ byte ∈ front, ¬ byte < 128) (hfront' : ∀ byte ∈ front', ¬ byte < 128)
    (hlast : last < 128) (hlast' : last' < 128) (h : front ++ last :: rest = front' ++ last' :: rest') :
    front = front' ∧ last = last' ∧ rest = rest' := by
  induction front generalizing front' with
  | nil =>
    cases front' with
    | nil =>
      simp only [List.nil_append, List.cons.injEq] at h
      exact ⟨rfl, h⟩
    | cons byte front' =>
      simp only [List.nil_append, List.cons_append, List.cons.injEq] at h
      exact absurd (h.1 ▸ hlast) (hfront' byte List.mem_cons_self)
  | cons byte front ih =>
    cases front' with
    | nil =>
      simp only [List.nil_append, List.cons_append, List.cons.injEq] at h
      exact absurd (h.1 ▸ hlast') (hfront byte List.mem_cons_self)
    | cons byte' front' =>
      simp only [List.cons_append, List.cons.injEq] at h
      obtain ⟨hsame, hrest⟩ := ih (fun b hb => hfront b (List.mem_cons_of_mem _ hb))
        (fun b hb => hfront' b (List.mem_cons_of_mem _ hb)) h.2
      exact ⟨by rw [h.1, hsame], hrest⟩

theorem append_inj {left right : Spelling} {rest rest' : Bytes} (h : left.bytes ++ rest = right.bytes ++ rest') :
    left = right ∧ rest = rest' := by
  simp only [bytes, List.append_assoc, List.cons_append, List.nil_append] at h
  obtain ⟨hfront, hlast, hrest⟩ := front_unique left.continues right.continues left.ends right.ends h
  exact ⟨Spelling.ext hfront hlast, hrest⟩

end Spelling

/-! ### Reading -/

theorem readGroups_append {limit : Nat} {front : Bytes} {last : UInt8} (rest : Bytes)
    (hfront : ∀ byte ∈ front, ¬ byte < 128) (hlast : last < 128) (hlimit : front.length < limit) :
    readGroups limit (front ++ last :: rest) = .ok (groupSum (front ++ [last]), front.length + 1) := by
  induction front generalizing limit with
  | nil =>
    obtain ⟨limit, rfl⟩ := Nat.exists_eq_add_of_lt hlimit
    have hsmall : last.toNat < 128 := hlast
    simp [readGroups, hlast, Nat.mod_eq_of_lt hsmall]
  | cons byte front ih =>
    obtain ⟨limit, rfl⟩ : ∃ fewer, limit = fewer + 1 := ⟨limit - 1, by omega⟩
    have hbyte : ¬ byte < 128 := hfront byte List.mem_cons_self
    have hshort : front.length < limit := by simpa using hlimit
    have hrest := ih (fun b hb => hfront b (List.mem_cons_of_mem _ hb)) hshort
    simp [readGroups, hbyte, hrest]

theorem exists_of_readGroups {limit : Nat} {bytes : Bytes} {sum count : Nat}
    (h : readGroups limit bytes = .ok (sum, count)) :
    ∃ front last rest, bytes = front ++ last :: rest ∧ (∀ byte ∈ front, ¬ byte < 128) ∧ last < 128 ∧
      front.length < limit := by
  induction limit generalizing bytes sum count with
  | zero => simp [readGroups] at h
  | succ limit ih =>
    cases bytes with
    | nil => simp [readGroups] at h
    | cons byte rest =>
      by_cases hbyte : byte < 128
      · exact ⟨[], byte, rest, rfl, by simp, hbyte, by simp⟩
      · simp only [readGroups, hbyte, if_false] at h
        split at h
        · cases h
        · rename_i heq
          obtain ⟨front, last, rest', rfl, hfront, hlast, hlimit⟩ := ih heq
          refine ⟨byte :: front, last, rest', rfl, ?_, hlast, by simpa using hlimit⟩
          intro b hb
          rcases List.mem_cons.1 hb with rfl | hb
          · exact hbyte
          · exact hfront b hb

@[simp] theorem read_append (spelling : Spelling) (rest : Bytes) :
    read (spelling.bytes ++ rest) = .ok ⟨spelling.value, spelling.bytes.length⟩ := by
  have h := readGroups_append rest spelling.continues spelling.ends spelling.short
  simp only [read, Spelling.bytes, List.append_assoc, List.cons_append, List.nil_append, h]
  simp [Spelling.value, Spelling.bytes]

/-- The bytes that can be read are those that begin with a spelling. -/
theorem read_eq_ok_iff {bytes : Bytes} {varint : Varint} :
    read bytes = .ok varint ↔
      ∃ (spelling : Spelling) (rest : Bytes), bytes = spelling.bytes ++ rest ∧
        varint = ⟨spelling.value, spelling.bytes.length⟩ := by
  constructor
  · intro h
    have hgroups : ∃ sum count, readGroups maxLength bytes = .ok (sum, count) := by
      simp only [read] at h
      split at h
      · cases h
      · exact ⟨_, _, ‹_›⟩
    obtain ⟨sum, count, hgroups⟩ := hgroups
    obtain ⟨front, last, rest, rfl, hfront, hlast, hshort⟩ := exists_of_readGroups hgroups
    let spelling : Spelling := ⟨front, last, hfront, hlast, hshort⟩
    have hbytes : front ++ last :: rest = spelling.bytes ++ rest := by simp [Spelling.bytes, spelling]
    refine ⟨spelling, rest, hbytes, ?_⟩
    rw [hbytes, read_append, Except.ok.injEq] at h
    exact h.symm
  · rintro ⟨spelling, rest, rfl, rfl⟩
    exact read_append spelling rest

/-! ### Bytes that cannot be read -/

theorem readGroups_eq_truncated_iff {limit : Nat} {bytes : Bytes} :
    readGroups limit bytes = .error .truncated ↔ bytes.length < limit ∧ ∀ byte ∈ bytes, ¬ byte < 128 := by
  induction limit generalizing bytes with
  | zero => simp [readGroups]
  | succ limit ih =>
    cases bytes with
    | nil => simp [readGroups]
    | cons byte rest =>
      by_cases hbyte : byte < 128
      · simp [readGroups, hbyte]
      · rw [List.length_cons, Nat.succ_lt_succ_iff, List.forall_mem_cons, and_iff_right hbyte, ← ih]
        simp only [readGroups, if_neg hbyte]
        cases readGroups limit rest <;> simp

theorem readGroups_eq_overlong_iff {limit : Nat} {bytes : Bytes} :
    readGroups limit bytes = .error .overlong ↔ limit ≤ bytes.length ∧ ∀ byte ∈ bytes.take limit, ¬ byte < 128 := by
  induction limit generalizing bytes with
  | zero => simp [readGroups]
  | succ limit ih =>
    cases bytes with
    | nil => simp [readGroups]
    | cons byte rest =>
      by_cases hbyte : byte < 128
      · simp [readGroups, hbyte]
      · rw [List.length_cons, Nat.succ_le_succ_iff, List.take_succ_cons, List.forall_mem_cons, and_iff_right hbyte, ← ih]
        simp only [readGroups, if_neg hbyte]
        cases readGroups limit rest <;> simp

theorem read_eq_error_iff {bytes : Bytes} {error : ReadError} :
    read bytes = .error error ↔ readGroups maxLength bytes = .error error := by
  rw [read]
  cases readGroups maxLength bytes <;> simp

theorem read_eq_truncated_iff {bytes : Bytes} :
    read bytes = .error .truncated ↔ bytes.length < maxLength ∧ ∀ byte ∈ bytes, ¬ byte < 128 := by
  rw [read_eq_error_iff, readGroups_eq_truncated_iff]

theorem read_eq_overlong_iff {bytes : Bytes} :
    read bytes = .error .overlong ↔ maxLength ≤ bytes.length ∧ ∀ byte ∈ bytes.take maxLength, ¬ byte < 128 := by
  rw [read_eq_error_iff, readGroups_eq_overlong_iff]

theorem exists_error_iff {bytes : Bytes} :
    (∃ error, read bytes = .error error) ↔ ∀ (spelling : Spelling) (rest : Bytes), bytes ≠ spelling.bytes ++ rest := by
  constructor
  · rintro ⟨error, herror⟩ spelling rest rfl
    rw [read_append] at herror
    cases herror
  · intro hnone
    cases hread : read bytes with
    | error error => exact ⟨error, rfl⟩
    | ok varint =>
      obtain ⟨spelling, rest, hbytes, -⟩ := read_eq_ok_iff.1 hread
      exact absurd hbytes (hnone spelling rest)

/-! ### Writing -/

/-- The groups of a number, as many as it needs, but no more than `limit`. -/
def encodeGroups : (limit : Nat) → (number : Nat) → Bytes
  | 0, _ => []
  | limit + 1, number =>
    if number < 128 then [UInt8.ofNat number]
    else UInt8.ofNat (number % 128 + 128) :: encodeGroups limit (number / 128)

/-- The shortest bytes that spell a number. -/
def encode (value : UInt64) : Bytes := encodeGroups maxLength value.toNat

theorem rest_of_groups {limit number : Nat} (hnumber : number < 128 ^ (limit + 1)) (hlarge : ¬ number < 128) :
    0 < limit ∧ number / 128 < 128 ^ limit := by
  rw [Nat.pow_succ] at hnumber
  refine ⟨?_, by omega⟩
  by_contra hzero
  obtain rfl : limit = 0 := by omega
  omega

theorem exists_of_encodeGroups {limit number : Nat} (hlimit : 0 < limit) (hnumber : number < 128 ^ limit) :
    ∃ front last, encodeGroups limit number = front ++ [last] ∧ (∀ byte ∈ front, ¬ byte < 128) ∧ last < 128 ∧
      front.length < limit ∧ groupSum (front ++ [last]) = number := by
  induction limit generalizing number with
  | zero => omega
  | succ limit ih =>
    by_cases hsmall : number < 128
    · have hbyte : (UInt8.ofNat number).toNat = number := by
        rw [UInt8.toNat_ofNat']
        omega
      refine ⟨[], UInt8.ofNat number, by simp [encodeGroups, hsmall], by simp, ?_, by simp, ?_⟩
      · rw [UInt8.lt_iff_toNat_lt, hbyte]
        exact hsmall
      · simp only [List.nil_append, groupSum_cons, groupSum_nil, hbyte]
        omega
    · obtain ⟨hlimit, hrest⟩ := rest_of_groups hnumber hsmall
      obtain ⟨front, last, hgroups, hfront, hlast, hshort, hsum⟩ := ih hlimit hrest
      have hbyte : (UInt8.ofNat (number % 128 + 128)).toNat = number % 128 + 128 := by
        rw [UInt8.toNat_ofNat']
        omega
      refine ⟨UInt8.ofNat (number % 128 + 128) :: front, last, by simp [encodeGroups, hsmall, hgroups], ?_, hlast,
        by simpa using hshort, ?_⟩
      · intro byte hmem
        rcases List.mem_cons.1 hmem with rfl | hmem
        · rw [UInt8.lt_iff_toNat_lt, hbyte]
          show ¬ number % 128 + 128 < 128
          omega
        · exact hfront byte hmem
      · rw [List.cons_append, groupSum_cons, hsum, hbyte]
        omega

theorem exists_spelling (value : UInt64) :
    ∃ spelling : Spelling, spelling.bytes = encode value ∧ spelling.value = value := by
  have hvalue : value.toNat < 128 ^ maxLength := by
    have := value.toNat_lt
    simp only [maxLength]
    omega
  obtain ⟨front, last, hgroups, hfront, hlast, hshort, hsum⟩ := exists_of_encodeGroups (by decide) hvalue
  refine ⟨⟨front, last, hfront, hlast, hshort⟩, hgroups.symm, ?_⟩
  simp only [Spelling.value, Spelling.bytes, hsum, UInt64.ofNat_toNat]

theorem length_encodeGroups_le {limit number count : Nat} (hcount : 0 < count) (hnumber : number < 128 ^ count) :
    (encodeGroups limit number).length ≤ count := by
  induction limit generalizing number count with
  | zero => simp [encodeGroups]
  | succ limit ih =>
    by_cases hsmall : number < 128
    · simp only [encodeGroups, if_pos hsmall, List.length_singleton]
      omega
    · obtain ⟨fewer, rfl⟩ : ∃ fewer, count = fewer + 1 := ⟨count - 1, by omega⟩
      obtain ⟨hfewer, hrest⟩ := rest_of_groups hnumber hsmall
      simpa [encodeGroups, hsmall] using ih hfewer hrest

theorem length_encode_le (spelling : Spelling) : (encode spelling.value).length ≤ spelling.bytes.length := by
  refine length_encodeGroups_le (by simp) ?_
  have hsum : groupSum spelling.bytes < 128 ^ spelling.bytes.length := by
    have hdigits : ∀ digit ∈ spelling.bytes.map fun byte => byte.toNat % 128, digit < 128 := by
      intro digit hdigit
      obtain ⟨byte, -, rfl⟩ := List.mem_map.1 hdigit
      exact Nat.mod_lt _ (by decide)
    have hlength := Nat.ofDigits_lt_base_pow_length (by decide : 1 < 128) hdigits
    rwa [List.length_map] at hlength
  have hle : spelling.value.toNat ≤ groupSum spelling.bytes := by
    rw [Spelling.value, UInt64.toNat_ofNat']
    exact Nat.mod_le _ _
  omega

end WireTree.Varint
