import WireTree.Proofs.Checked.Machine

/-!
# Reading the wire in words

Varints, tags and payloads read from offsets of the whole buffer, with every sum, shift and range checked. A buffer of less
than 2^63 bytes leaves room for all of them, so nothing fails and what is read is what `Varint.read`, `Tag.readAt` and
`Payload.readAt` give.
-/

namespace WireTree.Checked

/-! ### Varints -/

/-- Reads the varint whose first `index` groups gave `result`, out of `total` bytes. -/
def readGroups (total index : Nat) (result : UInt64) : Bytes → Except Fault (Except Varint.ReadError Varint)
  | [] => return .error (if Varint.maxLength ≤ total then .overlong else .truncated)
  | byte :: rest =>
    if Varint.maxLength ≤ index then return .error .overlong
    else do
      let amount ← mul index 7
      let group ← shiftLeft (byte &&& 0x7f).toUInt64 amount
      let count ← add index 1
      if byte &&& 0x80 = 0 then return .ok ⟨result ||| group, count⟩
      else readGroups total count (result ||| group) rest

def readVarint (bytes : Bytes) : Except Fault (Except Varint.ReadError Varint) := readGroups bytes.length 0 0 bytes

theorem toNat_and_127 (byte : UInt8) : (byte &&& 0x7f).toNat = byte.toNat % 128 :=
  Nat.and_two_pow_sub_one_eq_mod byte.toNat 7

theorem and_128_eq_zero_iff (byte : UInt8) : byte &&& 0x80 = 0 ↔ byte < 128 := by
  have hbits : ∀ number < 256, number &&& 128 = 0 ↔ number < 128 := by decide +kernel
  have h := hbits byte.toNat byte.toNat_lt
  rw [← UInt8.toNat_inj, UInt8.lt_iff_toNat_lt]
  exact h

theorem or_shiftLeft_mod {result group shift : Nat} (hresult : result < 2 ^ shift) (hshift : shift ≤ 64) :
    result ||| group <<< shift % 2 ^ 64 = (result + 2 ^ shift * group) % 2 ^ 64 := by
  obtain ⟨rest, hrest⟩ := Nat.exists_eq_add_of_le hshift
  -- Of the group the low `rest` bits stay in the word, and there they do not meet the bits of `result`.
  have hkept : group <<< shift % 2 ^ 64 = (group % 2 ^ rest) <<< shift := by
    rw [Nat.shiftLeft_eq, Nat.shiftLeft_eq, hrest, Nat.add_comm, Nat.pow_add, Nat.mul_mod_mul_right]
  have hsmall : result + 2 ^ shift * (group % 2 ^ rest) < 2 ^ 64 := by
    have hgroup := Nat.mod_lt group (Nat.two_pow_pos rest)
    calc result + 2 ^ shift * (group % 2 ^ rest)
      _ < 2 ^ shift * (group % 2 ^ rest + 1) := by rw [Nat.mul_succ]; omega
      _ ≤ 2 ^ shift * 2 ^ rest := Nat.mul_le_mul_left _ hgroup
      _ = 2 ^ 64 := by rw [hrest, Nat.pow_add]
  calc result ||| group <<< shift % 2 ^ 64
    _ = result + 2 ^ shift * (group % 2 ^ rest) := by
      rw [hkept, Nat.or_comm, ← Nat.shiftLeft_add_eq_or_of_lt hresult, Nat.shiftLeft_eq, Nat.add_comm, Nat.mul_comm]
    _ = (result + 2 ^ shift * (group % 2 ^ rest)) % 2 ^ 64 := (Nat.mod_eq_of_lt hsmall).symm
    _ = (result + 2 ^ shift * group) % 2 ^ 64 := by
      rw [Nat.add_mod, Nat.add_mod result (2 ^ shift * group), hrest, Nat.pow_add, Nat.mul_mod_mul_left,
        Nat.mul_mod_mul_left, Nat.mod_mod]

theorem or_shiftLeft {index : Nat} {result : UInt64} (hindex : index < 10) (hresult : result.toNat < 128 ^ index)
    (byte : UInt8) :
    result ||| (byte &&& 0x7f).toUInt64 <<< UInt64.ofNat (index * 7) =
      UInt64.ofNat (result.toNat + 128 ^ index * (byte.toNat % 128)) := by
  have hpow : 128 ^ index = 2 ^ (index * 7) := by rw [Nat.mul_comm, Nat.pow_mul]
  have hamount : (UInt64.ofNat (index * 7)).toNat % 64 = index * 7 := by
    rw [UInt64.toNat_ofNat']
    omega
  rw [hpow] at hresult ⊢
  apply UInt64.toNat_inj.1
  rw [UInt64.toNat_or, UInt64.toNat_shiftLeft, UInt8.toNat_toUInt64, toNat_and_127, hamount, UInt64.toNat_ofNat']
  exact or_shiftLeft_mod hresult (by omega)

theorem toNat_groups_lt {index result : Nat} (hresult : result < 128 ^ index) (byte : UInt8) :
    (UInt64.ofNat (result + 128 ^ index * (byte.toNat % 128))).toNat < 128 ^ (index + 1) := by
  have hgroup : 128 ^ index * (byte.toNat % 128 + 1) ≤ 128 ^ index * 128 :=
    Nat.mul_le_mul_left _ (Nat.mod_lt byte.toNat (by decide))
  rw [UInt64.toNat_ofNat', Nat.pow_succ]
  rw [Nat.mul_succ] at hgroup
  exact Nat.lt_of_le_of_lt (Nat.mod_le _ _) (by omega)

/-- The loop has the groups so far in `result`, and the sum of those that follow is put above them. -/
theorem readGroups_eq {total index : Nat} (result : UInt64) {bytes : Bytes} (htotal : total = index + bytes.length)
    (hindex : index ≤ 10) (hresult : result.toNat < 128 ^ index) :
    readGroups total index result bytes = .ok ((Varint.readGroups (10 - index) bytes).map fun groups =>
      ⟨UInt64.ofNat (result.toNat + 128 ^ index * groups.1), index + groups.2⟩) := by
  induction bytes generalizing index result with
  | nil =>
    simp only [List.length_nil, Nat.add_zero] at htotal
    simp only [readGroups, Varint.maxLength, htotal, pure_eq_ok]
    rcases Nat.eq_or_lt_of_le hindex with rfl | hindex
    · rfl
    · rw [if_neg (Nat.not_le.2 hindex), show 10 - index = 9 - index + 1 by omega]
      rfl
  | cons byte rest ih =>
    rcases Nat.eq_or_lt_of_le hindex with rfl | hindex
    · rfl
    · have hlimit : 10 - index = 10 - (index + 1) + 1 := by omega
      have hsum := or_shiftLeft hindex hresult byte
      rw [readGroups, Varint.maxLength, if_neg (Nat.not_le.2 hindex), mul_of_lt (by omega), ok_bind,
        shiftLeft_of_lt _ (by omega), ok_bind, add_of_lt (by omega), ok_bind, hsum, hlimit, Varint.readGroups]
      simp only [and_128_eq_zero_iff]
      split
      · rename_i hlast
        have hbyte : byte.toNat % 128 = byte.toNat := Nat.mod_eq_of_lt hlast
        rw [hbyte]
        rfl
      · rw [ih _ (by rw [htotal, List.length_cons]; omega) hindex (toNat_groups_lt hresult byte)]
        cases Varint.readGroups (10 - (index + 1)) rest with
        | error error => rfl
        | ok groups =>
          simp only [Except.map, Except.ok.injEq, Varint.mk.injEq]
          refine ⟨?_, by omega⟩
          apply UInt64.toNat_inj.1
          rw [UInt64.toNat_ofNat', UInt64.toNat_ofNat', UInt64.toNat_ofNat', Nat.mod_add_mod, Nat.pow_succ, Nat.mul_add,
            Nat.mul_assoc, Nat.add_assoc]

theorem readVarint_eq (bytes : Bytes) : readVarint bytes = .ok (Varint.read bytes) := by
  have hgroups := readGroups_eq 0 (Nat.zero_add bytes.length).symm (Nat.zero_le 10) Nat.one_pos
  rw [readVarint, hgroups, Varint.read, Varint.maxLength]
  cases Varint.readGroups 10 bytes with
  | error error => rfl
  | ok groups => simp [Except.map]

/-! ### Tags -/

/-- The bytes from `offset` on, no more than `limit` of them. -/
def window (data : Bytes) (offset limit : Nat) : Except Fault Bytes :=
  slice data (min offset data.length) (min (saturatingAdd offset limit) data.length)

def readTag (data : Bytes) (offset limit : Nat) : Except Fault (Except DecodeError Tag) := do
  let bytes ← window data offset limit
  match ← readVarint bytes with
  | .error _ => return .error (.malformedTag offset)
  | .ok varint => return .ok ⟨varint.value.toNat / 8, varint.value.toNat % 8, varint.length⟩

theorem window_eq {data : Bytes} (hdata : data.length < 2 ^ 63) (offset limit : Nat) :
    window data offset limit = .ok ((data.drop offset).take limit) := by
  have hordered : min offset data.length ≤ min (saturatingAdd offset limit) data.length := by
    unfold saturatingAdd
    omega
  rw [window, slice_of_le hordered (Nat.min_le_right _ _), Span.slice, List.drop_take]
  refine congrArg Except.ok ?_
  rcases Nat.le_total offset data.length with hoffset | hoffset
  · simp only [Nat.min_eq_left hoffset]
    rw [List.take_eq_take_iff, List.length_drop, saturatingAdd]
    omega
  · simp only [Nat.min_eq_right hoffset]
    rw [List.drop_length, List.drop_of_length_le hoffset, List.take_nil, List.take_nil]

theorem readTag_eq {data : Bytes} (hdata : data.length < 2 ^ 63) (offset limit : Nat) :
    readTag data offset limit = .ok (Tag.readAt data offset limit) := by
  rw [readTag, window_eq hdata, ok_bind, readVarint_eq, ok_bind, Tag.readAt, Tag.read]
  cases Varint.read ((data.drop offset).take limit) <;> rfl

/-! ### Payloads -/

/-- Reads a varint from the bytes at `offset`. -/
def readNumber (offset available : Nat) (bytes : Bytes) : Except Fault (Except DecodeError Located) := do
  match ← readVarint bytes with
  | .error .truncated => return .error (.truncated offset (← add available 1) available)
  | .error .overlong => return .error (.overlongVarint offset)
  | .ok number => return .ok ⟨.varint number.value, 0, ← span offset (← add offset number.length)⟩

def fixed64 (content : Bytes) : Payload := .fixed64 (UInt64.ofNat (LittleEndian.decode content))

def fixed32 (content : Bytes) : Payload := .fixed32 (UInt32.ofNat (LittleEndian.decode content))

/-- Reads a value of `width` bytes from the bytes at `offset`. -/
def readFixed (width : Nat) (read : Bytes → Payload) (offset available : Nat) (bytes : Bytes) :
    Except Fault (Except DecodeError Located) := do
  if available < width then return .error (.truncated offset width available)
  let span ← span offset (← add offset width)
  return .ok ⟨read (← slice bytes 0 width), 0, span⟩

/-- Reads a length, and as much content, from the bytes at `offset`, which end before `stop`. -/
def readDelimited (data : Bytes) (offset stop : Nat) (bytes : Bytes) :
    Except Fault (Except DecodeError Located) := do
  match ← readVarint bytes with
  | .error _ => return .error (.malformedLength offset)
  | .ok length =>
    let start ← add offset length.length
    let remaining ← sub stop start
    if remaining < length.value.toNat then return .error (.truncated start length.value.toNat remaining)
    let span ← span start (← add start length.value.toNat)
    return .ok ⟨.bytes (← slice data span.start span.stop), length.length, span⟩

/-- Reads the value at `offset`, which has to end before `stop`. -/
def readPayload (data : Bytes) (offset stop : Nat) (wireType : WireType) :
    Except Fault (Except DecodeError Located) := do
  let stop := min stop data.length
  let available := stop - offset
  let bytes ← window data offset available
  match wireType with
  | .varint => readNumber offset available bytes
  | .fixed64 => readFixed 8 fixed64 offset available bytes
  | .fixed32 => readFixed 4 fixed32 offset available bytes
  | .lengthDelimited => readDelimited data offset stop bytes
  | .startGroup | .endGroup => return .error (.unsupportedWireType wireType.raw)

theorem readNumber_eq {offset : Nat} {bytes : Bytes} (hroom : offset + bytes.length < 2 ^ 63) :
    readNumber offset bytes.length bytes = .ok (Payload.read .varint offset bytes) := by
  simp only [readNumber, readVarint_eq, ok_bind, Payload.read]
  cases hread : Varint.read bytes with
  | error error =>
    cases error with
    | truncated =>
      simp only [add_of_lt (show bytes.length + 1 < 2 ^ 64 by omega)]
      rfl
    | overlong => rfl
  | ok number =>
    have hwithin := (Varint.length_of_read hread).2.2
    simp only [add_of_lt (show offset + number.length < 2 ^ 64 by omega), ok_bind,
      span_of_le (Nat.le_add_right offset number.length)]
    rfl

theorem readFixed_eq {width : Nat} {read : Bytes → Payload} {offset : Nat} {bytes : Bytes}
    (hroom : offset + bytes.length < 2 ^ 63) :
    readFixed width read offset bytes.length bytes =
      .ok (Payload.ofWidth width offset bytes (read (bytes.take width))) := by
  unfold readFixed Payload.ofWidth
  by_cases hwidth : width ≤ bytes.length
  · rw [if_neg (Nat.not_lt.2 hwidth), if_pos hwidth, add_of_lt (by omega), ok_bind, span_of_le (Nat.le_add_right _ _),
      ok_bind, slice_of_le (Nat.zero_le width) hwidth]
    rfl
  · rw [if_pos (Nat.lt_of_not_le hwidth), if_neg hwidth]
    rfl

theorem slice_window (data : Bytes) (offset stop skip count : Nat)
    (h : skip + count ≤ ((data.take stop).drop offset).length) :
    Span.slice ⟨offset + skip, offset + skip + count⟩ data = (((data.take stop).drop offset).drop skip).take count := by
  have hcount : count ≤ stop - (offset + skip) := by
    rw [List.length_drop, List.length_take] at h
    omega
  rw [List.drop_drop, Span.slice_eq_take data hcount]

theorem readDelimited_eq {data : Bytes} (hdata : data.length < 2 ^ 63) {offset stop : Nat} (hordered : offset ≤ stop)
    (hwithin : stop ≤ data.length) :
    readDelimited data offset stop ((data.take stop).drop offset) =
      .ok (Payload.read .lengthDelimited offset ((data.take stop).drop offset)) := by
  have hslice := slice_window data offset stop
  have hlength : ((data.take stop).drop offset).length = stop - offset := by
    rw [List.length_drop, List.length_take, Nat.min_eq_left hwithin]
  generalize (data.take stop).drop offset = bytes at *
  simp only [readDelimited, readVarint_eq, ok_bind, Payload.read]
  cases hread : Varint.read bytes with
  | error error => rfl
  | ok length =>
    have hprefix := (Varint.length_of_read hread).2.2
    simp only [add_of_lt (show offset + length.length < 2 ^ 64 by omega), ok_bind,
      sub_of_le (show offset + length.length ≤ stop by omega), List.length_drop, hlength, Nat.sub_sub]
    by_cases hfits : length.value.toNat ≤ stop - (offset + length.length)
    · simp only [if_neg (Nat.not_lt.2 hfits), if_pos hfits, ok_bind,
        add_of_lt (show offset + length.length + length.value.toNat < 2 ^ 64 by omega),
        span_of_le (Nat.le_add_right (offset + length.length) _),
        slice_of_le (Nat.le_add_right (offset + length.length) _)
          (show offset + length.length + length.value.toNat ≤ data.length by omega),
        hslice length.length length.value.toNat (by omega)]
      rfl
    · simp only [if_pos (Nat.lt_of_not_le hfits), if_neg hfits]
      rfl

theorem readPayload_eq {data : Bytes} (hdata : data.length < 2 ^ 63) {offset stop : Nat} (hordered : offset ≤ stop)
    (hwithin : stop ≤ data.length) (wireType : WireType) :
    readPayload data offset stop wireType = .ok (Payload.readAt data offset stop wireType) := by
  have hbytes : (data.drop offset).take (stop - offset) = (data.take stop).drop offset := List.drop_take.symm
  have hlength : stop - offset = ((data.take stop).drop offset).length := by
    rw [List.length_drop, List.length_take, Nat.min_eq_left hwithin]
  have hroom : offset + ((data.take stop).drop offset).length < 2 ^ 63 := by omega
  simp only [readPayload, Nat.min_eq_left hwithin, window_eq hdata, ok_bind, hbytes, Payload.readAt]
  cases wireType with
  | varint =>
    rw [hlength]
    exact readNumber_eq hroom
  | fixed64 =>
    rw [hlength]
    exact readFixed_eq hroom
  | fixed32 =>
    rw [hlength]
    exact readFixed_eq hroom
  | lengthDelimited => exact readDelimited_eq hdata hordered hwithin
  | startGroup => rfl
  | endGroup => rfl

theorem wireType_of_read {wireType : WireType} {start : Nat} {window : Bytes} {located : Located}
    (h : Payload.read wireType start window = .ok located) : located.payload.wireType = wireType := by
  obtain ⟨body, rest, rfl, rfl⟩ := Payload.exists_of_read h
  rw [Payload.read_append, Except.ok.injEq] at h
  rw [← h]
  exact body.wireType_payload

theorem content_of_readAt {data : Bytes} {offset stop : Nat} {wireType : WireType} {located : Located}
    (h : Payload.readAt data offset stop wireType = .ok located) {content : Bytes}
    (hcontent : located.payload = .bytes content) : content = located.span.slice data := by
  obtain ⟨body, rest, rfl, hwindow⟩ := Payload.exists_of_read h
  rw [Payload.readAt, hwindow, Payload.read_append, Except.ok.injEq] at h
  subst h
  cases body with
  | lengthDelimited lead found hfits =>
    cases hcontent
    have hslice := slice_window data offset stop lead.bytes.length content.length
      (by rw [hwindow]; simp [ItemBody.bytes, ItemBody.lead, ItemBody.content])
    rw [hwindow] at hslice
    have hpart : ((ItemBody.lengthDelimited lead content hfits).bytes ++ rest).drop lead.bytes.length =
        content ++ rest := by
      simp [ItemBody.bytes, ItemBody.lead, ItemBody.content]
    rw [hpart, List.take_left] at hslice
    exact hslice.symm
  | _ => cases hcontent

end WireTree.Checked
