import WireTree.Proofs.Framing
import WireTree.Scalar

/-!
# Writing

The other side of the wire format: how numbers, payloads and scalars are written. What is written under a number below
2^61 is an item, as long as its content is shorter than 2^64 bytes, and a scalar is read back from its payload as it was,
but for the name of an enum number, which is the one that the enum type has for it.
-/

namespace WireTree

/-! ### Numbers -/

namespace LittleEndian

/-- The digits of a number to base 256, as many as `width`. -/
def encode : (width : Nat) → (number : Nat) → Bytes
  | 0, _ => []
  | width + 1, number => UInt8.ofNat number :: encode width (number / 256)

@[simp] theorem length_encode (width number : Nat) : (encode width number).length = width := by
  induction width generalizing number with
  | zero => rfl
  | succ width ih => simp [encode, ih]

theorem decode_encode {width number : Nat} (hnumber : number < 256 ^ width) :
    decode (encode width number) = number := by
  induction width generalizing number with
  | zero =>
    show 0 = number
    simp only [Nat.pow_zero] at hnumber
    omega
  | succ width ih =>
    have hrest : number / 256 < 256 ^ width := by
      rw [Nat.pow_succ] at hnumber
      omega
    rw [encode, decode, ih hrest, UInt8.toNat_ofNat']
    omega

end LittleEndian

namespace Zigzag

/-- The natural number that stands for a signed one. -/
def encode (value : Int) : Nat := if 0 ≤ value then 2 * value.toNat else 2 * (-value).toNat - 1

def encode32 (value : Int32) : UInt32 := UInt32.ofNat (encode value.toInt)

def encode64 (value : Int64) : UInt64 := UInt64.ofNat (encode value.toInt)

theorem decode_encode (value : Int) : decode (encode value) = value := by
  unfold encode decode
  by_cases hvalue : 0 ≤ value
  · rw [if_pos hvalue]
    split <;> omega
  · rw [if_neg hvalue]
    split <;> omega

theorem decode32_encode32 (value : Int32) : decode32 (encode32 value) = value := by
  have hbits : encode value.toInt < 2 ^ 32 := by
    have hlow := value.le_toInt
    have hhigh := value.toInt_lt
    unfold encode
    split <;> omega
  rw [decode32, encode32, UInt32.toNat_ofNat_of_lt' hbits, decode_encode, Int32.ofInt_toInt]

theorem decode64_encode64 (value : Int64) : decode64 (encode64 value) = value := by
  have hbits : encode value.toInt < 2 ^ 64 := by
    have hlow := value.le_toInt
    have hhigh := value.toInt_lt
    unfold encode
    split <;> omega
  rw [decode64, encode64, UInt64.toNat_ofNat_of_lt' hbits, decode_encode, Int64.ofInt_toInt]

end Zigzag

theorem toInt32_signExtended (value : Int32) : value.toInt64.toUInt64.toUInt32.toInt32 = value := by
  have htruncate : value.toInt64.toUInt64.toUInt32.toInt32 = value.toInt64.toInt32 := by
    apply Int32.toBitVec_inj.1
    simp only [Int64.toBitVec_toInt32, UInt32.toBitVec_toInt32, UInt64.toBitVec_toUInt32, Int64.toBitVec_toUInt64]
    exact (BitVec.signExtend_eq_setWidth_of_le _ (by decide)).symm
  rw [htruncate, Int32.toInt32_toInt64]

/-! ### Payloads -/

namespace Payload

/-- The length that is written before the content. -/
def lead : Payload → Bytes
  | bytes content => Varint.encode (UInt64.ofNat content.length)
  | _ => []

def content : Payload → Bytes
  | varint value => Varint.encode value
  | fixed64 value => LittleEndian.encode 8 value.toNat
  | fixed32 value => LittleEndian.encode 4 value.toNat
  | bytes content => content

def encode (payload : Payload) : Bytes := payload.lead ++ payload.content

theorem exists_body (payload : Payload) (hshort : payload.content.length < 2 ^ 64) :
    ∃ body : ItemBody, body.payload = payload ∧ body.lead = payload.lead ∧ body.content = payload.content := by
  cases payload with
  | varint value =>
    obtain ⟨number, hbytes, hvalue⟩ := Varint.exists_spelling value
    refine ⟨.varint number, ?_, rfl, hbytes⟩
    rw [ItemBody.payload, hvalue]
  | fixed64 value =>
    refine ⟨.fixed64 (LittleEndian.encode 8 value.toNat) (LittleEndian.length_encode 8 _), ?_, rfl, rfl⟩
    rw [ItemBody.payload, LittleEndian.decode_encode (by simpa using value.toNat_lt), UInt64.ofNat_toNat]
  | fixed32 value =>
    refine ⟨.fixed32 (LittleEndian.encode 4 value.toNat) (LittleEndian.length_encode 4 _), ?_, rfl, rfl⟩
    rw [ItemBody.payload, LittleEndian.decode_encode (by simpa using value.toNat_lt), UInt32.ofNat_toNat]
  | bytes content =>
    obtain ⟨lead, hbytes, hvalue⟩ := Varint.exists_spelling (UInt64.ofNat content.length)
    have hlength : content.length < UInt64.size := hshort
    have hfits : content.length = lead.value.toNat := by
      rw [hvalue, UInt64.toNat_ofNat_of_lt' hlength]
    exact ⟨.lengthDelimited lead content hfits, rfl, hbytes, rfl⟩

end Payload

/-! ### Records -/

/-- The tag of a number and a wire type. -/
def Tag.encode (number : Nat) (wireType : WireType) : Bytes :=
  Varint.encode (UInt64.ofNat (8 * number + wireType.raw))

theorem Item.exists_of_body {number : Nat} (hnumber : number < 2 ^ 61) (body : ItemBody) :
    ∃ item : Item, item.tag.bytes = Tag.encode number body.wireType ∧ item.body = body ∧ item.number = number := by
  obtain ⟨tag, htag, hvalue⟩ := Varint.exists_spelling (UInt64.ofNat (8 * number + body.wireType.raw))
  have hraw : body.wireType.raw < 8 := by cases body <;> simp [ItemBody.wireType, WireType.raw]
  have hsum : tag.value.toNat = 8 * number + body.wireType.raw := by
    rw [hvalue, UInt64.toNat_ofNat_of_lt']
    show _ < 2 ^ 64
    omega
  refine ⟨⟨tag, body, by omega⟩, htag, rfl, ?_⟩
  show tag.value.toNat / 8 = number
  omega

namespace Payload

/-- The payload behind a tag of the number and of its own wire type. -/
def encodeUnder (number : Nat) (payload : Payload) : Bytes := Tag.encode number payload.wireType ++ payload.encode

/-- The first offset of the content, for a payload whose tag starts at `start`. -/
def contentStart (start number : Nat) (payload : Payload) : Nat :=
  start + (Tag.encode number payload.wireType).length + payload.lead.length

/-- The record that the payload is written as. -/
def record (start number : Nat) (payload : Payload) : Record :=
  ⟨number, payload.wireType, .ofLength start (payload.encodeUnder number).length, payload,
    .ofLength (payload.contentStart start number) payload.content.length⟩

theorem exists_item {number : Nat} {payload : Payload} (hnumber : number < 2 ^ 61)
    (hshort : payload.content.length < 2 ^ 64) :
    ∃ item : Item, item.bytes = payload.encodeUnder number ∧ ∀ start, item.record start = payload.record start number := by
  obtain ⟨body, hpayload, hlead, hcontent⟩ := payload.exists_body hshort
  have hkind : body.wireType = payload.wireType := by rw [← body.wireType_payload, hpayload]
  obtain ⟨item, htag, rfl, hitem⟩ := Item.exists_of_body hnumber body
  rw [hkind] at htag
  have hbytes : item.bytes = payload.encodeUnder number := by
    rw [Item.bytes, htag, ItemBody.bytes, hlead, hcontent]
    rfl
  refine ⟨item, hbytes, fun start => ?_⟩
  simp only [Item.record, Payload.record, contentStart, hitem, hkind, hbytes, ItemBody.located, hpayload, htag, hlead,
    hcontent]

end Payload

/-! ### Scalars -/

namespace Scalar

/-- The field type that the scalar is a value of. -/
def type : Scalar → FieldType
  | double _ => .double
  | float _ => .float
  | int32 _ => .int32
  | int64 _ => .int64
  | uint32 _ => .uint32
  | uint64 _ => .uint64
  | sint32 _ => .sint32
  | sint64 _ => .sint64
  | fixed32 _ => .fixed32
  | fixed64 _ => .fixed64
  | sfixed32 _ => .sfixed32
  | sfixed64 _ => .sfixed64
  | bool _ => .bool
  | string _ => .string
  | bytes _ => .bytes
  | enum .. => .enum
  | raw _ => .none

/-- The payload that the scalar is written as. The sign of a number fills 64 bits. -/
def payload : Scalar → Payload
  | double bits => .fixed64 bits
  | float bits => .fixed32 bits
  | int32 value => .varint value.toInt64.toUInt64
  | int64 value => .varint value.toUInt64
  | uint32 value => .varint value.toUInt64
  | uint64 value => .varint value
  | sint32 value => .varint (Zigzag.encode32 value).toUInt64
  | sint64 value => .varint (Zigzag.encode64 value)
  | fixed32 value => .fixed32 value
  | fixed64 value => .fixed64 value
  | sfixed32 value => .fixed32 value.toUInt32
  | sfixed64 value => .fixed64 value.toUInt64
  | bool value => .varint (if value then 1 else 0)
  | string text => .bytes (Utf8.encode text.toList)
  | bytes content => .bytes content
  | enum number _ => .varint number.toInt64.toUInt64
  | raw payload => payload

/-- The scalar with the name that the enum type has for its number. -/
def named (enumType : Option EnumType) : Scalar → Scalar
  | enum number _ => enum number (enumType.bind (·.name? number))
  | scalar => scalar

theorem read_payload {options : Options} (hbytes : options.bytesAsString = false) (enumType : Option EnumType)
    (scalar : Scalar) :
    read options enumType scalar.type scalar.payload.content.length scalar.payload = .ok (scalar.named enumType) := by
  cases scalar <;>
    simp only [read, type, payload, FieldType.wireType?, Payload.wireType, if_true, convert, named]
  case int32 value => rw [toInt32_signExtended]
  case enum number name => rw [toInt32_signExtended]
  case int64 value => rw [Int64.toInt64_toUInt64]
  case uint32 value => rw [UInt32.toUInt32_toUInt64]
  case sint32 value => rw [UInt32.toUInt32_toUInt64, Zigzag.decode32_encode32]
  case sint64 value => rw [Zigzag.decode64_encode64]
  case sfixed32 value => rw [Int32.toInt32_toUInt32]
  case sfixed64 value => rw [Int64.toInt64_toUInt64]
  case bool value => cases value <;> rfl
  case string text => rw [Utf8.lossyText, Utf8.decodeLossy_encode, String.ofList_toList]
  case bytes content => rw [hbytes, if_neg Bool.false_ne_true]

end Scalar

end WireTree
