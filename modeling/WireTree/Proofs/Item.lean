import WireTree.Proofs.Varint
import WireTree.Record

/-!
# The wire grammar

An item is one field as the wire format writes it: a tag, and behind it the body that the wire type of the tag asks for.
Items carry the proofs that their bytes fit together, so a byte string is well formed just when it is a row of items.
A record is read exactly where an item stands, and the bytes settle which items they are.
-/

namespace WireTree

/-! ### Bodies -/

/-- What stands behind a tag. Groups have no body that could be read. -/
inductive ItemBody where
  | varint (number : Varint.Spelling)
  | fixed64 (content : Bytes) (width : content.length = 8)
  | lengthDelimited (lead : Varint.Spelling) (content : Bytes) (fits : content.length = lead.value.toNat)
  | fixed32 (content : Bytes) (width : content.length = 4)

namespace ItemBody

def wireType : ItemBody → WireType
  | varint _ => .varint
  | fixed64 .. => .fixed64
  | lengthDelimited .. => .lengthDelimited
  | fixed32 .. => .fixed32

/-- The length that is written before the content. -/
def lead : ItemBody → Bytes
  | lengthDelimited lead _ _ => lead.bytes
  | _ => []

def content : ItemBody → Bytes
  | varint number => number.bytes
  | fixed64 content _ => content
  | lengthDelimited _ content _ => content
  | fixed32 content _ => content

def bytes (body : ItemBody) : Bytes := body.lead ++ body.content

/-- The value that the content stands for. -/
def payload : ItemBody → Payload
  | varint number => .varint number.value
  | fixed64 content _ => .fixed64 (UInt64.ofNat (LittleEndian.decode content))
  | lengthDelimited _ content _ => .bytes content
  | fixed32 content _ => .fixed32 (UInt32.ofNat (LittleEndian.decode content))

@[simp] theorem wireType_payload (body : ItemBody) : body.payload.wireType = body.wireType := by
  cases body <;> rfl

/-- The body as it is read behind a tag that ends at `start`. -/
def located (start : Nat) (body : ItemBody) : Located :=
  ⟨body.payload, body.lead.length, .ofLength (start + body.lead.length) body.content.length⟩

theorem length_bytes (body : ItemBody) : body.bytes.length = body.lead.length + body.content.length :=
  List.length_append

theorem stop_located (start : Nat) (body : ItemBody) :
    (body.located start).span.stop = start + body.bytes.length := by
  simp [located, length_bytes, Nat.add_assoc]

theorem append_inj {left right : ItemBody} {rest rest' : Bytes} (hkind : left.wireType = right.wireType)
    (h : left.bytes ++ rest = right.bytes ++ rest') : left = right ∧ rest = rest' := by
  cases left <;> cases right <;> simp only [wireType, reduceCtorEq] at hkind
  case varint.varint number number' =>
    obtain ⟨hnumber, hrest⟩ := Varint.Spelling.append_inj (h : number.bytes ++ rest = number'.bytes ++ rest')
    exact ⟨by rw [hnumber], hrest⟩
  case fixed64.fixed64 content hwidth content' hwidth' =>
    obtain ⟨hcontent, hrest⟩ := List.append_inj (h : content ++ rest = content' ++ rest') (hwidth.trans hwidth'.symm)
    subst hcontent
    exact ⟨rfl, hrest⟩
  case fixed32.fixed32 content hwidth content' hwidth' =>
    obtain ⟨hcontent, hrest⟩ := List.append_inj (h : content ++ rest = content' ++ rest') (hwidth.trans hwidth'.symm)
    subst hcontent
    exact ⟨rfl, hrest⟩
  case lengthDelimited.lengthDelimited lead content hfits lead' content' hfits' =>
    have h' : lead.bytes ++ (content ++ rest) = lead'.bytes ++ (content' ++ rest') := by
      simpa [bytes, ItemBody.lead, ItemBody.content] using h
    obtain ⟨hlead, hbehind⟩ := Varint.Spelling.append_inj h'
    subst hlead
    obtain ⟨hcontent, hrest⟩ := List.append_inj hbehind (hfits.trans hfits'.symm)
    subst hcontent
    exact ⟨rfl, hrest⟩

end ItemBody

namespace Payload

theorem ofWidth_append {width : Nat} {content : Bytes} (hwidth : content.length = width) (start : Nat)
    (rest : Bytes) (payload : Payload) :
    ofWidth width start (content ++ rest) payload = .ok ⟨payload, 0, .ofLength start content.length⟩ := by
  rw [ofWidth, if_pos, hwidth]
  rw [List.length_append]
  omega

theorem length_take_of_ofWidth {width start : Nat} {window : Bytes} {payload : Payload} {located : Located}
    (h : ofWidth width start window payload = .ok located) : (window.take width).length = width := by
  by_cases hwidth : width ≤ window.length
  · exact List.length_take_of_le hwidth
  · rw [ofWidth, if_neg hwidth] at h
    cases h

theorem read_append (body : ItemBody) (start : Nat) (rest : Bytes) :
    read body.wireType start (body.bytes ++ rest) = .ok (body.located start) := by
  cases body with
  | varint number =>
    show read .varint start (number.bytes ++ rest) = _
    simp only [read, Varint.read_append]
    rfl
  | fixed64 content hwidth =>
    show read .fixed64 start (content ++ rest) = _
    rw [read, List.take_left' hwidth, ofWidth_append hwidth]
    rfl
  | fixed32 content hwidth =>
    show read .fixed32 start (content ++ rest) = _
    rw [read, List.take_left' hwidth, ofWidth_append hwidth]
    rfl
  | lengthDelimited lead content hfits =>
    show read .lengthDelimited start (lead.bytes ++ content ++ rest) = _
    rw [List.append_assoc]
    simp only [read, Varint.read_append, List.drop_left]
    rw [if_pos (by simp [← hfits]), ← hfits, List.take_left]
    rfl

theorem exists_of_read {wireType : WireType} {start : Nat} {window : Bytes} {located : Located}
    (h : read wireType start window = .ok located) :
    ∃ (body : ItemBody) (rest : Bytes), body.wireType = wireType ∧ window = body.bytes ++ rest := by
  cases wireType with
  | varint =>
    simp only [read] at h
    split at h
    · rename_i varint hvarint
      obtain ⟨number, rest, rfl, -⟩ := Varint.read_eq_ok_iff.1 hvarint
      exact ⟨.varint number, rest, rfl, rfl⟩
    · cases h
    · cases h
  | fixed64 =>
    refine ⟨.fixed64 (window.take 8) (length_take_of_ofWidth h), window.drop 8, rfl, ?_⟩
    exact (List.take_append_drop 8 window).symm
  | fixed32 =>
    refine ⟨.fixed32 (window.take 4) (length_take_of_ofWidth h), window.drop 4, rfl, ?_⟩
    exact (List.take_append_drop 4 window).symm
  | lengthDelimited =>
    simp only [read] at h
    split at h
    · cases h
    · rename_i varint hvarint
      obtain ⟨lead, behind, rfl, rfl⟩ := Varint.read_eq_ok_iff.1 hvarint
      rw [List.drop_left] at h
      split at h
      · rename_i hfits
        exact ⟨.lengthDelimited lead (behind.take lead.value.toNat) (by simpa using hfits),
          behind.drop lead.value.toNat, rfl, by simp [ItemBody.bytes, ItemBody.lead, ItemBody.content]⟩
      · cases h
  | startGroup => simp [read] at h
  | endGroup => simp [read] at h

end Payload

/-! ### Items -/

/-- One field: a tag, and the body that it announces. -/
structure Item where
  tag : Varint.Spelling
  body : ItemBody
  announces : tag.value.toNat % 8 = body.wireType.raw

namespace Item

def number (item : Item) : Nat := item.tag.value.toNat / 8

def bytes (item : Item) : Bytes := item.tag.bytes ++ item.body.bytes

/-- The bytes of a row of items. -/
def spell (items : List Item) : Bytes := items.flatMap bytes

@[simp] theorem spell_nil : spell [] = [] := rfl

@[simp] theorem spell_cons (item : Item) (items : List Item) :
    spell (item :: items) = item.bytes ++ spell items := by
  simp [spell]

/-- The record that is read where the item stands. -/
def record (start : Nat) (item : Item) : Record :=
  ⟨item.number, item.body.wireType, .ofLength start item.bytes.length, item.body.payload,
    (item.body.located (start + item.tag.bytes.length)).span⟩

theorem length_pos (item : Item) : 0 < item.bytes.length := by
  simp only [bytes, List.length_append, Varint.Spelling.length_bytes]
  omega

section LengthDelimited

variable {item : Item} {lead : Varint.Spelling} {content : Bytes} {hfits : content.length = lead.value.toNat}

theorem bytes_lengthDelimited (hbody : item.body = .lengthDelimited lead content hfits) :
    item.bytes = item.tag.bytes ++ (lead.bytes ++ content) := by
  rw [bytes, hbody]
  rfl

theorem valueSpan_lengthDelimited (hbody : item.body = .lengthDelimited lead content hfits) (start : Nat) :
    (item.record start).valueSpan =
      .ofLength (start + item.tag.bytes.length + lead.bytes.length) content.length := by
  rw [record, hbody]
  rfl

end LengthDelimited

theorem append_inj {left right : Item} {rest rest' : Bytes} (h : left.bytes ++ rest = right.bytes ++ rest') :
    left = right ∧ rest = rest' := by
  obtain ⟨tag, body, hkind⟩ := left
  obtain ⟨tag', body', hkind'⟩ := right
  have h' : tag.bytes ++ (body.bytes ++ rest) = tag'.bytes ++ (body'.bytes ++ rest') := by
    simpa [bytes] using h
  obtain ⟨htag, hbehind⟩ := Varint.Spelling.append_inj h'
  subst htag
  have hsame : body.wireType = body'.wireType := by
    have hraw : body.wireType.raw = body'.wireType.raw := hkind.symm.trans hkind'
    cases body <;> cases body' <;> first | rfl | (simp [ItemBody.wireType, WireType.raw] at hraw)
  obtain ⟨hbody, hrest⟩ := ItemBody.append_inj hsame hbehind
  subst hbody
  exact ⟨rfl, hrest⟩

theorem spell_inj {left right : List Item} (h : spell left = spell right) : left = right := by
  induction left generalizing right with
  | nil =>
    cases right with
    | nil => rfl
    | cons item right =>
      have hlength := congrArg List.length h
      have := item.length_pos
      simp only [spell_nil, spell_cons, List.length_nil, List.length_append] at hlength
      omega
  | cons item left ih =>
    cases right with
    | nil =>
      have hlength := congrArg List.length h
      have := item.length_pos
      simp only [spell_nil, spell_cons, List.length_nil, List.length_append] at hlength
      omega
    | cons item' right =>
      rw [spell_cons, spell_cons] at h
      obtain ⟨hitem, hrest⟩ := append_inj h
      rw [hitem, ih hrest]

end Item

theorem WireType.ofRaw?_eq_some_iff {raw : Nat} {wireType : WireType} :
    ofRaw? raw = some wireType ↔ raw = wireType.raw := by
  constructor
  · intro h
    unfold ofRaw? at h
    split at h <;> cases h <;> rfl
  · rintro rfl
    cases wireType <;> rfl

namespace Record

theorem read_append (item : Item) (start : Nat) (rest : Bytes) :
    read start (item.bytes ++ rest) = .ok (item.record start) := by
  have htag : Tag.read start (item.bytes ++ rest) =
      .ok ⟨item.number, item.tag.value.toNat % 8, item.tag.bytes.length⟩ := by
    rw [Item.bytes, List.append_assoc]
    simp only [Tag.read, Varint.read_append]
    rfl
  have hkind : WireType.ofRaw? (item.tag.value.toNat % 8) = some item.body.wireType :=
    WireType.ofRaw?_eq_some_iff.2 item.announces
  have hdrop : (item.bytes ++ rest).drop item.tag.bytes.length = item.body.bytes ++ rest := by
    rw [Item.bytes, List.append_assoc, List.drop_left]
  have hstop : (item.body.located (start + item.tag.bytes.length)).span.stop = start + item.bytes.length := by
    rw [ItemBody.stop_located, Item.bytes, List.length_append, Nat.add_assoc]
  simp only [read, htag, hkind, hdrop, Payload.read_append, hstop]
  rfl

/-- A record is read exactly where an item stands. -/
theorem read_eq_ok_iff {start : Nat} {window : Bytes} {record : Record} :
    read start window = .ok record ↔
      ∃ (item : Item) (rest : Bytes), window = item.bytes ++ rest ∧ record = item.record start := by
  constructor
  · intro h
    have hitem : ∃ (item : Item) (rest : Bytes), window = item.bytes ++ rest := by
      simp only [read] at h
      split at h
      · cases h
      · rename_i tag htag
        split at h
        · cases h
        · rename_i wireType hkind
          split at h
          · cases h
          · rename_i located hlocated
            obtain ⟨body, rest, rfl, hwindow⟩ := Payload.exists_of_read hlocated
            simp only [Tag.read] at htag
            split at htag
            · cases htag
            · rename_i varint hvarint
              cases htag
              obtain ⟨spelling, behind, rfl, rfl⟩ := Varint.read_eq_ok_iff.1 hvarint
              rw [List.drop_left] at hwindow
              subst hwindow
              exact ⟨⟨spelling, body, WireType.ofRaw?_eq_some_iff.1 hkind⟩, rest, by simp [Item.bytes]⟩
    obtain ⟨item, rest, rfl⟩ := hitem
    rw [read_append, Except.ok.injEq] at h
    exact ⟨item, rest, rfl, h.symm⟩
  · rintro ⟨item, rest, rfl, rfl⟩
    exact read_append item start rest

end Record

end WireTree
