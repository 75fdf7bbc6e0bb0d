import WireTree.Proofs.Item

/-!
# Windows as rows of items

Every window is a row of items and a rest at whose front no item stands. Splitting gives the records of the items, and a
stop just when the rest is not empty. So the framing of a window is settled once its items are known, and the stop says
how the rest fails to begin with an item.
-/

namespace WireTree

namespace Item

/-- The records of items that lie end to end from `start` on. -/
def records (start : Nat) : List Item → List Record
  | [] => []
  | item :: rest => item.record start :: records (start + item.bytes.length) rest

end Item

/-! ### Stops -/

/-- How a rest fails to begin with an item. -/
inductive Stop.Explains (start : Nat) (rest : Bytes) : Stop → Prop
  /-- There is no tag. -/
  | malformed (error : Varint.ReadError) (htag : Varint.read rest = .error error) :
    Explains start rest (.garbage (.ofLength start rest.length) rest (.malformedTag start))
  /-- There is a tag, but its wire type means nothing. -/
  | unsupported (tag : Varint.Spelling) (content : Bytes) (raw : Nat) (hrest : rest = tag.bytes ++ content)
      (hkind : tag.value.toNat % 8 = raw) (hraw : raw = 6 ∨ raw = 7) :
    Explains start rest (.garbage (.ofLength start rest.length) rest (.unsupportedWireType raw))
  /-- There is a tag, but no body behind it. -/
  | incomplete (tag : Varint.Spelling) (wireType : WireType) (content : Bytes) (error : DecodeError)
      (hrest : rest = tag.bytes ++ content) (hkind : tag.value.toNat % 8 = wireType.raw)
      (hbody : Payload.read wireType (start + tag.bytes.length) content = .error error) :
    Explains start rest
      (.incomplete (tag.value.toNat / 8) wireType (.ofLength start rest.length) content error)

theorem Stop.Explains.garbage_or_incomplete {start : Nat} {rest : Bytes} {stop : Stop}
    (h : stop.Explains start rest) :
    (∃ error, stop = .garbage (.ofLength start rest.length) rest error ∧
      (error = .malformedTag start ∨ error = .unsupportedWireType 6 ∨ error = .unsupportedWireType 7)) ∨
    ∃ (tag : Varint.Spelling) (wireType : WireType) (content : Bytes) (error : DecodeError),
      rest = tag.bytes ++ content ∧
        stop = .incomplete (tag.value.toNat / 8) wireType (.ofLength start rest.length) content error := by
  cases h with
  | malformed => exact .inl ⟨_, rfl, .inl rfl⟩
  | unsupported tag content raw hrest hkind hraw =>
    exact .inl ⟨_, rfl, by rcases hraw with rfl | rfl <;> simp⟩
  | incomplete tag wireType content error hrest => exact .inr ⟨tag, wireType, content, error, hrest, rfl⟩

theorem WireType.ofRaw?_eq_none : ∀ raw < 8, ofRaw? raw = none → raw = 6 ∨ raw = 7 := by
  decide

theorem Record.explains_of_read {start : Nat} {rest : Bytes} {stop : Stop}
    (h : Record.read start rest = .error stop) : stop.Explains start rest := by
  simp only [Record.read, Tag.read] at h
  cases htag : Varint.read rest with
  | error error =>
    simp only [htag] at h
    cases h
    exact .malformed error htag
  | ok varint =>
    obtain ⟨tag, content, rfl, rfl⟩ := Varint.read_eq_ok_iff.1 htag
    simp only [htag, List.drop_left] at h
    cases hkind : WireType.ofRaw? (tag.value.toNat % 8) with
    | none =>
      simp only [hkind] at h
      cases h
      exact .unsupported tag content _ rfl rfl
        (WireType.ofRaw?_eq_none _ (Nat.mod_lt _ (by decide)) hkind)
    | some wireType =>
      simp only [hkind] at h
      cases hbody : Payload.read wireType (start + tag.bytes.length) content with
      | error error =>
        simp only [hbody] at h
        cases h
        exact .incomplete tag wireType content error rfl (WireType.ofRaw?_eq_some_iff.1 hkind) hbody
      | ok located =>
        simp only [hbody] at h
        cases h

/-! ### Windows -/

namespace Framing

theorem ofWindow_append (start : Nat) (items : List Item) (rest : Bytes) :
    ofWindow start (Item.spell items ++ rest) =
      ⟨Item.records start items ++ (ofWindow (start + (Item.spell items).length) rest).records,
        (ofWindow (start + (Item.spell items).length) rest).stop⟩ := by
  induction items generalizing start with
  | nil => simp [Item.records]
  | cons item items ih =>
    rw [Item.spell_cons, List.append_assoc, ofWindow_of_read_ok (Record.read_append item start _)]
    have hstop : (item.record start).span.stop = start + item.bytes.length := rfl
    have hlength : (item.record start).span.length = item.bytes.length := Span.length_ofLength _ _
    rw [hstop, hlength, List.drop_left, ih, List.length_append, ← Nat.add_assoc]
    rfl

theorem ofWindow_item_append (start : Nat) (item : Item) (rest : Bytes) :
    ofWindow start (item.bytes ++ rest) =
      ⟨item.record start :: (ofWindow (start + item.bytes.length) rest).records,
        (ofWindow (start + item.bytes.length) rest).stop⟩ := by
  have h := ofWindow_append start [item] rest
  simpa [Item.records] using h

theorem ofWindow_spell (start : Nat) (items : List Item) :
    ofWindow start (Item.spell items) = ⟨Item.records start items, none⟩ := by
  have h := ofWindow_append start items []
  simpa using h

/-- Every window is a row of items and a rest that a stop explains, if there is one. -/
theorem exists_items (start : Nat) (window : Bytes) :
    ∃ (items : List Item) (rest : Bytes), window = Item.spell items ++ rest ∧
      ((rest = [] ∧ ofWindow start window = ⟨Item.records start items, none⟩) ∨
        ∃ stop, rest ≠ [] ∧ stop.Explains (start + (Item.spell items).length) rest ∧
          ofWindow start window = ⟨Item.records start items, some stop⟩) := by
  induction hlength : window.length using Nat.strongRecOn generalizing start window with
  | ind length ih =>
    by_cases hempty : window = []
    · subst hempty
      exact ⟨[], [], rfl, .inl ⟨rfl, ofWindow_nil start⟩⟩
    · cases hread : Record.read start window with
      | error stop =>
        refine ⟨[], window, rfl, .inr ⟨stop, hempty, ?_, ofWindow_of_read_error hempty hread⟩⟩
        simpa using Record.explains_of_read hread
      | ok record =>
        obtain ⟨item, behind, rfl, rfl⟩ := Record.read_eq_ok_iff.1 hread
        have hshorter : behind.length < length := by
          have := item.length_pos
          rw [List.length_append] at hlength
          omega
        obtain ⟨items, rest, rfl, hends⟩ := ih _ hshorter (start + item.bytes.length) behind rfl
        have hwindow := ofWindow_append start [item] (Item.spell items ++ rest)
        simp only [Item.spell_cons, Item.spell_nil, List.append_nil, Item.records] at hwindow
        refine ⟨item :: items, rest, by simp, ?_⟩
        rw [hwindow]
        rcases hends with ⟨hrest, hends⟩ | ⟨stop, hrest, hexplains, hends⟩
        · exact .inl ⟨hrest, by rw [hends]; rfl⟩
        · refine .inr ⟨stop, hrest, ?_, by rw [hends]; rfl⟩
          rwa [Item.spell_cons, List.length_append, ← Nat.add_assoc]

end Framing

end WireTree
