import WireTree.Proofs.Reading

/-!
# Rows of bodies

The content of a packed value is a row of bodies of one wire type, end to end and without tags. The bytes settle which
bodies they are, and splitting finds them or fails.
-/

namespace WireTree

namespace ItemBody

theorem length_pos (body : ItemBody) : 0 < body.bytes.length := by
  cases body with
  | varint number =>
    show 0 < number.bytes.length
    rw [Varint.Spelling.length_bytes]
    omega
  | fixed64 content hwidth =>
    show 0 < content.length
    omega
  | fixed32 content hwidth =>
    show 0 < content.length
    omega
  | lengthDelimited lead content hfits =>
    show 0 < (lead.bytes ++ content).length
    rw [List.length_append, Varint.Spelling.length_bytes]
    omega

theorem lead_eq_nil {body : ItemBody} (h : body.wireType ≠ .lengthDelimited) : body.lead = [] := by
  cases body with
  | lengthDelimited lead content hfits => exact absurd rfl h
  | varint number => rfl
  | fixed64 content hwidth => rfl
  | fixed32 content hwidth => rfl

theorem span_located {body : ItemBody} (h : body.wireType ≠ .lengthDelimited) (start : Nat) :
    (body.located start).span = .ofLength start body.bytes.length := by
  simp [located, length_bytes, lead_eq_nil h]

/-- The bytes of a row of bodies. -/
def spell (bodies : List ItemBody) : Bytes := bodies.flatMap bytes

@[simp] theorem spell_nil : spell [] = [] := rfl

@[simp] theorem spell_cons (body : ItemBody) (bodies : List ItemBody) :
    spell (body :: bodies) = body.bytes ++ spell bodies := by
  simp [spell]

/-- The bodies as they are read, if the first of them starts at `start`. -/
def locate (start : Nat) : List ItemBody → List Located
  | [] => []
  | body :: rest => body.located start :: locate (start + body.bytes.length) rest

theorem spell_inj {wireType : WireType} {left right : List ItemBody} (hleft : ∀ body ∈ left, body.wireType = wireType)
    (hright : ∀ body ∈ right, body.wireType = wireType) (h : spell left = spell right) : left = right := by
  induction left generalizing right with
  | nil =>
    cases right with
    | nil => rfl
    | cons body right =>
      have hlength := congrArg List.length h
      have := body.length_pos
      simp only [spell_nil, spell_cons, List.length_nil, List.length_append] at hlength
      omega
  | cons body left ih =>
    cases right with
    | nil =>
      have hlength := congrArg List.length h
      have := body.length_pos
      simp only [spell_nil, spell_cons, List.length_nil, List.length_append] at hlength
      omega
    | cons body' right =>
      obtain ⟨hbody, hleft⟩ := List.forall_mem_cons.1 hleft
      obtain ⟨hbody', hright⟩ := List.forall_mem_cons.1 hright
      rw [spell_cons, spell_cons] at h
      obtain ⟨hfirst, hrest⟩ := append_inj (hbody.trans hbody'.symm) h
      rw [hfirst, ih hleft hright hrest]

end ItemBody

namespace Packed

theorem split_cons (body : ItemBody) (start : Nat) (rest : Bytes) :
    split body.wireType start (body.bytes ++ rest) =
      (split body.wireType (start + body.bytes.length) rest).map (body.located start :: ·) := by
  rw [split_of_read_ok (Payload.read_append body start rest), ItemBody.stop_located, Nat.add_sub_cancel_left,
    List.drop_left]

theorem split_spell {wireType : WireType} {bodies : List ItemBody} (hkind : ∀ body ∈ bodies, body.wireType = wireType)
    (start : Nat) : split wireType start (ItemBody.spell bodies) = .ok (ItemBody.locate start bodies) := by
  induction bodies generalizing start with
  | nil => exact split_nil wireType start
  | cons body bodies ih =>
    obtain ⟨rfl, hkind⟩ := List.forall_mem_cons.1 hkind
    rw [ItemBody.spell_cons, split_cons, ih hkind]
    rfl

/-- What can be split is a row of bodies. -/
theorem exists_bodies_of_split {wireType : WireType} {start : Nat} {content : Bytes} {values : List Located}
    (h : split wireType start content = .ok values) :
    ∃ bodies, (∀ body ∈ bodies, body.wireType = wireType) ∧ content = ItemBody.spell bodies ∧
      values = ItemBody.locate start bodies := by
  induction hlength : content.length using Nat.strongRecOn generalizing start content values with
  | ind length ih =>
    by_cases hempty : content = []
    · subst hempty
      rw [split_nil] at h
      cases h
      exact ⟨[], by simp, rfl, rfl⟩
    · cases hread : Payload.read wireType start content with
      | error cause =>
        rw [split_of_read_error hempty hread] at h
        cases h
      | ok located =>
        obtain ⟨body, rest, rfl, rfl⟩ := Payload.exists_of_read hread
        rw [split_cons] at h
        cases hsplit : split body.wireType (start + body.bytes.length) rest with
        | error failure =>
          rw [hsplit] at h
          cases h
        | ok others =>
          rw [hsplit] at h
          cases h
          have hshorter : rest.length < length := by
            have := body.length_pos
            rw [List.length_append] at hlength
            omega
          obtain ⟨bodies, hkind, rfl, rfl⟩ := ih _ hshorter hsplit rfl
          exact ⟨body :: bodies, List.forall_mem_cons.2 ⟨rfl, hkind⟩, (ItemBody.spell_cons _ _).symm, rfl⟩

end Packed

end WireTree
