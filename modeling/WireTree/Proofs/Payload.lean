import WireTree.Proofs.Checked.Wire

/-!
# What reading a payload comes to

A payload is read just when a body of the wire type stands at the front of the window, and is then what that body stands
for. Where none stands there, one reason fits, and it says where the value starts, how many bytes it takes and how many are
left. The window is settled by the two ends, wherever they lie, so an end behind the data counts as its end and an end in
front of the offset leaves no bytes. What is read depends on no bytes but those of the body.
-/

namespace WireTree

namespace Payload

/-! ### Windows without a body -/

/-- How a window fails to begin with a body of the wire type. -/
inductive Fails (start : Nat) (window : Bytes) : WireType → DecodeError → Prop
  /-- Groups have no body. -/
  | group (wireType : WireType) (hgroup : wireType = .startGroup ∨ wireType = .endGroup) :
    Fails start window wireType (.unsupportedWireType wireType.raw)
  /-- Ten bytes announce another one. -/
  | overlongVarint (hlength : Varint.maxLength ≤ window.length)
      (hcontinue : ∀ byte ∈ window.take Varint.maxLength, ¬ byte < 128) :
    Fails start window .varint (.overlongVarint start)
  /-- All bytes announce another one, so one more is needed. -/
  | cutVarint (hlength : window.length < Varint.maxLength) (hcontinue : ∀ byte ∈ window, ¬ byte < 128) :
    Fails start window .varint (.truncated start (window.length + 1) window.length)
  | cutFixed64 (hlength : window.length < 8) : Fails start window .fixed64 (.truncated start 8 window.length)
  | cutFixed32 (hlength : window.length < 4) : Fails start window .fixed32 (.truncated start 4 window.length)
  /-- The window begins with no length. -/
  | noLength (hlead : ∀ (lead : Varint.Spelling) (rest : Bytes), window ≠ lead.bytes ++ rest) :
    Fails start window .lengthDelimited (.malformedLength start)
  /-- Behind the length there are fewer bytes than it says. -/
  | cutContent (lead : Varint.Spelling) (rest : Bytes) (hwindow : window = lead.bytes ++ rest)
      (hlength : rest.length < lead.value.toNat) :
    Fails start window .lengthDelimited
      (.truncated (start + lead.bytes.length) lead.value.toNat rest.length)

variable {wireType : WireType} {start : Nat} {window : Bytes}

theorem read_eq_ok_iff {located : Located} :
    read wireType start window = .ok located ↔
      ∃ (body : ItemBody) (rest : Bytes), body.wireType = wireType ∧ window = body.bytes ++ rest ∧
        located = body.located start := by
  constructor
  · intro h
    obtain ⟨body, rest, rfl, rfl⟩ := exists_of_read h
    rw [read_append, Except.ok.injEq] at h
    exact ⟨body, rest, rfl, rfl, h.symm⟩
  · rintro ⟨body, rest, rfl, rfl, rfl⟩
    exact read_append body start rest

theorem ofWidth_eq_error_iff {width : Nat} {payload : Payload} {error : DecodeError} :
    ofWidth width start window payload = .error error ↔
      window.length < width ∧ error = .truncated start width window.length := by
  unfold ofWidth
  by_cases hwidth : width ≤ window.length
  · simp [hwidth, Nat.not_lt.2 hwidth]
  · simp [hwidth, Nat.lt_of_not_le hwidth, eq_comm]

theorem fails_of_read {error : DecodeError} (h : read wireType start window = .error error) :
    Fails start window wireType error := by
  cases wireType with
  | varint =>
    simp only [read] at h
    split at h
    · cases h
    · rename_i hread
      cases h
      obtain ⟨hlength, hcontinue⟩ := Varint.read_eq_truncated_iff.1 hread
      exact .cutVarint hlength hcontinue
    · rename_i hread
      cases h
      obtain ⟨hlength, hcontinue⟩ := Varint.read_eq_overlong_iff.1 hread
      exact .overlongVarint hlength hcontinue
  | fixed64 =>
    obtain ⟨hlength, rfl⟩ := ofWidth_eq_error_iff.1 h
    exact .cutFixed64 hlength
  | fixed32 =>
    obtain ⟨hlength, rfl⟩ := ofWidth_eq_error_iff.1 h
    exact .cutFixed32 hlength
  | lengthDelimited =>
    simp only [read] at h
    split at h
    · rename_i cause hread
      cases h
      exact .noLength (Varint.exists_error_iff.1 ⟨cause, hread⟩)
    · rename_i varint hread
      obtain ⟨lead, rest, rfl, rfl⟩ := Varint.read_eq_ok_iff.1 hread
      rw [List.drop_left] at h
      split at h
      · cases h
      · rename_i hshort
        cases h
        exact .cutContent lead rest rfl (Nat.lt_of_not_le hshort)
  | startGroup =>
    cases h
    exact .group _ (.inl rfl)
  | endGroup =>
    cases h
    exact .group _ (.inr rfl)

theorem read_of_fails {error : DecodeError} (h : Fails start window wireType error) :
    read wireType start window = .error error := by
  cases h with
  | group _ hgroup => rcases hgroup with rfl | rfl <;> rfl
  | overlongVarint hlength hcontinue => simp only [read, Varint.read_eq_overlong_iff.2 ⟨hlength, hcontinue⟩]
  | cutVarint hlength hcontinue => simp only [read, Varint.read_eq_truncated_iff.2 ⟨hlength, hcontinue⟩]
  | cutFixed64 hlength => exact ofWidth_eq_error_iff.2 ⟨hlength, rfl⟩
  | cutFixed32 hlength => exact ofWidth_eq_error_iff.2 ⟨hlength, rfl⟩
  | noLength hlead =>
    obtain ⟨cause, hread⟩ := Varint.exists_error_iff.2 hlead
    simp only [read, hread]
  | cutContent lead rest hwindow hlength =>
    subst hwindow
    simp only [read, Varint.read_append, List.drop_left, if_neg (Nat.not_le.2 hlength)]

theorem read_eq_error_iff {error : DecodeError} :
    read wireType start window = .error error ↔ Fails start window wireType error :=
  ⟨fails_of_read, read_of_fails⟩

/-- Where bytes are said to be missing, some are, and those that are there reach to the end of the window. -/
theorem Fails.shortage {offset needed available : Nat}
    (h : Fails start window wireType (.truncated offset needed available)) :
    available < needed ∧ offset + available = start + window.length := by
  cases h with
  | cutVarint => exact ⟨Nat.lt_succ_self _, rfl⟩
  | cutFixed64 hlength => exact ⟨hlength, rfl⟩
  | cutFixed32 hlength => exact ⟨hlength, rfl⟩
  | cutContent lead rest hwindow hlength =>
    refine ⟨hlength, ?_⟩
    rw [hwindow, List.length_append, Nat.add_assoc]

/-! ### Windows of the data -/

theorem readAt_min (data : Bytes) (offset stop : Nat) (wireType : WireType) :
    readAt data offset (min stop data.length) wireType = readAt data offset stop wireType := by
  have htake : data.take (min stop data.length) = data.take stop := by
    rw [List.take_eq_take_iff, Nat.min_assoc, Nat.min_self]
  rw [readAt, readAt, htake]

/-- What is read depends on the bytes from the offset to the end of the value only. -/
theorem readAt_congr {data data' : Bytes} {offset stop stop' : Nat} {located : Located}
    (h : readAt data offset stop wireType = .ok located)
    (hsame : Span.slice ⟨offset, located.span.stop⟩ data' = Span.slice ⟨offset, located.span.stop⟩ data)
    (hstop : located.span.stop ≤ stop') : readAt data' offset stop' wireType = .ok located := by
  obtain ⟨body, rest, rfl, hwindow, rfl⟩ := read_eq_ok_iff.1 h
  rw [ItemBody.stop_located] at hsame hstop
  have hroom : body.bytes.length ≤ stop - offset := by
    have hlength := congrArg List.length hwindow
    rw [List.length_drop, List.length_take, List.length_append] at hlength
    omega
  have hfront : ((data'.take stop').drop offset).take body.bytes.length = body.bytes := by
    rw [← Span.slice_eq_take data' (Nat.le_sub_of_add_le' hstop), hsame, Span.slice_eq_take data hroom, hwindow,
      List.take_left]
  refine read_eq_ok_iff.2 ⟨body, ((data'.take stop').drop offset).drop body.bytes.length, rfl, ?_, rfl⟩
  calc (data'.take stop').drop offset
    _ = ((data'.take stop').drop offset).take body.bytes.length ++ _ := (List.take_append_drop _ _).symm
    _ = body.bytes ++ _ := by rw [hfront]

end Payload

namespace Checked

theorem readPayload_eq_readAt {data : Bytes} (hdata : data.length < 2 ^ 63) (offset stop : Nat) (wireType : WireType) :
    readPayload data offset stop wireType = .ok (Payload.readAt data offset stop wireType) := by
  have hmin : readPayload data offset stop wireType = readPayload data offset (min stop data.length) wireType := by
    simp only [readPayload, Nat.min_assoc, Nat.min_self]
  rw [hmin, ← Payload.readAt_min]
  have hwithin : min stop data.length ≤ data.length := Nat.min_le_right _ _
  generalize min stop data.length = stop at *
  by_cases hordered : offset ≤ stop
  · exact readPayload_eq hdata hordered hwithin wireType
  · have hnone : stop - offset = 0 := by omega
    have hempty : (data.take stop).drop offset = [] := by
      rw [List.drop_eq_nil_iff, List.length_take]
      omega
    rw [readPayload, Nat.min_eq_left hwithin, hnone, window_eq hdata, List.take_zero, ok_bind, Payload.readAt, hempty]
    cases wireType <;> rfl

end Checked

namespace Payload

/-- **A payload is read just where a body of the wire type stands**, and otherwise one reason fits, for any two ends. No
operation on the way fails, and what is read stays the same if the bytes of the body and the room for them do: so it does
when bytes are added to the data, or when the end is moved back. -/
theorem readAt_eq_iff (data : Bytes) (offset stop : Nat) (wireType : WireType) :
    let window := Span.slice ⟨offset, min stop data.length⟩ data
    (∀ located, readAt data offset stop wireType = .ok located ↔
      ∃ (body : ItemBody) (rest : Bytes), body.wireType = wireType ∧ window = body.bytes ++ rest ∧
        located = body.located offset) ∧
    (∀ error, readAt data offset stop wireType = .error error ↔ Fails offset window wireType error) ∧
    (data.length < 2 ^ 63 →
      Checked.readPayload data offset stop wireType = .ok (readAt data offset stop wireType)) ∧
    ∀ located, readAt data offset stop wireType = .ok located →
      (∀ data' stop', Span.slice ⟨offset, located.span.stop⟩ data' = Span.slice ⟨offset, located.span.stop⟩ data →
        located.span.stop ≤ stop' → readAt data' offset stop' wireType = .ok located) ∧
      ∀ more stop', stop ≤ stop' → readAt (data ++ more) offset stop' wireType = .ok located := by
  intro window
  have hread : readAt data offset stop wireType = read wireType offset window :=
    (readAt_min data offset stop wireType).symm
  refine ⟨fun located => ?_, fun error => ?_, fun hdata => Checked.readPayload_eq_readAt hdata offset stop wireType,
    fun located hlocated => ⟨fun data' stop' hsame hstop => readAt_congr hlocated hsame hstop, fun more stop' hle => ?_⟩⟩
  · rw [hread]
    exact read_eq_ok_iff
  · rw [hread]
    exact read_eq_error_iff
  · obtain ⟨-, -, hstart, hend⟩ := span_of_read hlocated
    rw [List.length_drop, List.length_take] at hend
    refine readAt_congr hlocated ?_ (by omega)
    rw [Span.slice, Span.slice, List.take_append_of_le_length (by simp only; omega)]

/-- Three bytes behind a length of two bytes, with an end far behind the data. The length is kept if more bytes follow and
the end is moved to the end of the value. -/
theorem readAt_eq_iff_three :
    let data : Bytes := [18, 131, 0, 97, 98, 99, 255]
    let located : Located := ⟨.bytes [97, 98, 99], 2, ⟨3, 6⟩⟩
    readAt data 1 (2 ^ 64 - 1) .lengthDelimited = .ok located ∧
      Checked.readPayload data 1 (2 ^ 64 - 1) .lengthDelimited = .ok (.ok located) ∧
      readAt [0, 131, 0, 97, 98, 99] 1 6 .lengthDelimited = .ok located ∧
      readAt (data ++ [0]) 1 (2 ^ 64 - 1) .lengthDelimited = .ok located := by
  intro data located
  have hread : readAt data 1 (2 ^ 64 - 1) .lengthDelimited = .ok located := by with_unfolding_all rfl
  obtain ⟨-, -, hchecked, hkept⟩ := readAt_eq_iff data 1 (2 ^ 64 - 1) .lengthDelimited
  obtain ⟨hsame, hmore⟩ := hkept located hread
  exact ⟨hread, hread ▸ hchecked (by decide), hsame [0, 131, 0, 97, 98, 99] 6 rfl (by decide),
    hmore [0] _ (Nat.le_refl _)⟩

end Payload

end WireTree
