import WireTree.Proofs.Nesting

/-!
# Decoding a prefix

A window that is cut off keeps the records that end before the cut, and each of them is the same record. The one that
the cut goes through is no record any more: an item that begins the shorter window begins the longer one, and no item begins
another. So the fields of a prefix are fields of the whole, and what is left behind them is reported once, as an incomplete
field or as garbage.
-/

namespace WireTree

/-- Whether nothing but the bytes that are left stands where the value should be. -/
def Field.isIncomplete (field : Field) : Bool :=
  match field.value with
  | .incomplete _ => true
  | _ => false

/-! ### Records -/

namespace Record

theorem exists_stop_of_read_take (start : Nat) {length : Nat} {window : Bytes}
    (h : ∀ item rest, window = Item.bytes item ++ rest → length < item.bytes.length) :
    ∃ stop, read start (window.take length) = .error stop := by
  cases hread : read start (window.take length) with
  | error stop => exact ⟨stop, rfl⟩
  | ok record =>
    obtain ⟨item, rest, htake, -⟩ := read_eq_ok_iff.1 hread
    have hwindow : window = item.bytes ++ (rest ++ window.drop length) := by
      rw [← List.append_assoc, ← htake, List.take_append_drop]
    have hlength := h item _ hwindow
    have htaken := congrArg List.length htake
    rw [List.length_take, List.length_append] at htaken
    omega

end Record

namespace Framing

theorem lt_stop_of_mem_records {start length : Nat} {window : Bytes} {record : Record}
    (h : ∀ item rest, window = Item.bytes item ++ rest → length < item.bytes.length)
    (hrecord : record ∈ (ofWindow start window).records) : start + length < record.span.stop := by
  obtain ⟨items, rest, rfl, hrecords⟩ := exists_records start window
  rw [hrecords] at hrecord
  obtain ⟨before, item, behind, rfl, rfl⟩ := Item.mem_records hrecord
  show start + length < start + (Item.spell before).length + item.bytes.length
  cases before with
  | nil =>
    have hfirst := h item (Item.spell behind ++ rest) (by simp)
    omega
  | cons first before =>
    have hfirst := h first (Item.spell (before ++ item :: behind) ++ rest) (by simp)
    rw [Item.spell_cons, List.length_append]
    omega

theorem ofWindow_take_of_lt {length : Nat} {window : Bytes} (start : Nat)
    (h : ∀ item rest, window = Item.bytes item ++ rest → length < item.bytes.length) (hlength : length ≤ window.length) :
    (ofWindow start (window.take length)).records = [] ∧
      ((ofWindow start (window.take length)).stop = none ↔ length = 0) := by
  by_cases hzero : length = 0
  · rw [hzero, List.take_zero, ofWindow_nil]
    exact ⟨rfl, by simp⟩
  · obtain ⟨stop, hread⟩ := Record.exists_stop_of_read_take start h
    have hnonempty : window.take length ≠ [] := by
      intro hnil
      have hempty := congrArg List.length hnil
      rw [List.length_take, List.length_nil] at hempty
      omega
    rw [ofWindow_of_read_error hnonempty hread]
    exact ⟨rfl, by simp [hzero]⟩

/-- A prefix keeps the records that end in it, and there is nothing behind them just when it ends where one of them does. -/
theorem ofWindow_take (start : Nat) {length : Nat} {window : Bytes} (hlength : length ≤ window.length) :
    (ofWindow start (window.take length)).records =
        (ofWindow start window).records.filter (fun record => decide (record.span.stop ≤ start + length)) ∧
      ((ofWindow start (window.take length)).stop = none ↔
        length = 0 ∨ ∃ record ∈ (ofWindow start window).records, record.span.stop = start + length) := by
  induction hsize : window.length using Nat.strongRecOn generalizing start window length with
  | ind size ih =>
    -- The cut goes through the first item, or both windows have its record and the rest is shorter.
    by_cases hfirst : ∀ item rest, window = Item.bytes item ++ rest → length < item.bytes.length
    · obtain ⟨hrecords, hstop⟩ := ofWindow_take_of_lt start hfirst hlength
      have hbeyond : ∀ record ∈ (ofWindow start window).records, start + length < record.span.stop :=
        fun record hrecord => lt_stop_of_mem_records hfirst hrecord
      have hnone : (ofWindow start window).records.filter
          (fun record => decide (record.span.stop ≤ start + length)) = [] := by
        refine List.filter_eq_nil_iff.2 fun record hrecord => ?_
        have hbehind := hbeyond record hrecord
        simp only [decide_eq_true_eq]
        omega
      refine ⟨by rw [hrecords, hnone], hstop.trans ⟨.inl, ?_⟩⟩
      rintro (hzero | ⟨record, hrecord, hend⟩)
      · exact hzero
      · have hbehind := hbeyond record hrecord
        omega
    · push Not at hfirst
      obtain ⟨item, behind, rfl, hitem⟩ := hfirst
      have hpos := item.length_pos
      rw [List.length_append] at hlength hsize
      have htake : (item.bytes ++ behind).take length = item.bytes ++ behind.take (length - item.bytes.length) := by
        rw [List.take_append, List.take_of_length_le hitem]
      have hadd : start + item.bytes.length + (length - item.bytes.length) = start + length := by omega
      obtain ⟨hrecords, hstop⟩ := ih behind.length (by omega) (start + item.bytes.length)
        (show length - item.bytes.length ≤ behind.length by omega) rfl
      rw [hadd] at hrecords hstop
      have hend : (item.record start).span.stop = start + item.bytes.length := rfl
      rw [htake, ofWindow_item_append, ofWindow_item_append, List.filter_cons_of_pos (by simp [hend]; omega), hrecords]
      refine ⟨rfl, ?_⟩
      have hzero : length - item.bytes.length = 0 ↔ length = 0 ∨ start + item.bytes.length = start + length := by omega
      rw [hstop, hzero, or_assoc]
      simp only [List.mem_cons, exists_eq_or_imp, hend]

end Framing

/-! ### Fields -/

theorem Record.isIncomplete_decode (options : Options) (schema : Schema) (embed : Option Embed)
    (type : Option MessageType) (record : Record) :
    (record.decode options schema embed type).isIncomplete = false := by
  have hreads := reads_decode options schema embed type record
  unfold Field.isIncomplete
  generalize (record.decode options schema embed type).value = value at hreads
  cases hreads <;> rfl

theorem Stop.isIncomplete_of_field? {type : Option MessageType} {stop : Stop} {field : Field}
    (h : stop.field? type = some field) : field.isIncomplete = true := by
  cases stop with
  | garbage => cases h
  | incomplete =>
    cases h
    rfl

namespace Message

variable (options : Options) (schema : Schema) (embed : Option Embed) (type : Option MessageType) (start : Nat)
  (window : Bytes)

theorem complete_ofWindow :
    (ofWindow options schema embed type start window).fields.filter (fun field => !field.isIncomplete) =
      (Framing.ofWindow start window).records.map (Record.decode options schema embed type) := by
  have hrecords : ((Framing.ofWindow start window).records.map (Record.decode options schema embed type)).filter
      (fun field => !field.isIncomplete) =
        (Framing.ofWindow start window).records.map (Record.decode options schema embed type) := by
    refine List.filter_eq_self.2 fun field hfield => ?_
    obtain ⟨record, -, rfl⟩ := List.mem_map.1 hfield
    rw [Record.isIncomplete_decode]
    rfl
  have hlast : ((Framing.ofWindow start window).stop.bind (Stop.field? type)).toList.filter
      (fun field => !field.isIncomplete) = [] := by
    refine List.filter_eq_nil_iff.2 fun field hfield => ?_
    obtain ⟨stop, -, hfield⟩ := Option.bind_eq_some_iff.1 (Option.mem_toList.1 hfield)
    simp [Stop.isIncomplete_of_field? hfield]
  rw [fields_ofWindow, List.filter_append, hrecords, hlast, List.append_nil]

theorem exists_isIncomplete_iff :
    (∃ field ∈ (ofWindow options schema embed type start window).fields, field.isIncomplete = true) ↔
      ((Framing.ofWindow start window).stop.bind (Stop.field? type)).isSome = true := by
  rw [fields_ofWindow]
  constructor
  · rintro ⟨field, hfield, hincomplete⟩
    rcases List.mem_append.1 hfield with hfield | hfield
    · obtain ⟨record, -, rfl⟩ := List.mem_map.1 hfield
      rw [Record.isIncomplete_decode] at hincomplete
      cases hincomplete
    · exact Option.isSome_iff_exists.2 ⟨field, Option.mem_toList.1 hfield⟩
  · intro h
    obtain ⟨field, hfield⟩ := Option.isSome_iff_exists.1 h
    obtain ⟨stop, -, hstop⟩ := Option.bind_eq_some_iff.1 hfield
    exact ⟨field, List.mem_append_right _ (Option.mem_toList.2 hfield), Stop.isIncomplete_of_field? hstop⟩

theorem garbage_xor_incomplete (hstop : (Framing.ofWindow start window).stop ≠ none) :
    Xor ((ofWindow options schema embed type start window).garbage.isSome = true)
      (∃ field ∈ (ofWindow options schema embed type start window).fields, field.isIncomplete = true) := by
  rw [exists_isIncomplete_iff, garbage_ofWindow]
  obtain ⟨stop, hstop⟩ := Option.ne_none_iff_exists'.1 hstop
  rw [hstop]
  cases stop with
  | garbage => exact .inl ⟨rfl, Bool.false_ne_true⟩
  | incomplete => exact .inr ⟨rfl, Bool.false_ne_true⟩

theorem neither_iff :
    ((ofWindow options schema embed type start window).garbage = none ∧
      ∀ field ∈ (ofWindow options schema embed type start window).fields, field.isIncomplete = false) ↔
    (Framing.ofWindow start window).stop = none := by
  constructor
  · rintro ⟨hgarbage, hfields⟩
    by_contra hstop
    rcases garbage_xor_incomplete options schema embed type start window hstop with
      ⟨hsome, -⟩ | ⟨⟨field, hfield, hincomplete⟩, -⟩
    · rw [hgarbage] at hsome
      cases hsome
    · rw [hfields field hfield] at hincomplete
      cases hincomplete
  · intro hstop
    refine ⟨by rw [garbage_ofWindow, hstop]; rfl, fun field hfield => ?_⟩
    by_contra hincomplete
    have hsome := (exists_isIncomplete_iff options schema embed type start window).1
      ⟨field, hfield, by simpa using hincomplete⟩
    rw [hstop] at hsome
    cases hsome

/-- Decoding a prefix gives the complete fields that end in it, as they are, and one thing more just when the prefix ends
elsewhere than behind one of them: an incomplete field, or garbage. -/
theorem decode_take (data : Bytes) (length : Nat) (hlength : length ≤ data.length) :
    let whole := decode options schema type data
    let cut := decode options schema type (data.take length)
    let complete := whole.fields.filter fun field => !field.isIncomplete
    let bounded := length = 0 ∨ ∃ field ∈ complete, field.span.stop = length
    (∃ last : Option Field,
      cut.fields = complete.filter (fun field => decide (field.span.stop ≤ length)) ++ last.toList ∧
        ∀ field ∈ last, field.isIncomplete = true) ∧
    ((cut.garbage = none ∧ ∀ field ∈ cut.fields, field.isIncomplete = false) ↔ bounded) ∧
    (¬ bounded → Xor (cut.garbage.isSome = true) (∃ field ∈ cut.fields, field.isIncomplete = true)) := by
  intro whole cut complete bounded
  have hrun : ∀ data, decode options schema type data =
      ofWindow options schema (entering options schema options.maxDepth) type 0 data := by
    intro data
    rw [decode_eq, ofBudget_eq]
  obtain ⟨hrecords, hstop⟩ := Framing.ofWindow_take 0 hlength
  rw [Nat.zero_add] at hrecords hstop
  have hcomplete : complete = (Framing.ofWindow 0 data).records.map
      (Record.decode options schema (entering options schema options.maxDepth) type) := by
    rw [← complete_ofWindow, ← hrun]
  have hbounded : (Framing.ofWindow 0 (data.take length)).stop = none ↔ bounded := by
    show _ ↔ length = 0 ∨ ∃ field ∈ complete, field.span.stop = length
    rw [hstop, hcomplete]
    simp only [List.mem_map, exists_exists_and_eq_and, Record.span_decode]
  have hneither := neither_iff options schema (entering options schema options.maxDepth) type 0 (data.take length)
  have hxor := garbage_xor_incomplete options schema (entering options schema options.maxDepth) type 0 (data.take length)
  rw [← hrun] at hneither hxor
  refine ⟨⟨(Framing.ofWindow 0 (data.take length)).stop.bind (Stop.field? type), ?_, fun field hfield => ?_⟩,
    hneither.trans hbounded, fun hbound => hxor (mt hbounded.1 hbound)⟩
  · show (decode options schema type (data.take length)).fields = _
    rw [hrun, fields_ofWindow, hrecords, hcomplete, List.filter_map]
    simp only [Function.comp_def, Record.span_decode]
  · obtain ⟨stop, -, hfield⟩ := Option.bind_eq_some_iff.1 hfield
    exact Stop.isIncomplete_of_field? hfield

/-- The cut goes through the length of the second of two fields, and what is left of it is incomplete. -/
theorem decode_take_three :
    let data : Bytes := [8, 1, 18, 2, 97, 98]
    let cut := decode {} {} none (data.take 3)
    let number : Field := ⟨1, .varint, ⟨0, 2⟩, none, .uint32, .scalar (.uint32 1), [], []⟩
    let rest : Field :=
      ⟨2, .lengthDelimited, ⟨2, 3⟩, none, .none, .incomplete [], [], [⟨⟨2, 3⟩, .malformedLength 3⟩]⟩
    3 ≤ data.length ∧ cut.fields = [number, rest] ∧
      Xor (cut.garbage.isSome = true) (∃ field ∈ cut.fields, field.isIncomplete = true) := by
  intro data cut number rest
  have hfields : cut.fields = [number, rest] := by with_unfolding_all rfl
  have hwhole : (decode {} {} none data).fields =
      [number, ⟨2, .lengthDelimited, ⟨2, 6⟩, none, .none, .scalar (.raw (.bytes [97, 98])), [], []⟩] := by
    with_unfolding_all rfl
  refine ⟨by decide, hfields, (decode_take {} {} none data 3 (by decide)).2.2 ?_⟩
  rintro (hzero | ⟨field, hfield, hstop⟩)
  · cases hzero
  · rw [hwhole] at hfield
    rcases List.mem_cons.1 (List.mem_filter.1 hfield).1 with rfl | hfield
    · cases hstop
    · obtain rfl := List.mem_singleton.1 hfield
      cases hstop

end Message

end WireTree
