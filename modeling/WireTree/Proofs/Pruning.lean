import WireTree.Proofs.Entering

/-!
# What the depth limit leaves out

A run with a lower limit gives the tree of a run with a higher one, pruned: each message that lies one level too deep is
replaced by its bytes, with a note, and nothing else changes. A message is at least two bytes shorter than the one around
it, so no message lies deeper than half the number of bytes, and a limit that allows as much prunes nothing.
-/

namespace WireTree

/-! ### Pruned trees -/

/-- The field, with `change` done to the message in it if it holds one. -/
def Field.changeMessage (change : Message → Message) (field : Field) : Field :=
  match field.value with
  | .message embedded => { field with value := .message (change embedded) }
  | _ => field

/-- The field, with the bytes of the message in it for the message, and a note that it lies deeper than `limit`. -/
def Field.cut (data : Bytes) (limit : Nat) (field : Field) : Field :=
  match field.value with
  | .message embedded =>
    { field with
      value := .scalar (.raw (.bytes (embedded.span.slice data)))
      diagnostics := [⟨embedded.span, .nestingLimit limit⟩] }
  | _ => field

/-- The tree, with the messages cut off that lie in a message `level` levels down. -/
def Message.prune (data : Bytes) (limit : Nat) : (level : Nat) → Message → Message
  | 0, message => { message with fields := message.fields.map (Field.cut data limit) }
  | level + 1, message => { message with fields := message.fields.map (Field.changeMessage (prune data limit level)) }

theorem Field.changeMessage_of_ne {change : Message → Message} {field : Field}
    (h : ∀ embedded, field.value ≠ .message embedded) : field.changeMessage change = field := by
  unfold changeMessage
  split
  · rename_i embedded hvalue
    exact absurd hvalue (h embedded)
  · rfl

theorem Field.cut_of_ne {data : Bytes} {limit : Nat} {field : Field}
    (h : ∀ embedded, field.value ≠ .message embedded) : field.cut data limit = field := by
  unfold cut
  split
  · rename_i embedded hvalue
    exact absurd hvalue (h embedded)
  · rfl

namespace Message

theorem prune_note (data : Bytes) (limit level : Nat) (message : Message) (error : DecodeError) :
    prune data limit level { message with diagnostics := ⟨message.span, error⟩ :: message.diagnostics } =
      let pruned := message.prune data limit level
      { pruned with diagnostics := ⟨pruned.span, error⟩ :: pruned.diagnostics } := by
  cases level <;> rfl

theorem prune_eq_self (data : Bytes) (limit : Nat) {level : Nat} {message : Message}
    (h : ∀ deeper inner, message.Nests deeper inner → deeper ≤ level) : message.prune data limit level = message := by
  induction level generalizing message with
  | zero =>
    have hfields : message.fields.map (Field.cut data limit) = message.fields := by
      refine (List.map_congr_left fun field hfield => Field.cut_of_ne fun embedded hvalue => ?_).trans (List.map_id _)
      have hone := h 1 embedded (.inside hfield hvalue (.self embedded))
      omega
    rw [prune, hfields]
    cases message
    rfl
  | succ level ih =>
    have hfields : message.fields.map (Field.changeMessage (prune data limit level)) = message.fields := by
      refine (List.map_congr_left fun field hfield => ?_).trans (List.map_id _)
      unfold Field.changeMessage
      split
      · rename_i embedded hvalue
        have hembedded : embedded.prune data limit level = embedded := by
          refine ih fun deeper inner hinner => ?_
          have hbelow := h (deeper + 1) inner (.inside hfield hvalue hinner)
          omega
        rw [hembedded, ← hvalue]
        cases field
        rfl
      · rfl
    rw [prune, hfields]
    cases message
    rfl

end Message

/-! ### Records -/

theorem Framing.exists_content_of_mem_records {start : Nat} {window content : Bytes} {record : Record}
    (h : record ∈ (ofWindow start window).records) (hpayload : record.payload = .bytes content) :
    ∃ front back : Bytes, window = front ++ (content ++ back) ∧
      record.valueSpan = .ofLength (start + front.length) content.length := by
  obtain ⟨front, item, back, rfl, rfl⟩ := exists_item_of_mem_records h
  obtain ⟨lead, hfits, hbody⟩ := ItemBody.lengthDelimited_of_payload hpayload
  refine ⟨front ++ item.tag.bytes ++ lead.bytes, back, ?_, ?_⟩
  · simp [Item.bytes_lengthDelimited hbody]
  · simp [Item.valueSpan_lengthDelimited hbody, Nat.add_assoc]

namespace Record

variable {schema : Schema} {type : Option MessageType} {record : Record}

theorem decode_cut (options : Options) {data : Bytes} {enter : Embed}
    (henter : ∀ nested content, record.payload = .bytes content →
      (enter nested record.valueSpan.start content).span = record.valueSpan ∧
        record.valueSpan.slice data = content)
    (limit deeper : Nat) :
    record.decode { options with maxDepth := limit } schema none type =
      (record.decode { options with maxDepth := deeper } schema (some enter) type).cut data limit := by
  rcases enters_or_flat options schema type record with
    ⟨description, nested, content, henters⟩ | ⟨field, hflat, hsame⟩
  · obtain ⟨hspan, hslice⟩ := henter nested content henters.payload
    rw [decode_of_enters henters, decode_of_enters henters]
    simp only [asMessage, field, keep, Field.cut, hspan, hslice, henters.payload]
  · rw [hsame, hsame, Field.cut_of_ne hflat.value]

theorem decode_changeMessage (options : Options) {enter enter' : Embed} {change : Message → Message}
    (henter : ∀ nested content, record.payload = .bytes content →
      enter nested record.valueSpan.start content = change (enter' nested record.valueSpan.start content))
    (limit deeper : Nat) :
    record.decode { options with maxDepth := limit } schema (some enter) type =
      (record.decode { options with maxDepth := deeper } schema (some enter') type).changeMessage change := by
  rcases enters_or_flat options schema type record with
    ⟨description, nested, content, henters⟩ | ⟨field, hflat, hsame⟩
  · rw [decode_of_enters henters, decode_of_enters henters]
    simp only [asMessage, field, Field.changeMessage, henter nested content henters.payload]
  · rw [hsame, hsame, Field.changeMessage_of_ne hflat.value]

end Record

/-! ### Messages -/

namespace Message

variable {options : Options} {schema : Schema} {type : Option MessageType}

/-- A run with fewer levels to go gives the pruned tree of one with more. -/
theorem ofBudget_prune (options : Options) (schema : Schema) (type : Option MessageType) (limit deeper : Nat)
    {budget larger : Nat} (hbudget : budget < larger) {data : Bytes} (front window back : Bytes)
    (hdata : data = front ++ (window ++ back)) :
    ofBudget { options with maxDepth := limit } schema budget type front.length window =
      (ofBudget { options with maxDepth := deeper } schema larger type front.length window).prune data limit budget := by
  obtain ⟨larger, rfl⟩ : ∃ fewer, larger = fewer + 1 := ⟨larger - 1, by omega⟩
  induction budget generalizing larger type front window back with
  | zero =>
    refine ofWindow_map_fields front.length window (fun field hflat => Field.cut_of_ne hflat.value) ?_
    intro record hrecord
    refine Record.decode_cut options (fun nested content hpayload => ?_) limit deeper
    obtain ⟨before, behind, rfl, hspan⟩ := Framing.exists_content_of_mem_records hrecord hpayload
    have hslice := Span.slice_append (front ++ before) content (behind ++ back)
    rw [span_ofBudget, hspan, hdata]
    exact ⟨rfl, by simpa [Span.ofLength] using hslice⟩
  | succ budget ih =>
    refine ofWindow_map_fields front.length window (fun field hflat => Field.changeMessage_of_ne hflat.value) ?_
    intro record hrecord
    refine Record.decode_changeMessage options (fun nested content hpayload => ?_) limit deeper
    obtain ⟨before, behind, rfl, hspan⟩ := Framing.exists_content_of_mem_records hrecord hpayload
    obtain ⟨fewer, rfl⟩ : ∃ fewer, larger = fewer + 1 := ⟨larger - 1, by omega⟩
    rw [hspan, Span.start_ofLength, ← List.length_append]
    exact ih (some nested) (front ++ before) content (behind ++ back) (by simp [hdata]) fewer (by omega)

theorem decodeWindow_prune_of_lt (options : Options) (schema : Schema) (type : Option MessageType) (data : Bytes)
    (offset length : Nat) {limit deeper : Nat} (hlimit : limit < deeper) :
    decodeWindow { options with maxDepth := limit } schema type data offset length =
      (decodeWindow { options with maxDepth := deeper } schema type data offset length).prune data limit limit := by
  obtain ⟨front, window, back, hdata, hfront, -, hwindow⟩ := exists_window data offset length
  have hprune := ofBudget_prune options schema type limit deeper hlimit front window back hdata
  rw [decodeWindow_eq _ schema type hfront hwindow, decodeWindow_eq _ schema type hfront hwindow]
  split
  · exact hprune
  · rw [prune_note, ← hprune]

theorem level_le_of_nests_decodeWindow {data : Bytes} {offset length level : Nat} {inner : Message}
    (h : (decodeWindow options schema type data offset length).Nests level inner) :
    level ≤ min options.maxDepth ((decodeWindow options schema type data offset length).span.length / 2) := by
  cases level with
  | zero => exact Nat.zero_le _
  | succ level =>
    obtain ⟨innerType, h⟩ := exists_type_of_nests_decodeWindow h
    -- Each level has a tag and a length in front of it, which take two bytes of the window at least.
    obtain ⟨hlevel, front, content, back, -, hsize, -⟩ := exists_content_of_nestsAs_decodeWindow h
    refine Nat.le_min.2 ⟨hlevel, ?_⟩
    omega

theorem decodeWindow_eq_of_le (options : Options) (schema : Schema) (type : Option MessageType) (data : Bytes)
    (offset length : Nat) {limit deeper : Nat} (hlimit : limit < deeper)
    (hsize : (min (offset + length) data.length - min offset data.length) / 2 ≤ limit) :
    decodeWindow { options with maxDepth := limit } schema type data offset length =
      decodeWindow { options with maxDepth := deeper } schema type data offset length := by
  rw [decodeWindow_prune_of_lt options schema type data offset length hlimit]
  refine prune_eq_self data limit fun level inner hinner => ?_
  have hlevel := (Nat.le_min.1 (level_le_of_nests_decodeWindow hinner)).2
  rw [span_decodeWindow, Span.length] at hlevel
  exact Nat.le_trans hlevel hsize

/-- A lower limit prunes the tree of a higher one, at its level and nowhere else. No message lies deeper than half the
number of bytes, and a limit that allows as much does not show at all. -/
theorem decodeWindow_prune (options : Options) (schema : Schema) (type : Option MessageType) (data : Bytes)
    (offset length : Nat) :
    let size := min (offset + length) data.length - min offset data.length
    let run (limit : Nat) := decodeWindow { options with maxDepth := limit } schema type data offset length
    (∀ limit deeper, limit < deeper → run limit = (run deeper).prune data limit limit) ∧
    (∀ limit level inner, (run limit).Nests level inner → level ≤ min limit (size / 2)) ∧
    ∀ limit limit', size / 2 ≤ limit → size / 2 ≤ limit' → run limit = run limit' := by
  intro size run
  refine ⟨fun limit deeper hlimit => ?_, fun limit level inner hinner => ?_, fun limit limit' hlimit hlimit' => ?_⟩
  · exact decodeWindow_prune_of_lt options schema type data offset length hlimit
  · have hlevel := level_le_of_nests_decodeWindow hinner
    rwa [span_decodeWindow] at hlevel
  · rcases Nat.lt_trichotomy limit limit' with hlt | rfl | hlt
    · exact decodeWindow_eq_of_le options schema type data offset length hlt hlimit
    · rfl
    · exact (decodeWindow_eq_of_le options schema type data offset length hlt hlimit').symm

/-- The innermost of three messages is pruned, and the field beside it is not. Limits of four and more prune none. -/
theorem decodeWindow_prune_three :
    let child : FieldDescription := ⟨"child", 2, .message, .single, some (.message ⟨0⟩)⟩
    let schema := Schema.build [.insertMessage "M", .addField ⟨0⟩ child]
    let type : MessageType := ⟨"M", ⟨0⟩, [(2, child)]⟩
    let data : Bytes := [18, 6, 18, 2, 18, 0, 8, 1]
    let run (limit : Nat) := decodeWindow { maxDepth := limit } schema (some type) data 0 8
    let cut : Field := ⟨2, .lengthDelimited, ⟨2, 6⟩, some "child", .message, .scalar (.raw (.bytes [18, 0])), [],
      [⟨⟨4, 6⟩, .nestingLimit 1⟩]⟩
    let beside : Field := ⟨1, .varint, ⟨6, 8⟩, none, .uint32, .scalar (.uint32 1), [], []⟩
    (run 1).fields = [⟨2, .lengthDelimited, ⟨0, 8⟩, some "child", .message,
      .message ⟨"M", ⟨2, 8⟩, [cut, beside], none, []⟩, [], []⟩] ∧ run 1 = (run 3).prune data 1 1 ∧
        run 4 = run 100 := by
  intro child schema type data run cut beside
  have hfields : (run 1).fields = [⟨2, .lengthDelimited, ⟨0, 8⟩, some "child", .message,
      .message ⟨"M", ⟨2, 8⟩, [cut, beside], none, []⟩, [], []⟩] := by with_unfolding_all rfl
  obtain ⟨hprune, -, hsame⟩ := decodeWindow_prune { maxDepth := 100 } schema (some type) data 0 8
  exact ⟨hfields, hprune 1 3 (by decide), hsame 4 100 (by decide) (by decide)⟩

end Message

end WireTree
