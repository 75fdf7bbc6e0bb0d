import WireTree.Proofs.Complaints
import WireTree.Proofs.Payload

/-!
# Bytes that are missing

An error that says that bytes are missing tells where a value starts, how many bytes it takes and how many are left. In a
decoded message it stands for a field that the end of the message cuts, so fewer bytes are left than the value takes, and
those that are left reach to the end of the message. A window that reaches behind the data is told of in the same way, with
one exception: an empty window that lies behind the data is said to lack none of no bytes.
-/

namespace WireTree

/-- `cause` is the error, or what the error says that an element of a row failed for. -/
inductive DecodeError.Tells : (error cause : DecodeError) → Prop
  | self (error : DecodeError) : Tells error error
  | element {type : FieldType} {span : Span} {error cause : DecodeError} (h : Tells error cause) :
    Tells (.packed type (.element span error)) cause

/-- Somewhere in the message, but not in a message inside it, `cause` is told of. -/
inductive Message.Tells (message : Message) (cause : DecodeError) : Prop
  | ofMessage (diagnostic : Diagnostic) (hmem : diagnostic ∈ message.diagnostics)
      (hcause : diagnostic.error.Tells cause) : Tells message cause
  | ofField (field : Field) (hfield : field ∈ message.fields) (diagnostic : Diagnostic)
      (hmem : diagnostic ∈ field.diagnostics) (hcause : diagnostic.error.Tells cause) : Tells message cause
  | ofCandidate (field : Field) (hfield : field ∈ message.fields) (candidate : Candidate)
      (hmem : candidate ∈ field.candidates) (error : DecodeError) (hreading : candidate.reading = .error error)
      (hcause : error.Tells cause) : Tells message cause

/-! ### Errors that tell of no missing bytes -/

namespace DecodeError

theorem Tells.eq {error cause : DecodeError} (h : error.Tells cause)
    (hrow : ∀ type span inner, error ≠ .packed type (.element span inner)) : cause = error := by
  cases h with
  | self => rfl
  | element => exact absurd rfl (hrow _ _ _)

theorem OfReading.not_tells_truncated {error : DecodeError} (herror : error.OfReading) {offset needed available : Nat} :
    ¬ error.Tells (.truncated offset needed available) := by
  intro h
  generalize hcause : DecodeError.truncated offset needed available = cause at h
  induction h with
  | self =>
    subst hcause
    cases herror
  | element _ ih =>
    cases herror with
    | row _ _ helement => exact ih (helement _ _ rfl) hcause

end DecodeError

theorem Record.Complains.not_tells_truncated {options : Options} {schema : Schema} {type : Option MessageType}
    {record : Record} {error : DecodeError} (herror : record.Complains options schema type error)
    {offset needed available : Nat} : ¬ error.Tells (.truncated offset needed available) := by
  intro h
  cases herror with
  | reading hreading => exact hreading.not_tells_truncated h
  | unknownMessage => cases h
  | tooDeep => cases h
  | unnamed => cases h

theorem Payload.Fails.eq_of_tells {start : Nat} {window : Bytes} {wireType : WireType} {error cause : DecodeError}
    (hfails : Fails start window wireType error) (h : error.Tells cause) : cause = error := by
  refine h.eq fun type span inner herror => ?_
  subst herror
  cases hfails

theorem Stop.Explains.not_tells_truncated {start : Nat} {rest : Bytes} {stop : Stop} (hstop : stop.Explains start rest)
    {diagnostic : Diagnostic} (hmem : diagnostic ∈ stop.diagnostics) {offset needed available : Nat} :
    ¬ diagnostic.error.Tells (.truncated offset needed available) := by
  intro h
  cases hstop with
  | malformed =>
    obtain rfl := List.mem_singleton.1 hmem
    cases h
  | unsupported =>
    obtain rfl := List.mem_singleton.1 hmem
    cases h
  | incomplete => cases hmem

/-! ### Messages -/

namespace Message

variable {options : Options} {schema : Schema} {embed : Option Embed} {type : Option MessageType}
  {start offset needed available : Nat} {window : Bytes}

theorem shortage_of_tells_ofWindow
    (h : (ofWindow options schema embed type start window).Tells (.truncated offset needed available)) :
    available < needed ∧ offset + available = start + window.length := by
  cases h with
  | ofMessage diagnostic hmem hcause =>
    obtain ⟨front, rest, stop, -, hexplains, hmem⟩ := exists_stop_of_mem_diagnostics hmem
    exact absurd hcause (hexplains.not_tells_truncated hmem)
  | ofField field hfield diagnostic hmem hcause =>
    rcases item_or_stop_of_mem_fields hfield with ⟨front, item, back, -, rfl⟩ | ⟨front, rest, stop, rfl, hexplains, hlast⟩
    · exact absurd hcause (Record.complains_decode hmem).not_tells_truncated
    · cases hexplains with
      | malformed => cases hlast
      | unsupported => cases hlast
      | incomplete tag wireType content error hrest hkind hbody =>
        cases hlast
        obtain rfl := List.mem_singleton.1 hmem
        have hfails := Payload.fails_of_read hbody
        rw [← hfails.eq_of_tells hcause] at hfails
        obtain ⟨hmissing, hend⟩ := hfails.shortage
        refine ⟨hmissing, ?_⟩
        rw [hend, hrest, List.length_append, List.length_append]
        omega
  | ofCandidate field hfield candidate hmem error hreading hcause =>
    rcases item_or_stop_of_mem_fields hfield with ⟨front, item, back, -, rfl⟩ | ⟨front, rest, stop, -, -, hlast⟩
    · rw [Record.reading_of_mem_candidates hmem] at hreading
      exact absurd hcause (Scalar.ofReading_of_read hreading).not_tells_truncated
    · cases stop with
      | garbage => cases hlast
      | incomplete =>
        cases hlast
        cases hmem

theorem shortage_of_tells_ofBudget {budget : Nat}
    (h : (ofBudget options schema budget type start window).Tells (.truncated offset needed available)) :
    available < needed ∧
      offset + available = (ofBudget options schema budget type start window).span.stop := by
  rw [span_ofBudget]
  rw [ofBudget_eq] at h
  exact shortage_of_tells_ofWindow h

theorem tells_cons_diagnostic {message : Message} {diagnostic : Diagnostic} {cause : DecodeError}
    (h : Tells { message with diagnostics := diagnostic :: message.diagnostics } cause) :
    diagnostic.error.Tells cause ∨ message.Tells cause := by
  cases h with
  | ofMessage found hmem hcause =>
    rcases List.mem_cons.1 hmem with rfl | hmem
    · exact .inl hcause
    · exact .inr (.ofMessage found hmem hcause)
  | ofField field hfield found hmem hcause => exact .inr (.ofField field hfield found hmem hcause)
  | ofCandidate field hfield candidate hmem error hreading hcause =>
    exact .inr (.ofCandidate field hfield candidate hmem error hreading hcause)

/-! ### Windows of the data -/

variable {data : Bytes} {length level : Nat} {inner : Message}

/-- What a message of a decoded window tells of comes from decoding its bytes, or it is the note on a window that reaches
behind the data. -/
theorem tells_decodeWindow_cases {cause : DecodeError}
    (hinner : (decodeWindow options schema type data offset length).Nests level inner) (h : inner.Tells cause) :
    (∃ budget innerType first content, inner.span = .ofLength first content.length ∧
      (ofBudget options schema budget innerType first content).Tells cause) ∨
    (level = 0 ∧ data.length < offset + length ∧ inner.span = ⟨min offset data.length, data.length⟩ ∧
      cause = .truncated (min offset data.length) length (data.length - min offset data.length)) := by
  cases level with
  | zero =>
    cases hinner
    obtain ⟨front, window, back, -, hfront, hlength, hwindow⟩ := exists_window data offset length
    have hspan := span_decodeWindow options schema type data offset length
    rw [decodeWindow_eq options schema type hfront hwindow] at h hspan ⊢
    by_cases hwithin : offset + length ≤ data.length
    · rw [if_pos hwithin] at h ⊢
      exact .inl ⟨_, _, _, _, span_ofBudget .., h⟩
    · rw [if_neg hwithin] at h hspan ⊢
      rcases tells_cons_diagnostic h with hnote | h
      · have hend : min (offset + length) data.length = data.length := by omega
        refine .inr ⟨rfl, by omega, by rw [hspan, hend], ?_⟩
        rw [hnote.eq fun _ _ _ => DecodeError.noConfusion, hfront, hlength, hend]
      · exact .inl ⟨_, _, _, _, span_ofBudget .., h⟩
  | succ level =>
    obtain ⟨innerType, hinner⟩ := exists_type_of_nests_decodeWindow hinner
    obtain ⟨-, front, content, -, -, -, rfl⟩ := exists_content_of_nestsAs_decodeWindow hinner
    exact .inl ⟨_, _, _, _, span_ofBudget .., h⟩

theorem tells_decodeWindow_behind (options : Options) (schema : Schema) (type : Option MessageType)
    (hbehind : data.length < offset + length) :
    (decodeWindow options schema type data offset length).Tells
      (.truncated (min offset data.length) length (data.length - min offset data.length)) := by
  obtain ⟨front, window, back, -, hfront, hlength, hwindow⟩ := exists_window data offset length
  have hend : data.length - min offset data.length = window.length := by omega
  rw [decodeWindow_eq options schema type hfront hwindow, if_neg (by omega), hend, ← hfront]
  exact .ofMessage _ List.mem_cons_self (.self _)

/-- **Missing bytes are missing**, with one exception. Where a message of a decoded tree tells of missing bytes, those that
are left reach to the end of the message, and fewer are left than needed. Only of an empty window behind the data it is told
that none of no bytes are left, and of each such window it is. -/
theorem shortage_decodeWindow (options : Options) (schema : Schema) (type : Option MessageType) (data : Bytes)
    (offset length : Nat) :
    let decoded := decodeWindow options schema type data offset length
    let emptyBehind := data.length < offset ∧ length = 0
    (∀ level inner first needed available, decoded.Nests level inner →
      inner.Tells (.truncated first needed available) →
        first + available = inner.span.stop ∧
          (available < needed ∨
            (emptyBehind ∧ level = 0 ∧ first = data.length ∧ needed = 0 ∧ available = 0))) ∧
    (emptyBehind → decoded.Tells (.truncated data.length 0 0)) := by
  intro decoded emptyBehind
  refine ⟨fun level inner first needed available hinner htells => ?_, fun hempty => ?_⟩
  · rcases tells_decodeWindow_cases hinner htells with
      ⟨budget, innerType, start, content, hspan, htells⟩ | ⟨hlevel, hbehind, hspan, hcause⟩
    · obtain ⟨hmissing, hend⟩ := shortage_of_tells_ofBudget htells
      rw [span_ofBudget, ← hspan] at hend
      exact ⟨hend, .inl hmissing⟩
    · obtain ⟨hfirst, hneeded, havailable⟩ := DecodeError.truncated.inj hcause
      rw [hspan]
      refine ⟨by simp only; omega, ?_⟩
      by_cases hempty : emptyBehind
      · obtain ⟨hoffset, hlength⟩ := hempty
        exact .inr ⟨⟨hoffset, hlength⟩, hlevel, by omega, by omega, by omega⟩
      · have hsome : ¬ (data.length < offset ∧ length = 0) := hempty
        exact .inl (by omega)
  · obtain ⟨hoffset, rfl⟩ := hempty
    have hbehind : data.length < offset + 0 := hoffset
    have htells := tells_decodeWindow_behind options schema type hbehind
    rwa [Nat.min_eq_right hoffset.le, Nat.sub_self] at htells

/-- A window of nine bytes in data of five, with a message in it that ends inside a number of four bytes. -/
theorem shortage_decodeWindow_nested :
    let child : FieldDescription := ⟨"child", 2, .message, .single, some (.message ⟨0⟩)⟩
    let schema := Schema.build [.insertMessage "M", .addField ⟨0⟩ child]
    let type : MessageType := ⟨"M", ⟨0⟩, [(2, child)]⟩
    let decoded := decodeWindow {} schema (some type) [18, 3, 13, 1, 2] 0 9
    let cut : Message := ⟨"M", ⟨2, 5⟩,
      [⟨1, .fixed32, ⟨2, 5⟩, none, .none, .incomplete [1, 2], [], [⟨⟨2, 5⟩, .truncated 3 4 2⟩]⟩], none, []⟩
    (decoded.Nests 1 cut ∧ cut.Tells (.truncated 3 4 2) ∧ 3 + 2 = cut.span.stop) ∧
      (decoded.Tells (.truncated 0 9 5) ∧ 0 + 5 = decoded.span.stop) ∧
      (decodeWindow {} schema (some type) [8, 1] 3 0).Tells (.truncated 2 0 0) := by
  intro child schema type decoded cut
  have hfields : decoded.fields = [⟨2, .lengthDelimited, ⟨0, 5⟩, some "child", .message, .message cut, [], []⟩] := by
    with_unfolding_all rfl
  have hnests : decoded.Nests 1 cut := .inside (hfields ▸ List.mem_cons_self) rfl (.self cut)
  have hcut : cut.Tells (.truncated 3 4 2) := .ofField _ List.mem_cons_self _ List.mem_cons_self (.self _)
  have hdecoded : decoded.Tells (.truncated 0 9 5) := .ofMessage _ List.mem_cons_self (.self _)
  have hshortage := (shortage_decodeWindow {} schema (some type) [18, 3, 13, 1, 2] 0 9).1
  have hempty := (shortage_decodeWindow {} schema (some type) [8, 1] 3 0).2
  exact ⟨⟨hnests, hcut, (hshortage 1 cut 3 4 2 hnests hcut).1⟩,
    ⟨hdecoded, (hshortage 0 decoded 0 9 5 (.self _) hdecoded).1⟩, hempty ⟨by decide, rfl⟩⟩

/-- So it is not so that wherever missing bytes are told of some are missing. -/
theorem not_shortage_of_empty_window :
    ¬ ∀ (data : Bytes) (offset length level : Nat) (inner : Message) (first needed available : Nat),
      (decodeWindow {} {} none data offset length).Nests level inner →
        inner.Tells (.truncated first needed available) → available < needed := by
  intro h
  have htells : (decodeWindow {} {} none [8, 1] 3 0).Tells (.truncated 2 0 0) :=
    tells_decodeWindow_behind {} {} none (by decide)
  exact absurd (h [8, 1] 3 0 0 _ 2 0 0 (.self _) htells) (by decide)

end Message

end WireTree
