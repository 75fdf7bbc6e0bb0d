import WireTree.Proofs.Entering
import WireTree.Proofs.Rendering

/-!
# Decoded trees as text

No line of a decoded tree is broken, if no name of the schema breaks a line: whatever the bytes are, a value is shown on one
line, and so is what is wrong with it. This goes level by level, since the header of a message stands on the line of the
field around it. So the text of every decoded message mirrors its tree.
-/

namespace WireTree

/-! ### Fields -/

namespace Field

theorem isLine_head {field : Field} (hname : ∀ name, field.name = some name → IsLine name)
    (hvalue : IsLine field.value.text)
    (hcandidates : ∀ candidate ∈ field.candidates, ∀ value, candidate.reading = .ok value → IsLine value.text) :
    IsLine field.head := by
  have hshown : IsLine (field.name.getD "<unknown>") := by
    cases hfound : field.name with
    | none => decide
    | some name => exact hname name hfound
  have hreadings : IsLine (", ".intercalate (field.candidates.filterMap Candidate.text?)) := by
    refine isLine_intercalate (by decide) fun shown hmem => ?_
    obtain ⟨candidate, hcandidate, hread⟩ := List.mem_filterMap.1 hmem
    unfold Candidate.text? at hread
    split at hread
    · rename_i value hvalue
      cases hread
      simp +decide [hcandidates candidate hcandidate value hvalue]
    · cases hread
  unfold head
  split
  · simp +decide [hshown, hvalue]
  · simp +decide [hshown, hreadings]

theorem unbroken_lines {field : Field} (depth : Nat) (hhead : IsLine field.head)
    (hdiagnostics : ∀ diagnostic ∈ field.diagnostics, IsLine diagnostic.error.message)
    (hembedded : ∀ embedded, field.value = .message embedded → Line.Unbroken embedded.lines) :
    Line.Unbroken (field.lines depth) := by
  intro line hline
  rw [lines_eq, List.mem_cons, List.mem_append] at hline
  rcases hline with rfl | hline | hline
  · exact hhead
  · obtain ⟨diagnostic, hmem, rfl⟩ := List.mem_map.1 hline
    exact isLine_append.2 ⟨by decide, Diagnostic.isLine_text (hdiagnostics diagnostic hmem)⟩
  · cases hvalue : field.value with
    | message embedded =>
      -- The lines of the embedded message are known at the depth of its own text.
      have hbody : embedded.bodyLines (1 + depth) = (embedded.bodyLines 1).map (Line.deepen depth) :=
        embedded.bodyLines_deepen depth 1
      rw [hvalue, Value.bodyLines, Nat.add_comm, hbody] at hline
      obtain ⟨found, hfound, rfl⟩ := List.mem_map.1 hline
      exact hembedded embedded hvalue found (List.mem_cons_of_mem _ hfound)
    | scalar | packed | incomplete =>
      rw [hvalue] at hline
      cases hline

end Field

/-! ### Records -/

namespace Packed

theorem isLine_text_of_read {options : Options} {enumType : Option EnumType}
    (henum : ∀ found, enumType = some found → found.NamesAreLines) {type : FieldType} {start : Nat} {content : Bytes}
    {elements : List Element} (h : read options enumType type start content = .ok elements) :
    IsLine (Value.packed elements).text := by
  obtain ⟨wireType, values, -, -, -, helements⟩ := read_eq_ok_iff.1 h
  have htexts : ∀ element ∈ elements, IsLine element.value.text := by
    clear h
    induction helements with
    | nil => simp
    | cons hread _ ih =>
      refine List.forall_mem_cons.2 ⟨?_, ih⟩
      unfold readElement at hread
      split at hread
      · rename_i value hvalue
        cases hread
        exact Scalar.isLine_text_of_read henum hvalue
      · cases hread
  have hrow : IsLine (", ".intercalate (elements.map (·.value.text))) := by
    refine isLine_intercalate (by decide) fun shown hshown => ?_
    obtain ⟨element, helement, rfl⟩ := List.mem_map.1 hshown
    exact htexts element helement
  simp +decide [Value.text, hrow]

end Packed

/-- Whether messages are entered with trees that have no broken line. -/
def KeepsLines (schema : Schema) (embed : Option Embed) : Prop :=
  ∀ enter, embed = some enter → ∀ nested ∈ schema.messages, ∀ start content,
    Line.Unbroken (enter nested start content).lines

namespace Record

variable {options : Options} {schema : Schema} {embed : Option Embed} {type : Option MessageType}

theorem isLine_text_undescribed (options : Options) (record : Record) :
    IsLine (record.undescribed options).value.text := by
  have hraw : IsLine record.payload.text := Payload.isLine_text _
  unfold undescribed
  split
  · exact hraw
  · simp only [guessed]
    split
    · exact isLine_repr _
    · exact isLine_repr _
    · split
      · rename_i value hvalue
        exact Scalar.isLine_text_of_read (by simp) hvalue
      · exact hraw

theorem isLine_text_described (hschema : schema.NamesAreLines) (hembed : KeepsLines schema embed)
    (description : FieldDescription) (record : Record) :
    IsLine (record.described options schema embed description).value.text := by
  have hraw : IsLine record.payload.text := Payload.isLine_text _
  have henum : ∀ found, schema.enumOf? description = some found → found.NamesAreLines := fun found hfound =>
    hschema.enums found (Schema.mem_of_enumOf? hfound)
  rcases described_cases description record with ⟨content, -, hreading⟩ | ⟨content, -, -, -, hreading⟩ | hreading <;>
    rw [hreading]
  · unfold asPacked
    split
    · rename_i elements hread
      exact Packed.isLine_text_of_read henum hread
    · exact hraw
  · unfold asMessage
    split
    · exact hraw
    · exact hraw
    · rename_i nested enter hnested
      have hmem := Schema.mem_of_messageOf? hnested
      exact hembed enter rfl nested hmem record.valueSpan.start content _ List.mem_cons_self
  · unfold asScalar
    split
    · rename_i value hread
      exact Scalar.isLine_text_of_read henum hread
    · exact hraw

theorem unbroken_decode (hschema : schema.NamesAreLines) (htype : ∀ found, type = some found → found.NamesAreLines)
    (hembed : KeepsLines schema embed) (record : Record) (depth : Nat) :
    Line.Unbroken ((record.decode options schema embed type).lines depth) := by
  refine Field.unbroken_lines depth (Field.isLine_head ?_ ?_ ?_) ?_ ?_
  · intro name hname
    unfold decode at hname
    split at hname
    · rename_i description hdescribed
      cases hname
      exact isLine_of_describe htype hdescribed
    · cases hname
  · unfold decode
    split
    · exact isLine_text_described hschema hembed _ record
    · exact isLine_text_undescribed options record
  · intro candidate hcandidate value hvalue
    rw [reading_of_mem_candidates hcandidate] at hvalue
    exact Scalar.isLine_text_of_read (by simp) hvalue
  · intro diagnostic hmem
    exact (complains_decode hmem).isLine_message hschema htype
  · intro embedded hvalue
    obtain ⟨description, nested, content, enter, henters, henter, rfl⟩ := enters_of_message hvalue
    exact hembed enter henter nested (Schema.mem_of_messageOf? henters.nested) _ _

end Record

/-! ### Messages -/

namespace Message

variable {options : Options} {schema : Schema} {embed : Option Embed} {type : Option MessageType}

theorem unbroken_lines {message : Message} (hname : IsLine message.name)
    (hdiagnostics : ∀ diagnostic ∈ message.diagnostics, IsLine diagnostic.error.message)
    (hfields : ∀ field ∈ message.fields, Line.Unbroken (field.lines 1)) : Line.Unbroken message.lines := by
  intro line hline
  rw [lines, List.mem_cons, bodyLines_eq, List.mem_append, List.mem_append] at hline
  rcases hline with rfl | (hline | hline) | hline
  · simp +decide [header, hname]
  · obtain ⟨diagnostic, hmem, rfl⟩ := List.mem_map.1 hline
    exact isLine_append.2 ⟨by decide, Diagnostic.isLine_text (hdiagnostics diagnostic hmem)⟩
  · obtain ⟨field, hfield, hmem⟩ := List.mem_flatMap.1 hline
    exact hfields field hfield line hmem
  · obtain ⟨content, -, rfl⟩ := Option.map_eq_some_iff.1 (Option.mem_toList.1 hline)
    exact isLine_append.2 ⟨by decide, Hex.isLine_encode content⟩

theorem unbroken_cons_diagnostic {message : Message} (h : Line.Unbroken message.lines) {diagnostic : Diagnostic}
    (hdiagnostic : IsLine diagnostic.error.message) :
    Line.Unbroken (lines { message with diagnostics := diagnostic :: message.diagnostics }) := by
  intro line hline
  rw [lines, bodyLines_eq, List.map_cons, List.cons_append, List.cons_append, List.mem_cons, List.mem_cons,
    ← bodyLines_eq] at hline
  rcases hline with rfl | rfl | hline
  · exact h _ List.mem_cons_self
  · exact isLine_append.2 ⟨by decide, Diagnostic.isLine_text hdiagnostic⟩
  · exact h line (List.mem_cons_of_mem _ hline)

theorem unbroken_field? (htype : ∀ found, type = some found → found.NamesAreLines) {start : Nat} {rest : Bytes}
    {stop : Stop} (hstop : stop.Explains start rest) {field : Field} (hfield : stop.field? type = some field) :
    Line.Unbroken (field.lines 1) := by
  cases hstop with
  | malformed => cases hfield
  | unsupported => cases hfield
  | incomplete tag wireType content error hrest hkind hbody =>
    cases hfield
    refine Field.unbroken_lines 1 (Field.isLine_head ?_ ?_ ?_) ?_ ?_
    · intro name hname
      obtain ⟨description, hdescribed, rfl⟩ := Option.map_eq_some_iff.1 hname
      exact isLine_of_describe htype hdescribed
    · exact isLine_append.2 ⟨by decide, Hex.isLine_encode content⟩
    · exact fun candidate hcandidate => absurd hcandidate List.not_mem_nil
    · intro diagnostic hmem
      obtain rfl := List.mem_singleton.1 hmem
      exact (Payload.fails_of_read hbody).isLine_message
    · exact fun embedded => Value.noConfusion

theorem unbroken_ofWindow (hschema : schema.NamesAreLines) (htype : ∀ found, type = some found → found.NamesAreLines)
    (hembed : KeepsLines schema embed) (start : Nat) (window : Bytes) :
    Line.Unbroken (ofWindow options schema embed type start window).lines := by
  refine unbroken_lines ?_ ?_ ?_
  · cases htype' : type with
    | none => exact (by decide : IsLine unknownName)
    | some found => exact (htype found htype').fullName
  · intro diagnostic hmem
    obtain ⟨front, rest, stop, -, hexplains, hmem⟩ := exists_stop_of_mem_diagnostics hmem
    exact hexplains.isLine_message hmem
  · intro field hfield
    rcases item_or_stop_of_mem_fields hfield with ⟨front, item, back, -, rfl⟩ | ⟨front, rest, stop, -, hexplains, hlast⟩
    · exact Record.unbroken_decode hschema htype hembed _ 1
    · exact unbroken_field? htype hexplains hlast

theorem unbroken_ofBudget (hschema : schema.NamesAreLines) {budget : Nat}
    (htype : ∀ found, type = some found → found ∈ schema.messages) (start : Nat) (window : Bytes) :
    Line.Unbroken (ofBudget options schema budget type start window).lines := by
  induction budget generalizing type start window with
  | zero =>
    exact unbroken_ofWindow hschema (fun found hfound => hschema.messages found (htype found hfound))
      (fun _ hnone => by cases hnone) start window
  | succ budget ih =>
    refine unbroken_ofWindow hschema (fun found hfound => hschema.messages found (htype found hfound)) ?_ start window
    rintro enter ⟨⟩ nested hnested start content
    refine ih ?_ start content
    rintro found ⟨⟩
    exact hnested

/-! ### All levels -/

/-- Whether no message in the message, itself included, has a broken line. -/
def AllUnbroken (message : Message) : Prop := ∀ level inner, message.Nests level inner → Line.Unbroken inner.lines

theorem AllUnbroken.cons_diagnostic {message : Message} (h : message.AllUnbroken) {diagnostic : Diagnostic}
    (hdiagnostic : IsLine diagnostic.error.message) :
    AllUnbroken { message with diagnostics := diagnostic :: message.diagnostics } := by
  intro level inner hinner
  cases hinner with
  | self => exact unbroken_cons_diagnostic (h 0 message (.self message)) hdiagnostic
  | inside hfield hvalue hinner => exact h _ inner (.inside hfield hvalue hinner)

theorem AllUnbroken.mirrored {message inner : Message} (h : message.AllUnbroken) {level : Nat}
    (hinner : message.Nests level inner) : inner.Mirrored :=
  mirrored_of_unbroken (h level inner hinner) fun _ hfield embedded hvalue =>
    h (level + 1) embedded (hinner.trans (.inside hfield hvalue (.self embedded)))

theorem mem_messages_of_nestsAs {outer inner : Message} {innerType : Option MessageType} {level : Nat}
    (h : outer.NestsAs schema type level innerType inner)
    (htype : ∀ found, type = some found → found ∈ schema.messages) :
    ∀ found, innerType = some found → found ∈ schema.messages := by
  induction h with
  | self => exact htype
  | inside _ _ _ hnested _ ih =>
    refine ih ?_
    rintro found ⟨⟩
    exact Schema.mem_of_messageOf? hnested

theorem allUnbroken_ofBudget (hschema : schema.NamesAreLines) {budget : Nat}
    (htype : ∀ found, type = some found → found ∈ schema.messages) (start : Nat) (window : Bytes) :
    (ofBudget options schema budget type start window).AllUnbroken := by
  intro level inner hinner
  obtain ⟨innerType, hinner⟩ := exists_type_of_nests hinner
  have hinnerType := mem_messages_of_nestsAs hinner htype
  obtain ⟨-, front, content, back, -, -, rfl⟩ := eq_ofBudget_of_nestsAs hinner
  exact unbroken_ofBudget hschema hinnerType _ content

theorem allUnbroken_decodeWindow (hschema : schema.NamesAreLines)
    (htype : ∀ found, type = some found → found ∈ schema.messages) (data : Bytes) (offset length : Nat) :
    (decodeWindow options schema type data offset length).AllUnbroken := by
  obtain ⟨front, window, back, -, hfront, -, hwindow⟩ := exists_window data offset length
  have hbudget : (ofBudget options schema options.maxDepth type front.length window).AllUnbroken :=
    allUnbroken_ofBudget hschema htype _ window
  rw [decodeWindow_eq options schema type hfront hwindow]
  split
  · exact hbudget
  · refine hbudget.cons_diagnostic ?_
    change IsLine (_ ++ _)
    simp +decide

theorem allUnbroken_decodeNamed (hschema : schema.NamesAreLines) {name : String} (hname : IsLine name) (data : Bytes) :
    (decodeNamed options schema name data).AllUnbroken := by
  unfold decodeNamed
  split
  · rename_i found hfound
    refine allUnbroken_decodeWindow hschema ?_ data 0 data.length
    rintro _ ⟨⟩
    exact List.mem_of_find?_eq_some hfound
  · have hempty : Schema.NamesAreLines {} := ⟨by simp, by simp⟩
    refine (allUnbroken_decodeWindow hempty (by simp) data 0 data.length).cons_diagnostic ?_
    change IsLine (_ ++ _)
    simp +decide [hname]

/-- **The text of a decoded message mirrors its tree**, and so does that of each message in it, if neither a name of the
schema nor the name that is asked for holds a line feed. -/
theorem mirrored_decoded (options : Options) (schema : Schema) (hschema : schema.NamesAreLines) :
    (∀ type data offset length, (∀ found, type = some found → found ∈ schema.messages) →
      ∀ level inner, (decodeWindow options schema type data offset length).Nests level inner → inner.Mirrored) ∧
    ∀ name data, IsLine name →
      ∀ level inner, (decodeNamed options schema name data).Nests level inner → inner.Mirrored :=
  ⟨fun _ data offset length htype _ _ hinner =>
      (allUnbroken_decodeWindow hschema htype data offset length).mirrored hinner,
    fun _ data hname _ _ hinner => (allUnbroken_decodeNamed hschema hname data).mirrored hinner⟩

/-- A string that looks like the line of a diagnostic stays on the line of its field, and the one diagnostic is found in
the message inside. -/
theorem mirrored_decoded_nested :
    let string : FieldDescription := ⟨"s", 1, .string, .single, none⟩
    let child : FieldDescription := ⟨"child", 2, .message, .single, some (.message ⟨0⟩)⟩
    let schema := Schema.build [.insertMessage "M", .addField ⟨0⟩ string, .addField ⟨0⟩ child]
    let decoded := decodeNamed {} schema "M" [18, 4, 10, 1, 10, 255, 10, 2, 10, 33]
    schema.NamesAreLines ∧ IsLine "M" ∧ decoded.isComplete = false ∧
      rows decoded.text = ["M (0..10)", "  Field(2): child = M (2..6) (message)",
        "    ! [error] Failed to parse tag at offset 5 (5..6)", "    Field(1): s = \"\\n\" (string)", "    garbage: ff",
        "  Field(1): s = \"\\n!\" (string)"] ∧
      decoded.allDiagnostics.map Diagnostic.mark = ["! [error] Failed to parse tag at offset 5 (5..6)"] := by
  intro string child schema decoded
  have hschema : schema.NamesAreLines := by
    refine ⟨fun type htype => ?_, fun type htype => absurd htype List.not_mem_nil⟩
    obtain rfl := List.mem_singleton.1 (htype : type ∈ [(⟨"M", ⟨0⟩, [(1, string), (2, child)]⟩ : MessageType)])
    exact ⟨by decide, by decide⟩
  have hname : IsLine "M" := by decide
  have hrows : rows decoded.text = ["M (0..10)", "  Field(2): child = M (2..6) (message)",
      "    ! [error] Failed to parse tag at offset 5 (5..6)", "    Field(1): s = \"\\n\" (string)", "    garbage: ff",
      "  Field(1): s = \"\\n!\" (string)"] := by decide +kernel
  have hmirrored : decoded.Mirrored :=
    (mirrored_decoded {} schema hschema).2 "M" [18, 4, 10, 1, 10, 255, 10, 2, 10, 33] hname 0 decoded (.self decoded)
  have hmarked := hmirrored.marked
  have hcomplete := hmirrored.complete
  rw [hrows] at hmarked hcomplete
  exact ⟨hschema, hname, hcomplete.2 ⟨_, List.mem_cons_of_mem _ List.mem_cons_self, by decide +kernel⟩, hrows,
    hmarked.symm.trans (by decide +kernel)⟩

end Message

end WireTree
