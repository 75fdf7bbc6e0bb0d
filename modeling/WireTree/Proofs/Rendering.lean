import WireTree.Proofs.OneLine
import WireTree.Proofs.Schemaless
import WireTree.Proofs.Size

/-!
# Trees and the lines of their text

The text of a message has a line for its header and one for each field, diagnostic and stretch of garbage in it, in the order
in which they come in the tree. What belongs to a field stands two spaces further in, so the text of a message is made of the
texts of its fields. A line that begins with a mark behind its spaces is a diagnostic. All this holds of every tree whose
lines hold no line feed of their own.
-/

namespace WireTree

/-! ### Texts as rows -/

/-- What stands in front of each line feed of the text, from the line feed before it on. -/
def rows (text : String) : List String := (text.toList.splitOn '\n').dropLast.map String.ofList

/-- Whether a line feed ends each row, and nothing stands behind the last. -/
def Ended (text : String) : Prop := text = String.join ((rows text).map (· ++ "\n"))

/-- Moves a row in by one level. -/
def indent (row : String) : String := "  " ++ row

/-- The row from its first character on that is no space. -/
def unindent (row : String) : String := String.ofList (row.toList.dropWhile (· == ' '))

/-- Whether the row begins with the mark of a diagnostic. -/
def isMarked (row : String) : Bool := row.toList.head? == some '!'

namespace Line

/-- The line without its line feed. -/
def row (line : Line) : String := String.ofList (List.replicate (2 * line.depth) ' ') ++ line.content

/-- Moves a line in by some levels. -/
def deepen (levels : Nat) (line : Line) : Line := ⟨line.depth + levels, line.content⟩

/-- Whether no line holds a line feed. -/
def Unbroken (lines : List Line) : Prop := ∀ line ∈ lines, IsLine line.content

theorem row_deepen (line : Line) : (line.deepen 1).row = indent line.row := by
  rw [row, row, deepen, indent, ← String.append_assoc, Nat.mul_add, Nat.mul_one, Nat.add_comm,
    ← List.replicate_append_replicate, String.ofList_append]
  rfl

theorem isLine_row {line : Line} (h : IsLine line.content) : IsLine line.row := by
  refine isLine_append.2 ⟨isLine_ofList.2 fun hmem => ?_, h⟩
  exact absurd (List.eq_of_mem_replicate hmem) (by decide)

theorem unindent_row {line : Line} (h : line.content.toList.head? ≠ some ' ') : unindent line.row = line.content := by
  have hcontent : line.content.toList.dropWhile (· == ' ') = line.content.toList := by
    cases hchars : line.content.toList with
    | nil => rfl
    | cons char chars =>
      rw [hchars, List.head?_cons, ne_eq, Option.some.injEq] at h
      rw [List.dropWhile_cons_of_neg (by simpa using h)]
  rw [unindent, row, String.toList_append, String.toList_ofList, List.dropWhile_append_of_pos, hcontent,
    String.ofList_toList]
  intro char hchar
  simpa using List.eq_of_mem_replicate hchar

theorem join_cons (line : Line) (lines : List Line) : join (line :: lines) = line.row ++ "\n" ++ join lines := by
  rw [join, List.map_cons, String.join_cons]
  rfl

theorem rows_join {lines : List Line} (h : Unbroken lines) : rows (join lines) = lines.map row := by
  induction lines with
  | nil => rfl
  | cons line lines ih =>
    obtain ⟨hline, hlines⟩ := List.forall_mem_cons.1 h
    have hfirst : ∀ char ∈ line.row.toList, (char == '\n') = false := by
      intro char hchar
      have hrow : IsLine line.row := isLine_row hline
      exact beq_false_of_ne fun heq => hrow (heq ▸ hchar)
    have hsplit : (join (line :: lines)).toList.splitOn '\n' =
        line.row.toList :: (join lines).toList.splitOn '\n' := by
      rw [join_cons]
      simp only [String.toList_append, List.append_assoc]
      exact List.splitOnP_append_cons_of_forall_mem hfirst '\n' (by decide) _
    have hrest : (join lines).toList.splitOn '\n' ≠ [] := List.splitOnP_ne_nil _ _
    rw [rows, hsplit, List.dropLast_cons_of_ne_nil hrest, List.map_cons, String.ofList_toList, List.map_cons, ← ih hlines]
    rfl

theorem ended_join {lines : List Line} (h : Unbroken lines) : Ended (join lines) := by
  rw [Ended, rows_join h, join, List.map_map]
  rfl

end Line

/-! ### Induction on messages in messages -/

/-- What holds of a message as soon as it holds of the messages in its fields holds of all messages. -/
@[elab_as_elim]
theorem Message.embedded_induction {motive : Message → Prop}
    (step : ∀ message : Message,
      (∀ field ∈ message.fields, ∀ embedded, field.value = .message embedded → motive embedded) → motive message)
    (message : Message) : motive message :=
  step message fun field _hfield embedded _hvalue => embedded_induction step embedded
termination_by sizeOf message
decreasing_by
  have hlist := List.sizeOf_lt_of_mem _hfield
  obtain ⟨name, span, fields, garbage, diagnostics⟩ := message
  obtain ⟨number, wireType, fieldSpan, fieldName, type, value, candidates, notes⟩ := field
  subst _hvalue
  simp only [Field.mk.sizeOf_spec, Value.message.sizeOf_spec, Message.mk.sizeOf_spec] at hlist ⊢
  omega

/-! ### Lines one level at a time -/

theorem Message.bodyLines_eq (depth : Nat) (message : Message) :
    message.bodyLines depth = message.diagnostics.map (Diagnostic.line depth) ++
      message.fields.flatMap (Field.lines depth) ++ (message.garbage.map (garbageLine depth)).toList := by
  rw [← fieldLines_eq_flatMap]
  cases message
  rfl

theorem Field.lines_eq (depth : Nat) (field : Field) :
    field.lines depth = ⟨depth, field.head⟩ :: (field.diagnostics.map (Diagnostic.line (depth + 1)) ++
      field.value.bodyLines (depth + 1)) := by
  cases field
  rfl

/-! ### Deeper lines -/

theorem Field.lines_deepen_of {levels depth : Nat} {field : Field}
    (h : field.value.bodyLines (depth + 1 + levels) = (field.value.bodyLines (depth + 1)).map (Line.deepen levels)) :
    field.lines (depth + levels) = (field.lines depth).map (Line.deepen levels) := by
  rw [lines_eq, lines_eq, Nat.add_right_comm, h]
  simp [Line.deepen, Diagnostic.line, Nat.add_right_comm]

theorem Message.bodyLines_deepen (levels depth : Nat) (message : Message) :
    message.bodyLines (depth + levels) = (message.bodyLines depth).map (Line.deepen levels) := by
  induction message using Message.embedded_induction generalizing depth with
  | step message ih =>
    have hfields : message.fields.flatMap (Field.lines (depth + levels)) =
        (message.fields.flatMap (Field.lines depth)).map (Line.deepen levels) := by
      rw [List.map_flatMap]
      refine List.flatMap_congr fun field hfield => Field.lines_deepen_of ?_
      cases hvalue : field.value with
      | message embedded => exact ih field hfield embedded hvalue (depth + 1)
      | scalar | packed | incomplete => rfl
    rw [bodyLines_eq, bodyLines_eq, hfields]
    cases message.garbage <;> simp [Line.deepen, Diagnostic.line, garbageLine]

theorem Field.lines_deepen (levels depth : Nat) (field : Field) :
    field.lines (depth + levels) = (field.lines depth).map (Line.deepen levels) := by
  refine lines_deepen_of ?_
  cases field.value with
  | message embedded => exact embedded.bodyLines_deepen levels (depth + 1)
  | scalar | packed | incomplete => rfl

/-! ### One line for each part -/

theorem Field.length_lines_of {depth : Nat} {field : Field}
    (h : (field.value.bodyLines (depth + 1)).length =
      field.value.count .field + field.value.allDiagnostics.length + field.value.count .garbage) :
    (field.lines depth).length = field.count .field + field.allDiagnostics.length + field.count .garbage := by
  simp only [lines_eq, allDiagnostics_eq, count_eq, List.length_cons, List.length_append, List.length_map, h, if_true,
    reduceCtorEq, if_false]
  omega

theorem Message.length_bodyLines (depth : Nat) (message : Message) :
    (message.bodyLines depth).length =
      message.count .field + message.allDiagnostics.length + message.count .garbage := by
  induction message using Message.embedded_induction generalizing depth with
  | step message ih =>
    have hfields : message.fields.map (fun field => (field.lines depth).length) = message.fields.map fun field =>
        field.count .field + field.allDiagnostics.length + field.count .garbage := by
      refine List.map_congr_left fun field hfield => Field.length_lines_of ?_
      cases hvalue : field.value with
      | message embedded => exact ih field hfield embedded hvalue (depth + 1)
      | scalar | packed | incomplete => rfl
    have hgarbage : (message.garbage.map (garbageLine depth)).toList.length = message.garbage.toList.length := by
      cases message.garbage <;> rfl
    rw [bodyLines_eq, allDiagnostics_eq, count_eq, count_eq]
    simp only [List.length_append, List.length_map, List.length_flatMap, hfields, hgarbage, countFields_eq_sum,
      List.sum_map_add, reduceCtorEq, if_false, if_true]
    omega

/-! ### Lines with a mark -/

namespace Diagnostic

/-- The line of a diagnostic, without the spaces in front. -/
def mark (diagnostic : Diagnostic) : String := "! " ++ diagnostic.text

theorem isMarked_mark (diagnostic : Diagnostic) : isMarked diagnostic.mark = true := by
  simp [isMarked, mark]

theorem marked_lines (depth : Nat) (diagnostics : List Diagnostic) :
    ((diagnostics.map (line depth)).map (·.content)).filter isMarked = diagnostics.map mark := by
  rw [List.map_map]
  refine List.filter_eq_self.2 fun row hrow => ?_
  obtain ⟨diagnostic, -, rfl⟩ := List.mem_map.1 hrow
  exact diagnostic.isMarked_mark

end Diagnostic

theorem Field.head?_head (field : Field) : field.head.toList.head? = some 'F' := by
  unfold head
  split <;> simp [toString]

theorem head?_garbageLine (depth : Nat) (content : Bytes) :
    (garbageLine depth content).content.toList.head? = some 'g' := by
  simp [garbageLine]

theorem Field.marked_lines_of {depth : Nat} {field : Field}
    (h : ((field.value.bodyLines (depth + 1)).map (·.content)).filter isMarked =
      field.value.allDiagnostics.map Diagnostic.mark) :
    ((field.lines depth).map (·.content)).filter isMarked = field.allDiagnostics.map Diagnostic.mark := by
  have hhead : isMarked field.head = false := by
    rw [isMarked, field.head?_head]
    decide
  have hdiagnostics : ((field.diagnostics.map (Diagnostic.line (depth + 1))).map (·.content)).filter isMarked =
      field.diagnostics.map Diagnostic.mark := Diagnostic.marked_lines _ _
  simp only [lines_eq, allDiagnostics_eq, List.map_cons, List.map_append, List.filter_cons, List.filter_append, h,
    hdiagnostics, hhead, Bool.false_eq_true, if_false]

theorem Message.marked_bodyLines (depth : Nat) (message : Message) :
    ((message.bodyLines depth).map (·.content)).filter isMarked = message.allDiagnostics.map Diagnostic.mark := by
  induction message using Message.embedded_induction generalizing depth with
  | step message ih =>
    have hfields : message.fields.flatMap (fun field => ((field.lines depth).map (·.content)).filter isMarked) =
        message.fields.flatMap fun field => field.allDiagnostics.map Diagnostic.mark := by
      refine List.flatMap_congr fun field hfield => Field.marked_lines_of ?_
      cases hvalue : field.value with
      | message embedded => exact ih field hfield embedded hvalue (depth + 1)
      | scalar | packed | incomplete => rfl
    have hgarbage : ((message.garbage.map (garbageLine depth)).toList.map (·.content)).filter isMarked = [] := by
      cases message.garbage with
      | none => rfl
      | some content => simp [isMarked, head?_garbageLine]
    rw [bodyLines_eq, allDiagnostics_eq]
    simp only [List.map_append, List.filter_append, Diagnostic.marked_lines, List.map_flatMap, List.filter_flatMap,
      hfields, hgarbage, List.append_nil]

/-! ### Lines without their spaces -/

theorem Diagnostic.head?_line (depth : Nat) (diagnostic : Diagnostic) :
    (diagnostic.line depth).content.toList.head? = some '!' := by
  simp [line]

theorem Message.head?_bodyLines {depth : Nat} {message : Message} {line : Line} (h : line ∈ message.bodyLines depth) :
    line.content.toList.head? ≠ some ' ' := by
  induction message using Message.embedded_induction generalizing depth with
  | step message ih =>
    rw [bodyLines_eq, List.mem_append, List.mem_append] at h
    rcases h with (hdiagnostic | hfield) | hgarbage
    · obtain ⟨diagnostic, -, rfl⟩ := List.mem_map.1 hdiagnostic
      rw [Diagnostic.head?_line]
      decide
    · obtain ⟨field, hfield, hline⟩ := List.mem_flatMap.1 hfield
      rw [Field.lines_eq, List.mem_cons, List.mem_append] at hline
      rcases hline with rfl | hdiagnostic | hvalue
      · rw [Field.head?_head]
        decide
      · obtain ⟨diagnostic, -, rfl⟩ := List.mem_map.1 hdiagnostic
        rw [Diagnostic.head?_line]
        decide
      · cases hembedded : field.value with
        | message embedded =>
          rw [hembedded] at hvalue
          exact ih field hfield embedded hembedded hvalue
        | scalar | packed | incomplete =>
          rw [hembedded] at hvalue
          cases hvalue
    · obtain ⟨content, -, rfl⟩ := Option.map_eq_some_iff.1 (Option.mem_toList.1 hgarbage)
      rw [head?_garbageLine]
      decide

/-! ### Severe marks -/

theorem Diagnostic.prefix_mark_iff (diagnostic : Diagnostic) :
    "! [error]".toList <+: diagnostic.mark.toList ↔ diagnostic.severity = .error := by
  cases hseverity : diagnostic.severity <;> simp [mark, text, hseverity, Severity.name, toString]

/-! ### The text of a message -/

/-- How the text of a message shows its tree. -/
structure Message.Mirrored (message : Message) : Prop where
  /-- The text is its rows, each ended by a line feed, and so are the texts of the fields. -/
  ended : Ended message.text
  endedFields : ∀ field ∈ message.fields, Ended field.text
  /-- Below the header there are the diagnostics of the message, the texts of its fields and the garbage, all moved in. -/
  layout : rows message.text = message.header ::
    (message.diagnostics.map Diagnostic.mark ++ message.fields.flatMap (fun field => rows field.text) ++
      (message.garbage.map fun content => "garbage: " ++ Hex.encode content).toList).map indent
  /-- Below the line of a field there are its diagnostics, moved in, and the body of the message in it. -/
  layoutFields : ∀ field ∈ message.fields, rows field.text = field.head ::
    ((field.diagnostics.map Diagnostic.mark).map indent ++
      (field.value.message?.map fun embedded => (rows embedded.text).tail).getD [])
  /-- Besides the header there is one row for each field, diagnostic and stretch of garbage at all depths. -/
  length : (rows message.text).length =
    1 + message.count .field + message.allDiagnostics.length + message.count .garbage
  /-- The rows with a mark are the diagnostics at all depths. -/
  marked : ((rows message.text).tail.map unindent).filter isMarked = message.allDiagnostics.map Diagnostic.mark
  /-- One of them tells of an error just when the message is not complete. -/
  complete : message.isComplete = false ↔
    ∃ row ∈ (rows message.text).tail.map unindent, "! [error]".toList <+: row.toList

namespace Line

theorem unbroken_deepen (levels : Nat) {lines : List Line} (h : Unbroken (lines.map (deepen levels))) :
    Unbroken lines :=
  fun line hline => h (line.deepen levels) (List.mem_map_of_mem hline)

theorem map_row_deepen (lines : List Line) : (lines.map (deepen 1)).map row = (lines.map row).map indent := by
  rw [List.map_map, List.map_map]
  exact List.map_congr_left fun line _ => line.row_deepen

theorem row_margin (content : String) : (⟨0, content⟩ : Line).row = content := by
  simp [row]

end Line

namespace Message

variable {message : Message}

theorem unbroken_field (h : Line.Unbroken message.lines) {field : Field} (hfield : field ∈ message.fields) :
    Line.Unbroken (field.lines 0) := by
  refine Line.unbroken_deepen 1 fun line hline => h line (List.mem_cons_of_mem _ ?_)
  rw [← Field.lines_deepen] at hline
  rw [bodyLines_eq]
  exact List.mem_append_left _ (List.mem_append_right _ (List.mem_flatMap.2 ⟨field, hfield, hline⟩))

theorem rows_text (h : Line.Unbroken message.lines) :
    rows message.text = message.header :: (message.bodyLines 1).map Line.row := by
  rw [text, Line.rows_join h, lines, List.map_cons, Line.row_margin]

theorem rows_text_field (h : Line.Unbroken message.lines) {field : Field} (hfield : field ∈ message.fields) :
    rows field.text = (field.lines 0).map Line.row := Line.rows_join (unbroken_field h hfield)

theorem layout_of_unbroken (h : Line.Unbroken message.lines) :
    rows message.text = message.header ::
      (message.diagnostics.map Diagnostic.mark ++ message.fields.flatMap (fun field => rows field.text) ++
        (message.garbage.map fun content => "garbage: " ++ Hex.encode content).toList).map indent := by
  have hfields : message.fields.flatMap (fun field => rows field.text) =
      message.fields.flatMap fun field => (field.lines 0).map Line.row :=
    List.flatMap_congr fun field hfield => rows_text_field h hfield
  have hdiagnostics : message.diagnostics.map Diagnostic.mark =
      (message.diagnostics.map (Diagnostic.line 0)).map Line.row := by
    rw [List.map_map]
    exact List.map_congr_left fun diagnostic _ => (Line.row_margin _).symm
  have hgarbage : (message.garbage.map fun content => "garbage: " ++ Hex.encode content).toList =
      ((message.garbage.map (garbageLine 0)).toList).map Line.row := by
    cases message.garbage with
    | none => rfl
    | some content => exact congrArg (fun row => [row]) (Line.row_margin _).symm
  have hbody : message.bodyLines 1 = (message.bodyLines 0).map (Line.deepen 1) := message.bodyLines_deepen 1 0
  rw [rows_text h, hbody, Line.map_row_deepen, bodyLines_eq, hfields, hdiagnostics, hgarbage]
  simp only [List.map_append, List.map_flatMap]

theorem layout_field_of_unbroken (h : Line.Unbroken message.lines) {field : Field} (hfield : field ∈ message.fields)
    (hembedded : ∀ embedded, field.value = .message embedded → Line.Unbroken embedded.lines) :
    rows field.text = field.head :: ((field.diagnostics.map Diagnostic.mark).map indent ++
      (field.value.message?.map fun embedded => (rows embedded.text).tail).getD []) := by
  have hvalue : (field.value.bodyLines 1).map Line.row =
      (field.value.message?.map fun embedded => (rows embedded.text).tail).getD [] := by
    cases hvalue : field.value with
    | message embedded =>
      have hrows := rows_text (hembedded embedded hvalue)
      simp only [Value.message?, Option.map_some, Option.getD_some, hrows, List.tail_cons]
      rfl
    | scalar | packed | incomplete => rfl
  have hdiagnostics : (field.diagnostics.map (Diagnostic.line 1)).map Line.row =
      (field.diagnostics.map Diagnostic.mark).map indent := by
    rw [List.map_map, List.map_map]
    refine List.map_congr_left fun diagnostic _ => ?_
    exact ((diagnostic.line 0).row_deepen).trans (congrArg indent (Line.row_margin _))
  rw [rows_text_field h hfield, Field.lines_eq, List.map_cons, Line.row_margin, List.map_append, hvalue, hdiagnostics]

theorem unindent_rows (h : Line.Unbroken message.lines) :
    (rows message.text).tail.map unindent = (message.bodyLines 1).map (·.content) := by
  rw [rows_text h, List.tail_cons, List.map_map]
  exact List.map_congr_left fun line hline => Line.unindent_row (head?_bodyLines hline)

theorem marked_of_unbroken (h : Line.Unbroken message.lines) :
    ((rows message.text).tail.map unindent).filter isMarked = message.allDiagnostics.map Diagnostic.mark := by
  rw [unindent_rows h, marked_bodyLines]

theorem complete_iff_of_unbroken (h : Line.Unbroken message.lines) :
    message.isComplete = false ↔
      ∃ row ∈ (rows message.text).tail.map unindent, "! [error]".toList <+: row.toList := by
  have hmarked := marked_of_unbroken h
  constructor
  · intro hfalse
    rw [isComplete, List.all_eq_false] at hfalse
    obtain ⟨diagnostic, hmem, hsevere⟩ := hfalse
    have herror : diagnostic.severity = .error := by
      cases hseverity : diagnostic.severity with
      | info => simp [hseverity] at hsevere
      | error => rfl
    have hrow : diagnostic.mark ∈ ((rows message.text).tail.map unindent).filter isMarked := by
      rw [hmarked]
      exact List.mem_map_of_mem hmem
    exact ⟨diagnostic.mark, (List.mem_filter.1 hrow).1, diagnostic.prefix_mark_iff.2 herror⟩
  · rintro ⟨row, hrow, hprefix⟩
    have hfirst : isMarked row = true := by
      obtain ⟨behind, hbehind⟩ := hprefix
      rw [isMarked, ← hbehind]
      rfl
    have hmem := List.mem_filter.2 ⟨hrow, hfirst⟩
    rw [hmarked] at hmem
    obtain ⟨diagnostic, hdiagnostic, rfl⟩ := List.mem_map.1 hmem
    exact isComplete_eq_false hdiagnostic (diagnostic.prefix_mark_iff.1 hprefix)

/-- A tree none of whose lines is broken is mirrored by its text. -/
theorem mirrored_of_unbroken (h : Line.Unbroken message.lines)
    (hembedded : ∀ field ∈ message.fields, ∀ embedded, field.value = .message embedded → Line.Unbroken embedded.lines) :
    message.Mirrored where
  ended := Line.ended_join h
  endedFields field hfield := Line.ended_join (unbroken_field h hfield)
  layout := layout_of_unbroken h
  layoutFields field hfield := layout_field_of_unbroken h hfield (hembedded field hfield)
  length := by
    rw [rows_text h, List.length_cons, List.length_map, length_bodyLines]
    omega
  marked := marked_of_unbroken h
  complete := complete_iff_of_unbroken h

end Message

end WireTree
