import WireTree.Proofs.Entering
import WireTree.Proofs.Locality

/-!
# Embedded messages decode on their own

A message inside a decoded one is what its own bytes decode to, as a message of its own type and with as many levels to go
as were left for it. Only the limit that is reported where messages lie too deep is that of the whole run. So nothing
around a message matters to it, and nothing beside it.
-/

namespace WireTree

/-! ### The reported limit -/

/-- The error, with `limit` for the limit that a message lies too deep for. -/
def DecodeError.reportLimit (limit : Nat) : DecodeError → DecodeError
  | .nestingLimit _ => .nestingLimit limit
  | error => error

def Diagnostic.reportLimit (limit : Nat) (diagnostic : Diagnostic) : Diagnostic :=
  ⟨diagnostic.span, diagnostic.error.reportLimit limit⟩

mutual

/-- The tree, with `limit` for the limit in every diagnostic on a message that lies too deep. -/
def Message.reportLimit (limit : Nat) : Message → Message
  | ⟨name, span, fields, garbage, diagnostics⟩ =>
    ⟨name, span, reportLimitFields limit fields, garbage, diagnostics.map (Diagnostic.reportLimit limit)⟩

def Field.reportLimit (limit : Nat) : Field → Field
  | ⟨number, wireType, span, name, type, value, candidates, diagnostics⟩ =>
    ⟨number, wireType, span, name, type, value.reportLimit limit, candidates,
      diagnostics.map (Diagnostic.reportLimit limit)⟩

def Value.reportLimit (limit : Nat) : Value → Value
  | .message embedded => .message (embedded.reportLimit limit)
  | .scalar scalar => .scalar scalar
  | .packed elements => .packed elements
  | .incomplete content => .incomplete content

def reportLimitFields (limit : Nat) : List Field → List Field
  | [] => []
  | field :: rest => field.reportLimit limit :: reportLimitFields limit rest

end

theorem reportLimitFields_eq_map (limit : Nat) (fields : List Field) :
    reportLimitFields limit fields = fields.map (Field.reportLimit limit) := by
  induction fields with
  | nil => rfl
  | cons field rest ih => rw [reportLimitFields, ih, List.map_cons]

theorem Diagnostic.reportLimit_of_isNestingLimit (limit : Nat) {diagnostic : Diagnostic}
    (h : diagnostic.error.isNestingLimit = false) : diagnostic.reportLimit limit = diagnostic := by
  obtain ⟨span, error⟩ := diagnostic
  cases error with
  | nestingLimit found => cases h
  | _ => rfl

theorem map_reportLimit_of_isNestingLimit (limit : Nat) {diagnostics : List Diagnostic}
    (h : ∀ diagnostic ∈ diagnostics, diagnostic.error.isNestingLimit = false) :
    diagnostics.map (Diagnostic.reportLimit limit) = diagnostics :=
  (List.map_congr_left fun diagnostic hmem =>
    Diagnostic.reportLimit_of_isNestingLimit limit (h diagnostic hmem)).trans (List.map_id _)

theorem Field.Flat.reportLimit_eq (limit : Nat) {field : Field} (h : field.Flat) : field.reportLimit limit = field := by
  obtain ⟨number, wireType, span, name, type, value, candidates, diagnostics⟩ := field
  obtain ⟨hvalue, hdiagnostics⟩ := h
  rw [Field.reportLimit, map_reportLimit_of_isNestingLimit limit hdiagnostics]
  cases value with
  | message embedded => exact absurd rfl (hvalue embedded)
  | _ => rfl

/-! ### Runs with another limit -/

namespace Message

variable {options : Options} {embed embed' : Option Embed}

/-- Whether messages are entered with the same in both runs, but for the limit that is reported. -/
def Reports (limit : Nat) (embed embed' : Option Embed) : Prop :=
  embed = embed'.map fun enter nested start content => (enter nested start content).reportLimit limit

theorem decode_reportLimit (hembed : Reports options.maxDepth embed embed') (schema : Schema)
    (type : Option MessageType) (limit : Nat) (record : Record) :
    record.decode options schema embed type =
      (record.decode { options with maxDepth := limit } schema embed' type).reportLimit options.maxDepth := by
  rcases Record.enters_or_flat options schema type record with
    ⟨description, nested, content, henters⟩ | ⟨field, hflat, hsame⟩
  · rw [Record.decode_of_enters henters, Record.decode_of_enters henters, hembed]
    cases embed' <;>
      simp [Record.asMessage, Record.field, Record.keep, Field.reportLimit, Value.reportLimit, Diagnostic.reportLimit,
        DecodeError.reportLimit]
  · rw [hsame limit embed', hflat.reportLimit_eq]
    exact hsame options.maxDepth embed

theorem ofWindow_reportLimit (hembed : Reports options.maxDepth embed embed') (schema : Schema)
    (type : Option MessageType) (limit start : Nat) (window : Bytes) :
    ofWindow options schema embed type start window =
      (ofWindow { options with maxDepth := limit } schema embed' type start window).reportLimit options.maxDepth := by
  have hfields := ofWindow_map_fields start window
    (fun field hflat => Field.Flat.reportLimit_eq options.maxDepth hflat)
    (fun record _ => decode_reportLimit hembed schema type limit record)
  have hdiagnostics : ∀ diagnostic ∈
      (ofWindow { options with maxDepth := limit } schema embed' type start window).diagnostics,
        diagnostic.error.isNestingLimit = false := by
    intro diagnostic hmem
    obtain ⟨front, rest, stop, -, hexplains, hmem⟩ := exists_stop_of_mem_diagnostics hmem
    exact hexplains.isNestingLimit hmem
  rw [hfields]
  generalize ofWindow { options with maxDepth := limit } schema embed' type start window = message at hdiagnostics ⊢
  obtain ⟨name, span, fields, garbage, diagnostics⟩ := message
  rw [reportLimit, reportLimitFields_eq_map, map_reportLimit_of_isNestingLimit options.maxDepth hdiagnostics]

/-- With the same levels to go, the limit shows only where it is reported. -/
theorem ofBudget_reportLimit (options : Options) (schema : Schema) (limit budget : Nat) (type : Option MessageType)
    (start : Nat) (window : Bytes) :
    ofBudget options schema budget type start window =
      (ofBudget { options with maxDepth := limit } schema budget type start window).reportLimit options.maxDepth := by
  rw [ofBudget_eq, ofBudget_eq]
  induction budget generalizing type start window with
  | zero =>
    have hembed : Reports options.maxDepth none none := rfl
    exact ofWindow_reportLimit hembed schema type limit start window
  | succ budget ih =>
    have hembed : Reports options.maxDepth (entering options schema (budget + 1))
        (entering { options with maxDepth := limit } schema (budget + 1)) := by
      refine congrArg some ?_
      funext nested start content
      rw [ofBudget_eq, ofBudget_eq]
      exact ih (some nested) start content
    exact ofWindow_reportLimit hembed schema type limit start window

/-! ### Messages of a decoded window -/

/-- A message inside a decoded window is what its bytes decode to on their own, by its type and with the levels that are
left for it, but for the limit that is reported. -/
theorem decodeWindow_embedded (options : Options) (schema : Schema) (type : Option MessageType) (data : Bytes)
    (offset length : Nat) :
    let outer := decodeWindow options schema type data offset length
    (∀ level inner, outer.Nests level inner → ∃ innerType, outer.NestsAs schema type level innerType inner) ∧
    ∀ level innerType inner, outer.NestsAs schema type (level + 1) innerType inner →
      level + 1 ≤ options.maxDepth ∧
      let left := { options with maxDepth := options.maxDepth - (level + 1) }
      let alone := decodeWindow left schema innerType data inner.span.start inner.span.length
      inner = alone.reportLimit options.maxDepth ∧ alone.reportLimit left.maxDepth = alone ∧
        alone = (decode left schema innerType (inner.span.slice data)).shift inner.span.start := by
  intro outer
  refine ⟨fun _ _ => exists_type_of_nests_decodeWindow, fun level innerType inner hinner => ?_⟩
  obtain ⟨hlevel, front, content, back, hdata, -, rfl⟩ := exists_content_of_nestsAs_decodeWindow hinner
  refine ⟨hlevel, ?_⟩
  intro left alone
  have hspan : (ofBudget options schema (options.maxDepth - (level + 1)) innerType front.length content).span =
      .ofLength front.length content.length := span_ofBudget _ _ _ _ _ _
  have halone : alone = ofBudget left schema left.maxDepth innerType front.length content := by
    show decodeWindow left schema innerType data _ _ = _
    rw [hspan, Span.start_ofLength, Span.length_ofLength, hdata, decodeWindow_append, decode_eq, ← ofBudget_shift,
      Nat.zero_add]
  refine ⟨?_, ?_, ?_⟩
  · rw [halone]
    exact ofBudget_reportLimit options schema left.maxDepth left.maxDepth innerType front.length content
  · rw [halone]
    exact (ofBudget_reportLimit left schema left.maxDepth left.maxDepth innerType front.length content).symm
  · have hslice : Span.slice ⟨front.length, front.length + content.length⟩ data = content := by
      rw [hdata, List.append_assoc]
      exact Span.slice_append front content back
    rw [halone, hspan, Span.ofLength, hslice, decode_eq, ← ofBudget_shift, Nat.zero_add]

theorem decodeWindow_embedded_tooDeep :
    let child : FieldDescription := ⟨"child", 2, .message, .single, some (.message ⟨0⟩)⟩
    let schema := Schema.build [.insertMessage "M", .addField ⟨0⟩ child]
    let type : MessageType := ⟨"M", ⟨0⟩, [(2, child)]⟩
    let data : Bytes := [18, 4, 18, 2, 18, 0]
    let cut : Field := ⟨2, .lengthDelimited, ⟨4, 6⟩, some "child", .message, .scalar (.raw (.bytes [])), [],
      [⟨⟨6, 6⟩, .nestingLimit 2⟩]⟩
    let innermost : Message := ⟨"M", ⟨4, 6⟩, [cut], none, []⟩
    let inner : Message :=
      ⟨"M", ⟨2, 6⟩, [⟨2, .lengthDelimited, ⟨2, 6⟩, some "child", .message, .message innermost, [], []⟩], none, []⟩
    (decodeWindow { maxDepth := 2 } schema (some type) data 0 6).NestsAs schema (some type) 1 (some type) inner ∧
      inner = (decodeWindow { maxDepth := 1 } schema (some type) data 2 4).reportLimit 2 := by
  intro child schema type data cut innermost inner
  have hfields : (decodeWindow { maxDepth := 2 } schema (some type) data 0 6).fields =
      [⟨2, .lengthDelimited, ⟨0, 6⟩, some "child", .message, .message inner, [], []⟩] := by with_unfolding_all rfl
  have hchild : describe (some type) 2 = some child := by decide
  have hnested : schema.messageOf? child = some type := by decide
  have hinner : (decodeWindow { maxDepth := 2 } schema (some type) data 0 6).NestsAs schema (some type) 1 (some type)
      inner :=
    .inside (by rw [hfields]; exact List.mem_singleton.2 rfl) rfl hchild hnested (.self _ _)
  exact ⟨hinner, ((decodeWindow_embedded { maxDepth := 2 } schema (some type) data 0 6).2 0 (some type) inner hinner).2.1⟩

end Message

end WireTree
