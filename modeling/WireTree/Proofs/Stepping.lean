import Mathlib.Logic.Function.Iterate
import WireTree.Proofs.Entering
import WireTree.Proofs.Size

/-!
# Decoding one record at a time

Decoding is a machine that reads one record in each step. The message at work is on top of a stack of messages that wait
for it: a record that is to be read as a message puts one more on top, and a message that ends goes into the field of the
record that waits for it. No step changes what the machine will come to, and each uses up bytes, so the machine stops
after no more steps than the window has bytes, and one. How deep messages may nest does not matter to that.
-/

namespace WireTree

/-! ### Records to be entered -/

/-- What the record is entered as, if its content is to be read as a message. -/
def Record.entered? (schema : Schema) (type : Option MessageType) (record : Record) :
    Option (FieldDescription × MessageType × Bytes) :=
  match describe type record.number, record.payload with
  | some description, .bytes content =>
    if description.type = .message ∧ description.isPacked = false then
      (schema.messageOf? description).map (description, ·, content)
    else none
  | _, _ => none

theorem Record.entered?_eq_some_iff {schema : Schema} {type : Option MessageType} {record : Record}
    {description : FieldDescription} {nested : MessageType} {content : Bytes} :
    record.entered? schema type = some (description, nested, content) ↔
      record.Enters schema type description nested content := by
  constructor
  · intro h
    unfold entered? at h
    split at h
    · rename_i found bytes hdescribed hpayload
      split at h
      · rename_i hmessage
        obtain ⟨foundType, hnested, hentry⟩ := Option.map_eq_some_iff.1 h
        cases hentry
        exact ⟨hdescribed, hpayload, hmessage.1, hmessage.2, hnested⟩
      · cases h
    · cases h
  · intro h
    simp only [entered?, h.described, h.payload, h.message, h.notPacked, h.nested, and_self, if_true, Option.map_some]

theorem Record.decode_of_entered?_eq_none {schema : Schema} {type : Option MessageType} {record : Record}
    (h : record.entered? schema type = none) (options : Options) (embed embed' : Option Embed) :
    record.decode options schema embed type = record.decode options schema embed' type := by
  rcases enters_or_flat options schema type record with ⟨description, nested, content, henters⟩ | ⟨field, -, hsame⟩
  · rw [entered?_eq_some_iff.2 henters] at h
    cases h
  · exact (hsame options.maxDepth embed).trans (hsame options.maxDepth embed').symm

/-! ### Messages at work -/

namespace Stepping

/-- A message that is being decoded: its fields so far, and the bytes that are left from the cursor on. -/
structure Frame where
  type : Option MessageType
  span : Span
  fields : List Field
  cursor : Nat
  rest : Bytes

namespace Frame

/-- A message of which nothing is decoded. -/
def enter (type : Option MessageType) (start : Nat) (content : Bytes) : Frame :=
  ⟨type, .ofLength start content.length, [], start, content⟩

def skip (frame : Frame) (record : Record) : Frame :=
  { frame with cursor := record.span.stop, rest := frame.rest.drop record.span.length }

def append (frame : Frame) (field : Field) : Frame := { frame with fields := frame.fields ++ [field] }

/-- The message, if nothing more can be read from it. -/
def close (frame : Frame) (stop : Option Stop) : Message where
  name := (frame.type.map (·.fullName)).getD Message.unknownName
  span := frame.span
  fields := frame.fields ++ (stop.bind (Stop.field? frame.type)).toList
  garbage := stop.bind Stop.garbage?
  diagnostics := (stop.map Stop.diagnostics).getD []

end Frame

/-- A message that waits behind a record for the message in it. -/
structure Waiting where
  frame : Frame
  record : Record
  description : FieldDescription

/-- The message with a field for the record it waits for. -/
def Waiting.resume (waiting : Waiting) (embedded : Message) : Frame :=
  waiting.frame.append
    (waiting.record.field (some waiting.description.name) ⟨waiting.description.type, .message embedded, [], []⟩)

/-! ### The machine -/

inductive State where
  | running (active : Frame) (waiting : List Waiting)
  | finished (message : Message)

/-- Hands a message over to the one that waits for it. -/
def deliver (message : Message) : List Waiting → State
  | [] => .finished message
  | top :: rest => .running (top.resume message) rest

/-- Reads one record, or ends the message at work. -/
def step (options : Options) (schema : Schema) : State → State
  | .finished message => .finished message
  | .running active waiting =>
    if active.rest.isEmpty then deliver (active.close none) waiting
    else
      match Record.read active.cursor active.rest with
      | .error stop => deliver (active.close (some stop)) waiting
      | .ok record =>
        match if waiting.length < options.maxDepth then record.entered? schema active.type else none with
        | some (description, nested, content) =>
          .running (.enter (some nested) record.valueSpan.start content)
            (⟨active.skip record, record, description⟩ :: waiting)
        | none => .running ((active.skip record).append (record.decode options schema none active.type)) waiting

def start (type : Option MessageType) (data : Bytes) (offset length : Nat) : State :=
  .running (.enter type (min offset data.length) ((data.drop (min offset data.length)).take length)) []

/-! ### What the machine will come to -/

section Outcome

variable {options : Options} {schema : Schema} {budget : Nat} {frame : Frame}

/-- The message that the frame becomes if that many levels may be entered. -/
def Frame.outcome (options : Options) (schema : Schema) (budget : Nat) (frame : Frame) : Message :=
  let framing := Framing.ofWindow frame.cursor frame.rest
  let fields := framing.records.map (Record.decode options schema (Message.entering options schema budget) frame.type)
  { frame with fields := frame.fields ++ fields }.close framing.stop

theorem Frame.outcome_enter (options : Options) (schema : Schema) (budget : Nat) (type : Option MessageType)
    (start : Nat) (content : Bytes) :
    (enter type start content).outcome options schema budget =
      Message.ofBudget options schema budget type start content := by
  rw [Message.ofBudget_eq]
  rfl

theorem Frame.outcome_of_nil (h : frame.rest = []) : frame.outcome options schema budget = frame.close none := by
  simp [outcome, close, h]

theorem Frame.outcome_of_read_error {stop : Stop} (hrest : frame.rest ≠ [])
    (h : Record.read frame.cursor frame.rest = .error stop) :
    frame.outcome options schema budget = frame.close (some stop) := by
  simp [outcome, Framing.ofWindow_of_read_error hrest h]

theorem Frame.outcome_of_read_ok {record : Record} (h : Record.read frame.cursor frame.rest = .ok record) :
    frame.outcome options schema budget =
      ((frame.skip record).append
        (record.decode options schema (Message.entering options schema budget) frame.type)).outcome
          options schema budget := by
  simp [outcome, close, skip, append, Framing.ofWindow_of_read_ok h]

/-- What a message becomes once it is handed over, and so on to the bottom of the stack. -/
def unwind (options : Options) (schema : Schema) (message : Message) : List Waiting → Message
  | [] => message
  | top :: rest =>
    unwind options schema ((top.resume message).outcome options schema (options.maxDepth - rest.length)) rest

namespace State

/-- What the machine will come to. -/
def outcome (options : Options) (schema : Schema) : State → Message
  | .finished message => message
  | .running active waiting =>
    unwind options schema (active.outcome options schema (options.maxDepth - waiting.length)) waiting

end State

theorem outcome_deliver (message : Message) (waiting : List Waiting) :
    (deliver message waiting).outcome options schema = unwind options schema message waiting := by
  cases waiting <;> rfl

theorem decode_entering {depth : Nat} {record : Record} {type : Option MessageType} {description : FieldDescription}
    {nested : MessageType} {content : Bytes} (hdepth : depth < options.maxDepth)
    (henters : record.Enters schema type description nested content) :
    record.decode options schema (Message.entering options schema (options.maxDepth - depth)) type =
      record.field (some description.name) ⟨description.type,
        .message (Message.ofBudget options schema (options.maxDepth - (depth + 1)) (some nested)
          record.valueSpan.start content), [], []⟩ := by
  have hbudget : options.maxDepth - depth = options.maxDepth - (depth + 1) + 1 := by omega
  rw [Record.decode_of_enters henters, hbudget]
  rfl

/-- A step does not change what the machine will come to. -/
theorem outcome_step (options : Options) (schema : Schema) (state : State) :
    (step options schema state).outcome options schema = state.outcome options schema := by
  cases state with
  | finished message => rfl
  | running active waiting =>
    rw [step]
    split
    · rename_i hempty
      rw [outcome_deliver, State.outcome, Frame.outcome_of_nil (List.isEmpty_iff.1 hempty)]
    · rename_i hempty
      have hrest : active.rest ≠ [] := fun hnil => hempty (List.isEmpty_iff.2 hnil)
      split
      · rename_i stop hread
        rw [outcome_deliver, State.outcome, Frame.outcome_of_read_error hrest hread]
      · rename_i record hread
        rw [State.outcome.eq_2, Frame.outcome_of_read_ok hread]
        split
        · rename_i description nested content hentry
          obtain ⟨hdepth, hentry⟩ := Option.ite_none_right_eq_some.1 hentry
          have henters := Record.entered?_eq_some_iff.1 hentry
          rw [decode_entering hdepth henters, ← Frame.outcome_enter]
          rfl
        · rename_i hentry
          have hdecode : record.decode options schema none active.type =
              record.decode options schema (Message.entering options schema (options.maxDepth - waiting.length))
                active.type := by
            by_cases hdepth : waiting.length < options.maxDepth
            · rw [if_pos hdepth] at hentry
              exact Record.decode_of_entered?_eq_none hentry options _ _
            · rw [Nat.sub_eq_zero_of_le (Nat.le_of_not_lt hdepth)]
              rfl
          rw [hdecode]
          rfl

end Outcome

/-! ### Progress -/

/-- What a step does to the bytes that are left. -/
inductive Progress (options : Options) : State → State → Prop
  /-- The message at work ends. -/
  | close (active : Frame) (waiting : List Waiting) (message : Message) :
    Progress options (.running active waiting) (deliver message waiting)
  /-- The cursor moves on. -/
  | advance (active next : Frame) (waiting : List Waiting) (hcursor : active.cursor < next.cursor)
      (hend : next.cursor + next.rest.length = active.cursor + active.rest.length) :
    Progress options (.running active waiting) (.running next waiting)
  /-- The cursor moves on behind a message, which has a tag and a length in front of it. -/
  | enter (active behind inner : Frame) (waiting : List Waiting) (record : Record) (description : FieldDescription)
      (hdepth : waiting.length < options.maxDepth)
      (hcursor : active.cursor + 2 + inner.rest.length ≤ behind.cursor)
      (hend : behind.cursor + behind.rest.length = active.cursor + active.rest.length) :
    Progress options (.running active waiting) (.running inner (⟨behind, record, description⟩ :: waiting))

namespace State

/-- The bytes that are left to all messages on the stack, and one for the end of each. -/
def left : State → Nat
  | .finished _ => 0
  | .running active waiting => active.rest.length + 1 + (waiting.map (·.frame.rest.length + 1)).sum

end State

theorem left_deliver (message : Message) (waiting : List Waiting) :
    (deliver message waiting).left = (waiting.map (·.frame.rest.length + 1)).sum := by
  cases waiting with
  | nil => rfl
  | cons top rest => rw [List.map_cons, List.sum_cons]; rfl

theorem Progress.left_lt {options : Options} {state next : State} (h : Progress options state next) :
    next.left < state.left := by
  cases h with
  | close active waiting message =>
    rw [left_deliver, State.left]
    omega
  | advance active next waiting hcursor hend =>
    simp only [State.left]
    omega
  | enter active behind inner waiting record description hdepth hcursor hend =>
    simp only [State.left, List.map_cons, List.sum_cons]
    omega

theorem skip_of_read {active : Frame} {record : Record} (h : Record.read active.cursor active.rest = .ok record) :
    active.cursor < (active.skip record).cursor ∧
      (active.skip record).cursor + (active.skip record).rest.length = active.cursor + active.rest.length := by
  obtain ⟨hstart, hnonempty, hstop⟩ := Record.span_of_read h
  simp only [Frame.skip, List.length_drop, Span.length]
  omega

theorem content_of_read {start : Nat} {window : Bytes} {record : Record} {content : Bytes}
    (h : Record.read start window = .ok record) (hpayload : record.payload = .bytes content) :
    start + 2 + content.length ≤ record.span.stop := by
  obtain ⟨item, rest, rfl, rfl⟩ := Record.read_eq_ok_iff.1 h
  obtain ⟨lead, hfits, hbody⟩ := ItemBody.lengthDelimited_of_payload hpayload
  -- In front of the content stand a tag and a length, and neither is empty.
  have hbytes := congrArg List.length (Item.bytes_lengthDelimited hbody)
  simp only [List.length_append, Varint.Spelling.length_bytes] at hbytes
  simp only [Item.record, Span.stop_ofLength]
  omega

theorem progress_step (options : Options) (schema : Schema) (active : Frame) (waiting : List Waiting) :
    Progress options (.running active waiting) (step options schema (.running active waiting)) := by
  rw [step]
  split
  · exact .close active waiting _
  · split
    · exact .close active waiting _
    · rename_i record hread
      obtain ⟨hcursor, hend⟩ := skip_of_read hread
      split
      · rename_i description nested content hentry
        obtain ⟨hdepth, hentry⟩ := Option.ite_none_right_eq_some.1 hentry
        have hpayload := (Record.entered?_eq_some_iff.1 hentry).payload
        exact .enter active (active.skip record) _ waiting record description hdepth (content_of_read hread hpayload) hend
      · exact .advance active _ waiting hcursor hend

/-- The machine stops with what it was to come to, after no more steps than there are bytes and messages on the stack. -/
theorem exists_iterate_eq_finished (options : Options) (schema : Schema) (state : State) :
    ∃ steps ≤ state.left, (step options schema)^[steps] state = .finished (state.outcome options schema) := by
  induction hleft : state.left using Nat.strongRecOn generalizing state with
  | ind left ih =>
    subst hleft
    cases state with
    | finished message => exact ⟨0, Nat.zero_le _, rfl⟩
    | running active waiting =>
      have hless := (progress_step options schema active waiting).left_lt
      obtain ⟨steps, hsteps, hrun⟩ := ih _ hless (step options schema (.running active waiting)) rfl
      rw [outcome_step] at hrun
      exact ⟨steps + 1, by omega, hrun⟩

end Stepping

/-! ### Windows of the data -/

namespace Message

variable {options : Options} {schema : Schema} {type : Option MessageType} {data : Bytes} {offset length : Nat}

/-- **Decoding ends and does not amplify**, whatever the schema and the limit are. Each step of the machine uses up bytes,
so it stops within as many steps as the window has bytes, and one, with the decoded message. In it each field takes a byte
at least, each message is shorter by two bytes than the one around it, and there are no more fields, elements and
stretches of garbage than bytes. -/
theorem decodeWindow_ends (options : Options) (schema : Schema) (type : Option MessageType) (data : Bytes)
    (offset length : Nat) :
    let decoded := decodeWindow options schema type data offset length
    let step := Stepping.step options schema
    (∀ active waiting, Stepping.Progress options (.running active waiting) (step (.running active waiting)) ∧
      (step (.running active waiting)).left < (Stepping.State.running active waiting).left) ∧
    (∃ message, (∃ steps ≤ decoded.span.length + 1, step^[steps] (Stepping.start type data offset length) =
        .finished message) ∧
      decoded = if offset + length ≤ data.length then message
        else
          { message with diagnostics :=
              ⟨message.span, .truncated message.span.start length message.span.length⟩ :: message.diagnostics }) ∧
    (∀ level inner, decoded.Nests level inner → ∀ field ∈ inner.fields, 0 < field.span.length ∧
      ∀ embedded, field.value = .message embedded → embedded.span.length + 2 ≤ inner.span.length) ∧
    decoded.count .field + decoded.count .element + decoded.count .garbage ≤ decoded.span.length := by
  intro decoded step
  refine ⟨fun active waiting => ?_, ?_, fun level inner hinner field hfield => ?_, ?_⟩
  · have hprogress := Stepping.progress_step options schema active waiting
    exact ⟨hprogress, hprogress.left_lt⟩
  · obtain ⟨front, window, back, -, hfront, hlength, hwindow⟩ := exists_window data offset length
    have hspan : decoded.span.length = window.length := by
      rw [span_decodeWindow, Span.length, hlength]
    obtain ⟨steps, hsteps, hrun⟩ :=
      Stepping.exists_iterate_eq_finished options schema (Stepping.start type data offset length)
    have hleft : (Stepping.start type data offset length).left = window.length + 1 := by
      rw [← hwindow]
      rfl
    have houtcome : (Stepping.start type data offset length).outcome options schema =
        ofBudget options schema options.maxDepth type front.length window := by
      rw [hfront, ← hwindow, ← Stepping.Frame.outcome_enter]
      rfl
    rw [houtcome] at hrun
    refine ⟨_, ⟨steps, by omega, hrun⟩, ?_⟩
    have hdecoded := decodeWindow_eq options schema type hfront hwindow
    simp only [span_ofBudget, Span.start_ofLength, Span.length_ofLength] at hdecoded ⊢
    exact hdecoded
  · have htiled := tiled_of_nests_decodeWindow hinner
    obtain ⟨hpos, hwithin⟩ := htiled.length_field hfield
    refine ⟨hpos, fun embedded hvalue => ?_⟩
    have hembedded : inner.Nests 1 embedded := .inside hfield hvalue (.self embedded)
    have hshorter := htiled.length_embedded hfield hvalue (tiled_of_nests_decodeWindow (hinner.trans hembedded))
    omega
  · exact size_le_of_tiled fun level inner hinner => tiled_of_nests_decodeWindow hinner

/-- A type that holds itself, with no limit in sight: a message with garbage, and beside it a row of two numbers. -/
theorem decodeWindow_ends_recursive :
    let child : FieldDescription := ⟨"child", 2, .message, .single, some (.message ⟨0⟩)⟩
    let row : FieldDescription := ⟨"row", 3, .int32, .packed, none⟩
    let schema := Schema.build [.insertMessage "M", .addField ⟨0⟩ child, .addField ⟨0⟩ row]
    let type : MessageType := ⟨"M", ⟨0⟩, [(2, child), (3, row)]⟩
    let options : Options := { maxDepth := 2 ^ 64 - 1 }
    let data : Bytes := [18, 7, 18, 1, 255, 26, 2, 1, 2]
    let decoded := decodeWindow options schema (some type) data 0 9
    let inner : Message := ⟨"M", ⟨2, 9⟩,
      [⟨2, .lengthDelimited, ⟨2, 5⟩, some "child", .message,
          .message ⟨"M", ⟨4, 5⟩, [], some [255], [⟨⟨4, 5⟩, .malformedTag 4⟩]⟩, [], []⟩,
        ⟨3, .lengthDelimited, ⟨5, 9⟩, some "row", .int32, .packed [⟨⟨7, 8⟩, .int32 1⟩, ⟨⟨8, 9⟩, .int32 2⟩], [], []⟩],
      none, []⟩
    decoded.fields = [⟨2, .lengthDelimited, ⟨0, 9⟩, some "child", .message, .message inner, [], []⟩] ∧
      decoded.count .field = 3 ∧ decoded.count .element = 2 ∧ decoded.count .garbage = 1 ∧ 3 + 2 + 1 ≤ 9 ∧
      inner.span.length + 2 ≤ 9 ∧
      ∃ steps ≤ 10, (Stepping.step options schema)^[steps] (Stepping.start (some type) data 0 9) = .finished decoded := by
  intro child row schema type options data decoded inner
  have hfields : decoded.fields =
      [⟨2, .lengthDelimited, ⟨0, 9⟩, some "child", .message, .message inner, [], []⟩] := by with_unfolding_all rfl
  have hcount : decoded.count .field = 3 ∧ decoded.count .element = 2 ∧ decoded.count .garbage = 1 := by
    decide +kernel
  have hlength : (decodeWindow options schema (some type) data 0 9).span.length = 9 := by
    rw [span_decodeWindow]
    rfl
  obtain ⟨-, ⟨message, ⟨steps, hsteps, hrun⟩, hmessage⟩, hshorter, hsize⟩ :=
    decodeWindow_ends options schema (some type) data 0 9
  have hmessage : decoded = message := hmessage
  have hinner := (hshorter 0 decoded (.self _) _ (hfields ▸ List.mem_cons_self)).2 inner rfl
  obtain ⟨hfield, helement, hgarbage⟩ := hcount
  rw [hlength] at hsteps hsize
  rw [show decoded.span.length = 9 from hlength] at hinner
  exact ⟨hfields, hfield, helement, hgarbage, hfield ▸ helement ▸ hgarbage ▸ hsize, hinner, steps, hsteps,
    hmessage ▸ hrun⟩

end Message

end WireTree
