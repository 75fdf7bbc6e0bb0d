import WireTree.Proofs.Complaints
import WireTree.Proofs.Payload
import WireTree.Tree.Text

/-!
# Texts that stand on one line

A text without a line feed stands on one line. The text of every value and of everything that can be wrong with it does,
whatever bytes it was read from: numbers are digits, bytes are hex digits, and a string is quoted. Only names could break a
line, and they come from the schema.
-/

namespace WireTree

/-- Whether the text holds no line feed. -/
def IsLine (text : String) : Prop := '\n' ∉ text.toList

instance (text : String) : Decidable (IsLine text) := inferInstanceAs (Decidable ('\n' ∉ text.toList))

/-! ### Texts put together -/

@[simp] theorem isLine_append {left right : String} : IsLine (left ++ right) ↔ IsLine left ∧ IsLine right := by
  simp [IsLine]

@[simp] theorem isLine_toString {text : String} : IsLine (toString text) ↔ IsLine text := Iff.rfl

@[simp] theorem isLine_ofList {chars : List Char} : IsLine (String.ofList chars) ↔ '\n' ∉ chars := by
  simp [IsLine]

theorem isLine_intercalate {separator : String} (hseparator : IsLine separator) {texts : List String}
    (h : ∀ text ∈ texts, IsLine text) : IsLine (separator.intercalate texts) := by
  induction texts with
  | nil => exact isLine_ofList.2 List.not_mem_nil
  | cons text texts ih =>
    obtain ⟨htext, htexts⟩ := List.forall_mem_cons.1 h
    by_cases hlast : texts = []
    · rwa [hlast, String.intercalate_singleton]
    · rw [String.intercalate_cons_of_ne_nil hlast]
      simp [htext, hseparator, ih htexts]

/-! ### Numbers and bytes -/

theorem notMem_of_isAlphanum {chars : List Char} (h : ∀ char ∈ chars, char.isAlphanum) : '\n' ∉ chars :=
  fun hmem => absurd (h _ hmem) (by decide)

theorem notMem_toDigits (value : Nat) : '\n' ∉ Nat.toDigits 10 value :=
  fun hmem => absurd (Nat.isDigit_of_mem_toDigits (by decide) (by decide) hmem) (by decide)

@[simp] theorem isLine_repr (value : Nat) : IsLine value.repr := by
  rw [IsLine, Nat.toList_repr]
  exact notMem_toDigits value

@[simp] theorem isLine_repr_int (value : Int) : IsLine value.repr := by
  cases value with
  | ofNat value => exact isLine_repr value
  | negSucc value => exact isLine_append.2 ⟨by decide, isLine_repr _⟩

namespace Hex

@[simp] theorem isLine_encode (bytes : Bytes) : IsLine (encode bytes) := by
  refine isLine_ofList.2 (notMem_of_isAlphanum fun char hchar => ?_)
  obtain ⟨byte, -, hdigit⟩ := List.mem_flatMap.1 hchar
  have hbyte := byte.toNat_lt
  rcases List.mem_pair.1 hdigit with rfl | rfl
  · exact Quoted.isAlphanum_digitChar (by omega)
  · exact Quoted.isAlphanum_digitChar (by omega)

@[simp] theorem isLine_padded (width value : Nat) : IsLine (padded width value) := by
  refine isLine_ofList.2 (notMem_of_isAlphanum fun char hchar => ?_)
  rcases List.mem_append.1 hchar with hzero | hdigit
  · rw [List.eq_of_mem_replicate hzero]
    decide
  · exact Quoted.isAlphanum_of_mem_toDigits hdigit

end Hex

@[simp] theorem Decimal.isLine_positional (decimal : Decimal) : IsLine decimal.positional := by
  unfold positional
  split
  · exact isLine_repr _
  · rename_i places _
    have hline : '\n' ∉ List.replicate (places + 2 - (Nat.toDigits 10 decimal.units).length) '0' ++
        Nat.toDigits 10 decimal.units := by
      rw [List.mem_append, not_or]
      exact ⟨fun hzero => absurd (List.eq_of_mem_replicate hzero) (by decide), notMem_toDigits _⟩
    refine isLine_ofList.2 ?_
    simp only [List.mem_append, List.mem_cons, not_or]
    exact ⟨mt List.mem_of_mem_take hline, by decide, mt List.mem_of_mem_drop hline⟩

@[simp] theorem FloatFormat.isLine_text (format : FloatFormat) (bits : Nat) : IsLine (format.text bits) := by
  have hmagnitude : IsLine (format.magnitudeText bits) := by
    unfold magnitudeText
    split
    · decide
    · split
      · decide
      · exact Decimal.isLine_positional _
  unfold text
  split
  · decide
  · split
    · exact isLine_append.2 ⟨by decide, hmagnitude⟩
    · exact hmagnitude

@[simp] theorem Quoted.isLine_encode (text : String) : IsLine (encode text) := newline_notMem_encode text

@[simp] theorem Span.isLine_text (span : Span) : IsLine span.text := by
  simp +decide [text]

/-! ### Names of types -/

@[simp] theorem WireType.isLine_name (wireType : WireType) : IsLine wireType.name := by
  cases wireType <;> decide

@[simp] theorem FieldType.isLine_name (type : FieldType) : IsLine type.name := by
  cases type <;> decide

@[simp] theorem Severity.isLine_name (severity : Severity) : IsLine severity.name := by
  cases severity <;> decide

/-! ### Names that a schema gives -/

/-- Whether no name of the message type breaks a line. -/
structure MessageType.NamesAreLines (type : MessageType) : Prop where
  fullName : IsLine type.fullName
  fields : ∀ entry ∈ type.fields, IsLine entry.2.name

/-- Whether no name of the enum type breaks a line. -/
structure EnumType.NamesAreLines (type : EnumType) : Prop where
  fullName : IsLine type.fullName
  names : ∀ entry ∈ type.names, IsLine entry.2

/-- Whether no name of a message type or an enum type breaks a line. -/
structure Schema.NamesAreLines (schema : Schema) : Prop where
  messages : ∀ type ∈ schema.messages, type.NamesAreLines
  enums : ∀ type ∈ schema.enums, type.NamesAreLines

theorem isLine_of_describe {type : Option MessageType} (htype : ∀ found, type = some found → found.NamesAreLines)
    {number : Nat} {description : FieldDescription} (h : describe type number = some description) :
    IsLine description.name := by
  obtain ⟨found, rfl, hfield⟩ := Option.bind_eq_some_iff.1 h
  exact (htype found rfl).fields _ (Table.mem_of_get? hfield)

/-! ### Values -/

@[simp] theorem Payload.isLine_text (payload : Payload) : IsLine payload.text := by
  cases payload <;> simp +decide [text]

namespace Scalar

/-- Only the name of an enum number could break the line of a value. -/
theorem isLine_text {value : Scalar} (h : ∀ number name, value = .enum number (some name) → IsLine name) :
    IsLine value.text := by
  cases value with
  | enum number name =>
    cases name with
    | none => exact isLine_repr_int _
    | some name => simpa +decide [text] using h number name rfl
  | bool value => cases value <;> decide
  | raw payload => exact Payload.isLine_text payload
  | string content => exact Quoted.isLine_encode content
  | bytes content => exact Hex.isLine_encode content
  | double bits => exact FloatFormat.isLine_text _ _
  | float bits => exact FloatFormat.isLine_text _ _
  | int32 value | sint32 value | sfixed32 value => exact isLine_repr_int _
  | int64 value | sint64 value | sfixed64 value => exact isLine_repr_int _
  | uint32 value | fixed32 value => exact isLine_repr _
  | uint64 value | fixed64 value => exact isLine_repr _

theorem exists_name_of_read {options : Options} {enumType : Option EnumType} {type : FieldType} {length : Nat}
    {payload : Payload} {number : Int32} {name : String}
    (h : read options enumType type length payload = .ok (.enum number (some name))) :
    ∃ found, enumType = some found ∧ found.name? number = some name := by
  have htype : type ≠ .none := by
    rintro rfl
    cases h
  obtain ⟨-, hconvert⟩ := convert_of_read htype h
  exact Option.bind_eq_some_iff.1 (name_of_convert hconvert).symm

theorem isLine_text_of_read {options : Options} {enumType : Option EnumType}
    (henum : ∀ found, enumType = some found → found.NamesAreLines) {type : FieldType} {length : Nat} {payload : Payload}
    {value : Scalar} (h : read options enumType type length payload = .ok value) : IsLine value.text := by
  refine isLine_text fun number name hvalue => ?_
  subst hvalue
  obtain ⟨found, hfound, hname⟩ := exists_name_of_read h
  exact (henum found hfound).names _ (Table.mem_of_get? hname)

end Scalar

/-! ### What can be wrong -/

theorem DecodeError.OfReading.isLine_message {error : DecodeError} (h : error.OfReading) : IsLine error.message := by
  induction h with
  | group => decide
  | otherWireType expected actual =>
    change IsLine (_ ++ _)
    simp +decide
  | longBoolean length =>
    change IsLine (_ ++ _)
    simp +decide
  | message => decide
  | notPackable type =>
    change IsLine (_ ++ _)
    simp +decide
  | row type fault _ ih =>
    have hdetail : IsLine fault.detail := by
      cases fault with
      | element span cause =>
        change IsLine (_ ++ _)
        simp +decide [ih span cause rfl]
      | varintCut | varintOverlong | width =>
        change IsLine (_ ++ _)
        simp +decide
    change IsLine (_ ++ _)
    simp +decide [hdetail]

theorem Payload.Fails.isLine_message {start : Nat} {window : Bytes} {wireType : WireType} {error : DecodeError}
    (h : Fails start window wireType error) : IsLine error.message := by
  cases h <;>
    · change IsLine (_ ++ _)
      simp +decide

theorem Stop.Explains.isLine_message {start : Nat} {rest : Bytes} {stop : Stop} (h : stop.Explains start rest)
    {diagnostic : Diagnostic} (hmem : diagnostic ∈ stop.diagnostics) : IsLine diagnostic.error.message := by
  cases h with
  | malformed | unsupported =>
    obtain rfl := List.mem_singleton.1 hmem
    change IsLine (_ ++ _)
    simp +decide
  | incomplete => cases hmem

theorem Record.Complains.isLine_message {options : Options} {schema : Schema} {type : Option MessageType}
    {record : Record} (hschema : schema.NamesAreLines) (htype : ∀ found, type = some found → found.NamesAreLines)
    {error : DecodeError} (h : record.Complains options schema type error) : IsLine error.message := by
  cases h with
  | reading hreading => exact hreading.isLine_message
  | unknownMessage description hdescribed =>
    have hname := isLine_of_describe htype hdescribed
    change IsLine (_ ++ _)
    simp +decide [hname]
  | tooDeep =>
    change IsLine (_ ++ _)
    simp +decide
  | unnamed description enumType henum number =>
    have hname := (hschema.enums enumType (Schema.mem_of_enumOf? henum)).fullName
    change IsLine (_ ++ _)
    simp +decide [hname]

theorem Diagnostic.isLine_text {diagnostic : Diagnostic} (h : IsLine diagnostic.error.message) :
    IsLine diagnostic.text := by
  change IsLine (_ ++ _)
  simp +decide [h]

end WireTree
