import WireTree.Proofs.Entries

/-!
# Which steps are refused

Which steps a schema refuses, and for which reason, can be read off its entries: a key of the step is taken, the type
that it adds to is not there, or its type reference does not fit. Every other step is done.
-/

namespace WireTree

namespace IndexedSchema

variable {indexed next : IndexedSchema} {step : BuildStep}

/-- Whether the field refers to no type, or to one in range that its field type asks for. -/
def Fits (indexed : IndexedSchema) (field : FieldDescription) : Prop :=
  ∀ ref, field.typeRef = some ref → ref.Fits (indexed.count .messages) (indexed.count .enums) field.type

/-- Why a step is refused: a key of it is taken, its type reference does not fit, or it adds to a type that is not
there. -/
inductive Refuses (indexed : IndexedSchema) : BuildStep → BuildError → Prop
  | message (name : String) (htaken : indexed.Taken (.type name)) :
    Refuses indexed (.insertMessage name) (.typeExists name)
  | enum (name : String) (htaken : indexed.Taken (.type name)) : Refuses indexed (.insertEnum name) (.typeExists name)
  | service (name : String) (htaken : indexed.Taken (.service name)) :
    Refuses indexed (.insertService name) (.typeExists name)
  | typeRef (target : MessageRef) (field : FieldDescription) (hunfit : ¬ indexed.Fits field) :
    Refuses indexed (.addField target field) .invalidTypeRef
  | noMessage (target : MessageRef) (field : FieldDescription) (hfits : indexed.Fits field)
      (hmissing : indexed.message? target = none) : Refuses indexed (.addField target field) .unknownTarget
  | fieldNumber (target : MessageRef) (field : FieldDescription) (hfits : indexed.Fits field)
      (htaken : indexed.Taken (.fieldNumber target field.number)) :
    Refuses indexed (.addField target field) .numberConflict
  | fieldName (target : MessageRef) (field : FieldDescription) (hfits : indexed.Fits field)
      (hfree : ¬ indexed.Taken (.fieldNumber target field.number))
      (htaken : indexed.Taken (.fieldName target field.name)) : Refuses indexed (.addField target field) .nameConflict
  | noEnum (target : EnumRef) (name : String) (number : Int32) (hmissing : indexed.enum? target = none) :
    Refuses indexed (.addEnumValue target name number) .unknownTarget
  | value (target : EnumRef) (name : String) (number : Int32) (htaken : indexed.Taken (.value target name)) :
    Refuses indexed (.addEnumValue target name number) .nameConflict
  | noService (target : ServiceRef) (name : String) (input output : MessageRef)
      (hmissing : indexed.service? target = none) :
    Refuses indexed (.addMethod target name input output) .unknownTarget
  | method (target : ServiceRef) (name : String) (input output : MessageRef)
      (htaken : indexed.Taken (.method target name)) :
    Refuses indexed (.addMethod target name input output) .nameConflict

theorem refersWell_iff (field : FieldDescription) : indexed.refersWell field = true ↔ indexed.Fits field := by
  refine ⟨fits_of_refersWell, fun hfits => ?_⟩
  unfold refersWell
  cases href : field.typeRef with
  | none => simp
  | some ref =>
    have hfits := hfits ref href
    generalize field.type = type at hfits
    cases hfits with
    | message ref hrange | group ref hrange | enum ref hrange => exact decide_eq_true hrange

theorem Does.apply_eq (h : indexed.Does step next) : indexed.apply step = .ok (next, (indexed.entry step).added) := by
  cases h with
  | insertMessage name hnew =>
    rw [apply, IndexedSchema.insertMessage, claim, hnew]
    rfl
  | insertEnum name hnew =>
    rw [apply, IndexedSchema.insertEnum, claim, hnew]
    rfl
  | insertService name hnew =>
    rw [apply, IndexedSchema.insertService, hnew]
    rfl
  | addField target field message hrefers hmessage hnumber hname =>
    simp only [apply, IndexedSchema.addField, hrefers, hmessage, hnumber, hname]
    rfl
  | addEnumValue target name number type htype hname =>
    rw [EnumType.number?] at hname
    simp only [apply, IndexedSchema.addEnumValue, htype, hname]
    rfl
  | addMethod target name input output service hservice hname =>
    simp only [apply, IndexedSchema.addMethod, hservice, hname]
    rfl

theorem Refuses.apply_eq (hexact : indexed.Exact) {error : BuildError} (h : indexed.Refuses step error) :
    indexed.apply step = .error error := by
  cases h with
  | message name htaken =>
    obtain ⟨ref, href⟩ := Option.isSome_iff_exists.1 ((hexact.lookUp_iff _).2 htaken)
    rw [apply, IndexedSchema.insertMessage, claim, href]
    rfl
  | enum name htaken =>
    obtain ⟨ref, href⟩ := Option.isSome_iff_exists.1 ((hexact.lookUp_iff _).2 htaken)
    rw [apply, IndexedSchema.insertEnum, claim, href]
    rfl
  | service name htaken =>
    obtain ⟨place, hplace⟩ := Option.isSome_iff_exists.1 ((hexact.lookUp_iff _).2 htaken)
    rw [apply, IndexedSchema.insertService, hplace]
    rfl
  | typeRef target field hunfit =>
    rw [← refersWell_iff, Bool.not_eq_true] at hunfit
    simp only [apply, IndexedSchema.addField, hunfit]
    rfl
  | noMessage target field hfits hmissing =>
    simp only [apply, IndexedSchema.addField, (refersWell_iff field).2 hfits, hmissing]
    rfl
  | fieldNumber target field hfits htaken =>
    obtain ⟨message, hmessage, hsome⟩ := (Option.any_eq_true ..).1 ((hexact.lookUp_iff _).2 htaken)
    obtain ⟨other, hother⟩ := Option.isSome_iff_exists.1 hsome
    simp only [apply, IndexedSchema.addField, (refersWell_iff field).2 hfits, hmessage, hother]
    rfl
  | fieldName target field hfits hfree htaken =>
    obtain ⟨message, hmessage, hsome⟩ := (Option.any_eq_true ..).1 ((hexact.lookUp_iff _).2 htaken)
    obtain ⟨number, hnumber⟩ := Option.isSome_iff_exists.1 hsome
    have hother : message.field? field.number = none := by
      simpa [← hexact.lookUp_iff, lookUp, hmessage] using hfree
    simp only [apply, IndexedSchema.addField, (refersWell_iff field).2 hfits, hmessage, hother, hnumber]
    rfl
  | noEnum target name number hmissing =>
    rw [apply, IndexedSchema.addEnumValue, hmissing]
    rfl
  | value target name number htaken =>
    obtain ⟨type, htype, hsome⟩ := (Option.any_eq_true ..).1 ((hexact.lookUp_iff _).2 htaken)
    obtain ⟨other, hother⟩ := Option.isSome_iff_exists.1 hsome
    rw [EnumType.number?] at hother
    simp only [apply, IndexedSchema.addEnumValue, htype, hother]
    rfl
  | noService target name input output hmissing =>
    rw [apply, IndexedSchema.addMethod, hmissing]
    rfl
  | method target name input output htaken =>
    obtain ⟨service, hservice, hsome⟩ := (Option.any_eq_true ..).1 ((hexact.lookUp_iff _).2 htaken)
    obtain ⟨place, hplace⟩ := Option.isSome_iff_exists.1 hsome
    simp only [apply, IndexedSchema.addMethod, hservice, hplace]
    rfl

/-- There is nothing between a step that is refused and one that is done. -/
theorem Exact.refuses_or_does (h : indexed.Exact) (step : BuildStep) :
    (∃ error, indexed.Refuses step error) ∨ ∃ next, indexed.Does step next := by
  have hfree : ∀ {key}, ¬ indexed.Taken key → indexed.lookUp key = false := by
    intro key hkey
    rwa [← h.lookUp_iff, Bool.not_eq_true] at hkey
  cases step with
  | insertMessage name =>
    by_cases htaken : indexed.Taken (.type name)
    · exact .inl ⟨_, .message name htaken⟩
    · exact .inr ⟨_, .insertMessage name (by simpa [lookUp] using hfree htaken)⟩
  | insertEnum name =>
    by_cases htaken : indexed.Taken (.type name)
    · exact .inl ⟨_, .enum name htaken⟩
    · exact .inr ⟨_, .insertEnum name (by simpa [lookUp] using hfree htaken)⟩
  | insertService name =>
    by_cases htaken : indexed.Taken (.service name)
    · exact .inl ⟨_, .service name htaken⟩
    · exact .inr ⟨_, .insertService name (by simpa [lookUp] using hfree htaken)⟩
  | addField target field =>
    by_cases hfits : indexed.Fits field
    · cases hmessage : indexed.message? target with
      | none => exact .inl ⟨_, .noMessage target field hfits hmessage⟩
      | some message =>
        by_cases hnumber : indexed.Taken (.fieldNumber target field.number)
        · exact .inl ⟨_, .fieldNumber target field hfits hnumber⟩
        · by_cases hname : indexed.Taken (.fieldName target field.name)
          · exact .inl ⟨_, .fieldName target field hfits hnumber hname⟩
          · refine .inr ⟨_, .addField target field message ((refersWell_iff field).2 hfits) hmessage ?_ ?_⟩
            · simpa [lookUp, hmessage] using hfree hnumber
            · simpa [lookUp, hmessage] using hfree hname
    · exact .inl ⟨_, .typeRef target field hfits⟩
  | addEnumValue target name number =>
    cases htype : indexed.enum? target with
    | none => exact .inl ⟨_, .noEnum target name number htype⟩
    | some type =>
      by_cases hname : indexed.Taken (.value target name)
      · exact .inl ⟨_, .value target name number hname⟩
      · refine .inr ⟨_, .addEnumValue target name number type htype ?_⟩
        simpa [lookUp, htype] using hfree hname
  | addMethod target name input output =>
    cases hservice : indexed.service? target with
    | none => exact .inl ⟨_, .noService target name input output hservice⟩
    | some service =>
      by_cases hname : indexed.Taken (.method target name)
      · exact .inl ⟨_, .method target name input output hname⟩
      · refine .inr ⟨_, .addMethod target name input output service hservice ?_⟩
        simpa [lookUp, hservice] using hfree hname

theorem Exact.apply_eq_error_iff (h : indexed.Exact) {error : BuildError} :
    indexed.apply step = .error error ↔ indexed.Refuses step error := by
  refine ⟨fun happly => ?_, Refuses.apply_eq h⟩
  rcases h.refuses_or_does step with ⟨other, hrefuses⟩ | ⟨next, hdoes⟩
  · cases (hrefuses.apply_eq h).symm.trans happly
    exact hrefuses
  · cases hdoes.apply_eq.symm.trans happly

theorem apply_eq_ok_iff {added : Added} :
    indexed.apply step = .ok (next, added) ↔ indexed.Does step next ∧ added = (indexed.entry step).added := by
  refine ⟨fun happly => ?_, fun ⟨hdoes, hadded⟩ => hadded ▸ hdoes.apply_eq⟩
  have hdoes := does_of_apply happly
  cases hdoes.apply_eq.symm.trans happly
  exact ⟨hdoes, rfl⟩

end IndexedSchema

end WireTree
