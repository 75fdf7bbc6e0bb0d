import WireTree.Proofs.Refusal
import WireTree.Schema.Editing

/-!
# Steps in place are atomic

Each step looks before it writes: an edit in place ends as the step on a schema of its own does, and one that is refused
leaves the schema as it found it. A step that is not refused adds one entry, and all references keep what they stand for.
-/

namespace WireTree

namespace Edit

/-! ### How edits end -/

section Perform

variable {α β : Type} (indexed : IndexedSchema)

@[simp] theorem perform_pure (value : α) : (pure value : Edit α).perform indexed = (.ok value, indexed) := rfl

@[simp] theorem perform_throw (error : BuildError) : (throw error : Edit α).perform indexed = (.error error, indexed) :=
  rfl

@[simp] theorem perform_get : (get : Edit IndexedSchema).perform indexed = (.ok indexed, indexed) := rfl

@[simp] theorem perform_modify (change : IndexedSchema → IndexedSchema) :
    (modify change : Edit PUnit).perform indexed = (.ok ⟨⟩, change indexed) :=
  rfl

@[simp] theorem perform_require (found : Option α) :
    (require found).perform indexed =
      match found with
      | some value => (.ok value, indexed)
      | none => (.error .unknownTarget, indexed) := by
  cases found <;> rfl

@[simp] theorem perform_bind (edit : Edit α) (next : α → Edit β) :
    (edit >>= next).perform indexed =
      match edit.perform indexed with
      | (.ok value, left) => (next value).perform left
      | (.error error, left) => (.error error, left) := by
  change StateT.run (ExceptT.run edit >>= ExceptT.bindCont next) indexed = _
  rw [StateT.run_bind, perform]
  rcases StateT.run (ExceptT.run edit) indexed with ⟨error | value, left⟩ <;> rfl

@[simp] theorem perform_map (change : α → β) (edit : Edit α) :
    (change <$> edit).perform indexed = ((edit.perform indexed).1.map change, (edit.perform indexed).2) := by
  rw [map_eq_pure_bind, perform_bind]
  rcases edit.perform indexed with ⟨error | value, left⟩ <;> rfl

@[simp] theorem perform_ite (condition : Prop) [Decidable condition] (yes no : Edit α) :
    (if condition then yes else no).perform indexed =
      if condition then yes.perform indexed else no.perform indexed :=
  apply_ite (perform · indexed) ..

end Perform

theorem modify_eq_set_of_getElem? {α : Type} {list : List α} {place : Nat} {found : α} (h : list[place]? = some found)
    (change : α → α) : list.modify place change = list.set place (change found) := by
  rw [List.modify_eq_set_getElem?, h]
  rfl

/-- In place a step ends as it does on a schema of its own, and a refusal comes before the first write. -/
theorem perform_apply (step : BuildStep) (indexed : IndexedSchema) :
    (apply step).perform indexed =
      match indexed.apply step with
      | .ok (next, added) => (.ok added, next)
      | .error error => (.error error, indexed) := by
  cases step with
  | insertMessage name =>
    simp only [apply, insertMessage, claim, IndexedSchema.apply, IndexedSchema.insertMessage, IndexedSchema.claim]
    cases hname : indexed.types.get? name <;> simp [hname, Except.map]
  | insertEnum name =>
    simp only [apply, insertEnum, claim, IndexedSchema.apply, IndexedSchema.insertEnum, IndexedSchema.claim]
    cases hname : indexed.types.get? name <;> simp [hname, Except.map]
  | insertService name =>
    simp only [apply, insertService, IndexedSchema.apply, IndexedSchema.insertService]
    cases hname : indexed.servicePlaces.get? name <;> simp [hname, Except.map]
  | addField target field =>
    simp only [apply, addField, writeMessage, IndexedSchema.apply, IndexedSchema.addField]
    cases hrefers : indexed.refersWell field with
    | false => simp [hrefers, Except.map]
    | true =>
      cases hmessage : indexed.message? target with
      | none => simp [hrefers, hmessage, Except.map]
      | some message =>
        cases hnumber : message.field? field.number <;> cases hname : message.numbers.get? field.name <;>
          simp [hrefers, hmessage, hnumber, hname, Except.map, List.modify_modify_eq]
        rw [modify_eq_set_of_getElem? hmessage]
        rfl
  | addEnumValue target name number =>
    simp only [apply, addEnumValue, writeEnum, IndexedSchema.apply, IndexedSchema.addEnumValue]
    cases htype : indexed.enum? target with
    | none => simp [htype, Except.map]
    | some type =>
      cases hname : type.numbers.get? name <;> simp [htype, hname, Except.map, List.modify_modify_eq]
      rw [modify_eq_set_of_getElem? htype]
      rfl
  | addMethod target name input output =>
    simp only [apply, addMethod, writeService, IndexedSchema.apply, IndexedSchema.addMethod]
    cases hservice : indexed.service? target with
    | none => simp [hservice, Except.map]
    | some service =>
      cases hname : service.places.get? name <;> simp [hservice, hname, Except.map, List.modify_modify_eq]
      rw [modify_eq_set_of_getElem? hservice]
      rfl

theorem build_eq (steps : List BuildStep) : build steps = IndexedSchema.build steps := by
  have hstep (indexed : IndexedSchema) (step : BuildStep) :
      ((apply step).perform indexed).2 = indexed.after step := by
    rw [perform_apply, IndexedSchema.after]
    rcases indexed.apply step with error | ⟨next, added⟩ <;> rfl
  simp only [build, IndexedSchema.build, hstep]

end Edit

namespace IndexedSchema

variable {indexed next : IndexedSchema} {step : BuildStep}

/-! ### What a step leaves as it is -/

/-- What the step adds is new and all that is new, and every type stays at its place with its reference and full name.
Only the type that gets a member is changed, and a number that has a name keeps it. -/
structure Adds (indexed : IndexedSchema) (step : BuildStep) (next : IndexedSchema) : Prop where
  not_has : ¬ indexed.Has (indexed.entry step)
  has_iff : ∀ entry, next.Has entry ↔ indexed.Has entry ∨ entry = indexed.entry step
  count_eq : ∀ row, next.count row = indexed.count row + if step.row? = some row then 1 else 0
  message? : ∀ ref message, indexed.message? ref = some message → ∃ message', next.message? ref = some message' ∧
    message'.type.ref = message.type.ref ∧ message'.type.fullName = message.type.fullName ∧
    (message' = message ∨ ∃ field, step = .addField ref field)
  enum? : ∀ ref type, indexed.enum? ref = some type → ∃ type', next.enum? ref = some type' ∧
    type'.ref = type.ref ∧ type'.fullName = type.fullName ∧
    (type' = type ∨ ∃ name number, step = .addEnumValue ref name number)
  service? : ∀ ref service, indexed.service? ref = some service → ∃ service', next.service? ref = some service' ∧
    service'.service.ref = service.service.ref ∧ service'.service.fullName = service.service.fullName ∧
    (service' = service ∨ ∃ name input output, step = .addMethod ref name input output)
  nameOf?_eq : ∀ owner number, next.nameOf? owner number = (indexed.nameOf? owner number).or (step.nameFor? owner number)

theorem exists_getElem?_set {α : Type} {list : List α} {changed place : Nat} {old new found : α}
    (hold : list[changed]? = some old) (hfound : list[place]? = some found) :
    ∃ found', (list.set changed new)[place]? = some found' ∧
      (found' = found ∨ changed = place ∧ old = found ∧ found' = new) := by
  by_cases hplace : changed = place
  · subst hplace
    obtain ⟨hlt, -⟩ := List.getElem?_eq_some_iff.1 hold
    cases hold.symm.trans hfound
    exact ⟨new, List.getElem?_set_self hlt, .inr ⟨rfl, rfl, rfl⟩⟩
  · exact ⟨found, (List.getElem?_set_ne hplace).trans hfound, .inl rfl⟩

theorem Does.exists_message? (h : indexed.Does step next) {ref : MessageRef} {message : IndexedMessage}
    (hmessage : indexed.message? ref = some message) :
    ∃ message', next.message? ref = some message' ∧ message'.type.ref = message.type.ref ∧
      message'.type.fullName = message.type.fullName ∧ (message' = message ∨ ∃ field, step = .addField ref field) := by
  cases h with
  | insertMessage => exact ⟨message, getElem?_concat_of_eq_some hmessage _, rfl, rfl, .inl rfl⟩
  | addField target field old hrefers hold hnumber hname =>
    obtain ⟨message', hmessage', rfl | ⟨hplace, rfl, rfl⟩⟩ := exists_getElem?_set hold hmessage
    · exact ⟨message', hmessage', rfl, rfl, .inl rfl⟩
    · have htarget : target = ref := congrArg MessageRef.mk hplace
      exact ⟨_, hmessage', rfl, rfl, .inr ⟨field, htarget ▸ rfl⟩⟩
  | insertEnum | insertService | addEnumValue | addMethod => exact ⟨message, hmessage, rfl, rfl, .inl rfl⟩

theorem Does.exists_enum? (h : indexed.Does step next) {ref : EnumRef} {type : EnumType}
    (htype : indexed.enum? ref = some type) :
    ∃ type', next.enum? ref = some type' ∧ type'.ref = type.ref ∧ type'.fullName = type.fullName ∧
      (type' = type ∨ ∃ name number, step = .addEnumValue ref name number) := by
  cases h with
  | insertEnum => exact ⟨type, getElem?_concat_of_eq_some htype _, rfl, rfl, .inl rfl⟩
  | addEnumValue target name number old hold hname =>
    obtain ⟨type', htype', rfl | ⟨hplace, rfl, rfl⟩⟩ := exists_getElem?_set hold htype
    · exact ⟨type', htype', rfl, rfl, .inl rfl⟩
    · have htarget : target = ref := congrArg EnumRef.mk hplace
      exact ⟨_, htype', rfl, rfl, .inr ⟨name, number, htarget ▸ rfl⟩⟩
  | insertMessage | insertService | addField | addMethod => exact ⟨type, htype, rfl, rfl, .inl rfl⟩

theorem Does.exists_service? (h : indexed.Does step next) {ref : ServiceRef} {service : IndexedService}
    (hservice : indexed.service? ref = some service) :
    ∃ service', next.service? ref = some service' ∧ service'.service.ref = service.service.ref ∧
      service'.service.fullName = service.service.fullName ∧
      (service' = service ∨ ∃ name input output, step = .addMethod ref name input output) := by
  cases h with
  | insertService => exact ⟨service, getElem?_concat_of_eq_some hservice _, rfl, rfl, .inl rfl⟩
  | addMethod target name input output old hold hname =>
    obtain ⟨service', hservice', rfl | ⟨hplace, rfl, rfl⟩⟩ := exists_getElem?_set hold hservice
    · exact ⟨service', hservice', rfl, rfl, .inl rfl⟩
    · have htarget : target = ref := congrArg ServiceRef.mk hplace
      exact ⟨_, hservice', rfl, rfl, .inr ⟨name, input, output, htarget ▸ rfl⟩⟩
  | insertMessage | insertEnum | addField | addEnumValue => exact ⟨service, hservice, rfl, rfl, .inl rfl⟩

theorem Does.adds (hexact : indexed.Exact) (h : indexed.Does step next) : indexed.Adds step next where
  not_has := h.not_has hexact
  has_iff := h.has_iff hexact
  count_eq := h.count_eq
  message? _ _ := h.exists_message?
  enum? _ _ := h.exists_enum?
  service? _ _ := h.exists_service?
  nameOf?_eq := h.nameOf?_eq hexact

end IndexedSchema

namespace Edit

/-- **Steps in place are atomic.** Whatever was built so far, a step is refused just for the reasons that `Refuses` lists,
and then the schema is left as it was. A step that is not refused adds its own entry, reports the place of a type that it
adds, and leaves all else standing. -/
theorem apply_atomic (steps : List BuildStep) (step : BuildStep) :
    let indexed := build steps
    let outcome := ((apply step).perform indexed).1
    let next := ((apply step).perform indexed).2
    (∀ error, outcome = .error error ↔ indexed.Refuses step error) ∧
    (∀ error, outcome = .error error → next = indexed) ∧
    ∀ added, outcome = .ok added → added = (indexed.entry step).added ∧ indexed.Adds step next := by
  intro indexed outcome next
  have hexact : indexed.Exact := by
    rw [show indexed = IndexedSchema.build steps from build_eq steps]
    exact IndexedSchema.exact_build steps
  have hperform := perform_apply step indexed
  cases happly : indexed.apply step with
  | error refusal =>
    rw [happly] at hperform
    have houtcome : outcome = .error refusal := congrArg Prod.fst hperform
    have hnext : next = indexed := congrArg Prod.snd hperform
    refine ⟨fun error => ?_, fun _ _ => hnext, fun added hadded => ?_⟩
    · rw [houtcome, ← hexact.apply_eq_error_iff, happly, Except.error.injEq, Except.error.injEq]
    · cases houtcome.symm.trans hadded
  | ok result =>
    obtain ⟨after, added⟩ := result
    rw [happly] at hperform
    have houtcome : outcome = .ok added := congrArg Prod.fst hperform
    have hnext : next = after := congrArg Prod.snd hperform
    obtain ⟨hdoes, hadded⟩ := IndexedSchema.apply_eq_ok_iff.1 happly
    refine ⟨fun error => ?_, fun error herror => ?_, fun added' hadded' => ?_⟩
    · rw [houtcome, ← hexact.apply_eq_error_iff, happly]
      exact iff_of_false (by rintro ⟨⟩) (by rintro ⟨⟩)
    · cases houtcome.symm.trans herror
    · cases houtcome.symm.trans hadded'
      exact ⟨hadded, hnext ▸ hdoes.adds hexact⟩

end Edit

end WireTree
