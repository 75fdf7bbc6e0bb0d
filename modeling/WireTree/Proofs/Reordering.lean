import WireTree.Proofs.Alike
import WireTree.Proofs.Succeeding

/-!
# Steps in another order

Steps that all succeed can be done in another order, as long as the order within each row is kept, and the order of the
values that share a number. Each step then ends as before, and the schema is the same, tables and all.

What stands in the schema after steps that succeed is a matter of the steps as a set, but for their places in the rows.
And whether a step succeeds is a matter of its keys, which no other step has, and of the types that it needs.
-/

namespace WireTree

/-- Where the type stands: its row and its place there. -/
def TypeRef.standing : TypeRef → Row × Nat
  | .message ref => (.messages, ref.index)
  | .enum ref => (.enums, ref.index)

theorem append_eq_append_cons {α : Type} {front rest before after : List α} {found : α}
    (h : front ++ rest = before ++ found :: after) :
    (∃ between, front = before ++ found :: between) ∨
      ∃ between, before = front ++ between ∧ rest = between ++ found :: after := by
  rcases List.append_eq_append_iff.1 h with ⟨between, hbefore, hrest⟩ | ⟨between, hfront, hafter⟩
  · exact .inr ⟨between, hbefore, hrest⟩
  · cases between with
    | nil => exact .inr ⟨[], by simpa using hfront.symm, hafter.symm⟩
    | cons first between =>
      obtain ⟨rfl, -⟩ := List.cons_eq_cons.1 hafter
      exact .inl ⟨between, hfront⟩

namespace BuildStep

/-- The steps that name the number of the enum type, in their order. -/
def naming (owner : EnumRef) (number : Int32) (steps : List BuildStep) : List BuildStep :=
  steps.filter fun step => (step.nameFor? owner number).isSome

/-- The types and services that have to be there before the step. The messages of a method are not among them: nothing
looks whether they are there. -/
def needs : BuildStep → List (Row × Nat)
  | .insertMessage _ | .insertEnum _ | .insertService _ => []
  | .addField target field => (.messages, target.index) :: field.typeRef.toList.map TypeRef.standing
  | .addEnumValue target .. => [(.enums, target.index)]
  | .addMethod target .. => [(.services, target.index)]

variable {steps : List BuildStep} {step : BuildStep}

theorem mem_naming_iff {owner : EnumRef} {number : Int32} :
    step ∈ naming owner number steps ↔ step ∈ steps ∧ (step.nameFor? owner number).isSome = true :=
  List.mem_filter

theorem naming_append (owner : EnumRef) (number : Int32) (steps steps' : List BuildStep) :
    naming owner number (steps ++ steps') = naming owner number steps ++ naming owner number steps' :=
  List.filter_append ..

theorem findSome?_naming (owner : EnumRef) (number : Int32) (steps : List BuildStep) :
    (naming owner number steps).findSome? (nameFor? owner number) = steps.findSome? (nameFor? owner number) := by
  rw [← List.head?_filterMap, ← List.head?_filterMap, naming, List.filterMap_filter]
  refine congrArg (fun name => (steps.filterMap name).head?) (funext fun step => ?_)
  cases step.nameFor? owner number <;> rfl

end BuildStep

namespace IndexedSchema

/-! ### Which schemas do a step -/

section Needs

variable {indexed next other last : IndexedSchema} {step : BuildStep}

theorem Does.needs_lt (h : indexed.Does step next) {need : Row × Nat} (hneed : need ∈ step.needs) :
    need.2 < indexed.count need.1 := by
  cases h with
  | insertMessage | insertEnum | insertService => cases hneed
  | addField target field message hrefers hmessage hnumber hname =>
    rcases List.mem_cons.1 hneed with rfl | hneed
    · exact (List.getElem?_eq_some_iff.1 hmessage).1
    · obtain ⟨ref, href, rfl⟩ := List.mem_map.1 hneed
      have hfits := (refersWell_iff field).1 hrefers ref (Option.mem_toList.1 href)
      generalize field.type = type at hfits
      cases hfits with
      | message ref hrange | group ref hrange | enum ref hrange => exact hrange
  | addEnumValue target name number type htype hname =>
    obtain rfl := List.mem_singleton.1 hneed
    exact (List.getElem?_eq_some_iff.1 htype).1
  | addMethod target name input output service hservice hname =>
    obtain rfl := List.mem_singleton.1 hneed
    exact (List.getElem?_eq_some_iff.1 hservice).1

/-- A step that some schema does is done by each that has what it needs, and none of its keys yet. -/
theorem Does.exists_does (h : other.Does step last) (hexact : indexed.Exact)
    (hneeds : ∀ need ∈ step.needs, need.2 < indexed.count need.1) (hfree : ∀ key ∈ step.keys, ¬ indexed.Taken key) :
    ∃ next, indexed.Does step next := by
  rcases hexact.refuses_or_does step with ⟨error, hrefuses⟩ | hdoes
  · exfalso
    cases hrefuses with
    | message name htaken | enum name htaken | service name htaken | value target name number htaken
    | method target name input output htaken | fieldNumber target field hfits htaken =>
      exact hfree _ List.mem_cons_self htaken
    | fieldName target field hfits hnumber htaken =>
      exact hfree _ (List.mem_cons_of_mem _ (List.mem_singleton_self _)) htaken
    | noMessage target field hfits hmissing | noEnum target name number hmissing
    | noService target name input output hmissing =>
      exact Nat.not_lt_of_le (List.getElem?_eq_none_iff.1 hmissing) (hneeds _ List.mem_cons_self)
    | typeRef target field hunfit =>
      refine hunfit fun ref href => ?_
      have hstanding : ref.standing.2 < indexed.count ref.standing.1 :=
        hneeds _ (List.mem_cons_of_mem _ (List.mem_map_of_mem (Option.mem_toList.2 href)))
      -- The reference is of the right kind, since the other schema does the step too.
      cases h with
      | addField _ _ message hrefers =>
        have hfits := (refersWell_iff field).1 hrefers ref href
        generalize field.type = type at hfits
        cases hfits with
        | message ref => exact .message ref hstanding
        | group ref => exact .group ref hstanding
        | enum ref => exact .enum ref hstanding
  · exact hdoes

end Needs

/-! ### Reordering -/

/-- The same steps in another order. The steps of each row keep their order, and so do those that name the same number of
an enum type. Each step comes after as many insertions as there have to be for the types and services that it needs. -/
structure Reorders (steps reordered : List BuildStep) : Prop where
  perm : reordered.Perm steps
  ofRow : ∀ row, BuildStep.ofRow row reordered = BuildStep.ofRow row steps
  naming : ∀ owner number, BuildStep.naming owner number reordered = BuildStep.naming owner number steps
  needs : ∀ front step back, reordered = front ++ step :: back →
    ∀ need ∈ step.needs, need.2 < (BuildStep.ofRow need.1 front).length

/-- All steps succeed in the second order too, each with what it reported in the first one, and build the same schema. -/
structure Agree (steps reordered : List BuildStep) : Prop where
  succeeds : Succeeds reordered
  outcomes : (({} : IndexedSchema).outcomes reordered).Perm (({} : IndexedSchema).outcomes steps)
  build_eq : build reordered = build steps

section Reorders

variable {steps reordered : List BuildStep}

theorem Reorders.place_eq (h : Reorders steps reordered) (step : BuildStep) :
    BuildStep.place reordered step = BuildStep.place steps step := by
  simp only [BuildStep.place, h.ofRow]

theorem Reorders.succeeds (h : Reorders steps reordered) (hsteps : Succeeds steps) : Succeeds reordered := by
  have hdisjoint : reordered.Pairwise fun step step' => step.keys.Disjoint step'.keys := by
    refine (h.perm.pairwise_iff ?_).2 hsteps.pairwise_disjoint
    exact fun hdisjoint key hkey hkey' => hdisjoint hkey' hkey
  have hfront : ∀ front back, reordered = front ++ back → Succeeds front := by
    intro front
    induction front using List.reverseRecOn with
    | nil => exact fun _ _ => succeeds_nil
    | append_singleton front step ih =>
      intro back hsplit
      have hsplit' : reordered = front ++ step :: back := by rw [hsplit, List.append_assoc, List.singleton_append]
      have hfront := ih _ hsplit'
      obtain ⟨front', back', hsplit''⟩ : ∃ front' back', steps = front' ++ step :: back' :=
        List.append_of_mem (h.perm.subset (by simp [hsplit']))
      have hdoes := (hsplit'' ▸ hsteps).does
      obtain ⟨next, hnext⟩ : ∃ next, (build front).Does step next := by
        refine hdoes.exists_does (exact_build front) (fun need hneed => ?_) fun key hkey htaken => ?_
        · rw [hfront.count_eq]
          exact h.needs front step back hsplit' need hneed
        · obtain ⟨old, hold, hkey'⟩ := (hfront.taken_iff key).1 htaken
          rw [hsplit'] at hdisjoint
          exact (List.pairwise_append.1 hdisjoint).2.2 old hold step List.mem_cons_self hkey' hkey
      refine succeeds_concat_iff.2 ⟨hfront, ?_⟩
      rwa [build_concat, hnext.after_eq]
  exact hfront reordered [] (List.append_nil _).symm

theorem Reorders.agree (h : Reorders steps reordered) (hsteps : Succeeds steps) : Agree steps reordered := by
  have hreordered := h.succeeds hsteps
  refine ⟨hreordered, ?_, ?_⟩
  · rw [hsteps.outcomes_eq, hreordered.outcomes_eq]
    simp only [h.place_eq]
    exact h.perm.map _
  · refine Alike.eq ⟨fun entry => ?_, fun owner number => ?_⟩ (exact_build _) (exact_build _)
    · rw [hreordered.has_iff, hsteps.has_iff]
      simp only [h.perm.mem_iff, h.place_eq]
    · rw [hreordered.nameOf?_eq, hsteps.nameOf?_eq, ← BuildStep.findSome?_naming, h.naming, BuildStep.findSome?_naming]

end Reorders

/-! ### Members in any order -/

section Members

variable {front middle middle' back : List BuildStep}

theorem Succeeds.needs_lt {step : BuildStep} (h : Succeeds (front ++ step :: back)) {need : Row × Nat}
    (hneed : need ∈ step.needs) : need.2 < (BuildStep.ofRow need.1 front).length := by
  rw [← h.of_append.count_eq]
  exact h.does.needs_lt hneed

theorem naming_eq_of_perm (hperm : middle'.Perm middle)
    (hnumbers : middle.Pairwise fun step step' =>
      ∀ owner number, (step.nameFor? owner number).isSome → step'.nameFor? owner number = none)
    (owner : EnumRef) (number : Int32) :
    BuildStep.naming owner number middle' = BuildStep.naming owner number middle := by
  have hnone : (BuildStep.naming owner number middle).Pairwise fun _ _ => False := by
    refine (hnumbers.filter _).imp_of_mem fun hstep hstep' hnumber => ?_
    have hnothing := hnumber owner number (BuildStep.mem_naming_iff.1 hstep).2
    have hname := (BuildStep.mem_naming_iff.1 hstep').2
    rw [hnothing] at hname
    cases hname
  have hfilter : (BuildStep.naming owner number middle').Perm (BuildStep.naming owner number middle) :=
    hperm.filter _
  have hnone' := (hfilter.pairwise_iff id).2 hnone
  exact hfilter.eq_of_pairwise (fun _ _ _ _ hfalse => hfalse.elim) hnone' hnone

theorem Succeeds.reorders (h : Succeeds (front ++ middle ++ back)) (hperm : middle'.Perm middle)
    (hmembers : ∀ step ∈ middle, step.row? = none)
    (hnumbers : middle.Pairwise fun step step' =>
      ∀ owner number, (step.nameFor? owner number).isSome → step'.nameFor? owner number = none) :
    Reorders (front ++ middle ++ back) (front ++ middle' ++ back) := by
  have hnothing : ∀ part, (∀ step ∈ part, step ∈ middle) → ∀ row, BuildStep.ofRow row part = [] := by
    intro part hpart row
    refine List.filter_eq_nil_iff.2 fun step hstep => ?_
    simp [hmembers step (hpart step hstep)]
  have hmiddle := hnothing middle fun _ hstep => hstep
  have hmiddle' := hnothing middle' fun _ hstep => hperm.subset hstep
  refine ⟨(hperm.append_left front).append_right back, fun row => ?_, fun owner number => ?_, ?_⟩
  · simp only [BuildStep.ofRow_append, hmiddle, hmiddle']
  · simp only [BuildStep.naming_append, naming_eq_of_perm hperm hnumbers]
  · intro before step after hsplit need hneed
    rw [List.append_assoc] at hsplit
    rcases append_eq_append_cons hsplit with ⟨rest, rfl⟩ | ⟨between, rfl, hrest⟩
    · rw [List.append_assoc, List.append_assoc] at h
      exact h.needs_lt hneed
    · rcases append_eq_append_cons hrest with ⟨rest, hinside⟩ | ⟨rest, rfl, rfl⟩
      · -- The step is one of those whose order changes, and what it needs was there before them.
        have hmem : step ∈ middle := hperm.subset (by simp [hinside])
        obtain ⟨front', back', hsplit'⟩ := List.append_of_mem hmem
        have hfront' := hnothing front' fun _ hstep => by simp [hsplit', hstep]
        have hsucceeds : Succeeds (front ++ front' ++ step :: (back' ++ back)) := by simpa [hsplit'] using h
        have hlt := hsucceeds.needs_lt hneed
        rw [BuildStep.ofRow_append, hfront', List.append_nil] at hlt
        rw [BuildStep.ofRow_append, List.length_append]
        exact Nat.lt_add_right _ hlt
      · rw [← List.append_assoc] at h
        have hlt := h.needs_lt hneed
        simpa only [BuildStep.ofRow_append, hmiddle, hmiddle', List.nil_append, List.append_assoc] using hlt

end Members

/-- **The order of steps does not matter** but for the order within each row and among the values that share a number, as
long as each step comes after what it needs. In particular fields, and values of different numbers, may be added in any
order. -/
theorem agree_of_reorders {steps : List BuildStep} (h : Succeeds steps) :
    (∀ reordered, Reorders steps reordered → Agree steps reordered) ∧
    ∀ front middle middle' back, steps = front ++ middle ++ back → middle'.Perm middle →
      (∀ step ∈ middle, step.row? = none) →
      (middle.Pairwise fun step step' =>
        ∀ owner number, (step.nameFor? owner number).isSome → step'.nameFor? owner number = none) →
      Agree steps (front ++ middle' ++ back) := by
  refine ⟨fun reordered hreorders => hreorders.agree h, ?_⟩
  rintro front middle middle' back rfl hperm hmembers hnumbers
  exact (h.reorders hperm hmembers hnumbers).agree h

/-- Types and values first and the field last, or two values exchanged: the two names of one number keep their order. -/
theorem agree_of_field_last :
    let field : FieldDescription := ⟨"kind", 1, .enum, .single, some (.enum ⟨0⟩)⟩
    let steps : List BuildStep := [.insertMessage "M", .insertEnum "E", .addField ⟨0⟩ field,
      .addEnumValue ⟨0⟩ "A" 1, .addEnumValue ⟨0⟩ "B" 1, .addEnumValue ⟨0⟩ "C" 2]
    Agree steps [.insertEnum "E", .addEnumValue ⟨0⟩ "A" 1, .addEnumValue ⟨0⟩ "B" 1, .insertMessage "M",
      .addEnumValue ⟨0⟩ "C" 2, .addField ⟨0⟩ field] ∧
    Agree steps [.insertMessage "M", .insertEnum "E", .addField ⟨0⟩ field, .addEnumValue ⟨0⟩ "A" 1,
      .addEnumValue ⟨0⟩ "C" 2, .addEnumValue ⟨0⟩ "B" 1] := by
  intro field steps
  have hsteps : Succeeds steps := by decide
  obtain ⟨hreorders, hmembers⟩ := agree_of_reorders hsteps
  constructor
  · apply hreorders
    refine ⟨by decide, fun row => ?_, fun owner number => ?_, fun front step back hsplit need hneed => ?_⟩
    · cases row <;> rfl
    · simp [steps, BuildStep.naming, BuildStep.nameFor?, List.filter_cons]
    · revert need
      simp only [List.cons_eq_append_iff, List.nil_eq_append_iff, List.cons_eq_cons, reduceCtorEq, and_false,
        exists_false, or_false] at hsplit
      rcases hsplit with ⟨rfl, rfl, -⟩ | ⟨_, rfl, ⟨rfl, rfl, -⟩ | ⟨_, rfl, ⟨rfl, rfl, -⟩ | ⟨_, rfl, ⟨rfl, rfl, -⟩ |
        ⟨_, rfl, ⟨rfl, rfl, -⟩ | ⟨_, rfl, rfl, rfl, -⟩⟩⟩⟩⟩
      all_goals decide
  · refine hmembers [.insertMessage "M", .insertEnum "E", .addField ⟨0⟩ field, .addEnumValue ⟨0⟩ "A" 1]
      [.addEnumValue ⟨0⟩ "B" 1, .addEnumValue ⟨0⟩ "C" 2] _ [] rfl (.swap ..) (by decide) ?_
    refine List.pairwise_pair.2 fun owner number hname => ?_
    have hnumber : (1 : Int32) = number := by
      by_contra hne
      simp [BuildStep.nameFor?, hne] at hname
    simp [BuildStep.nameFor?, ← hnumber]

/-- The order of two names of one number does matter. -/
example : build [.insertEnum "E", .addEnumValue ⟨0⟩ "A" 1, .addEnumValue ⟨0⟩ "B" 1] ≠
    build [.insertEnum "E", .addEnumValue ⟨0⟩ "B" 1, .addEnumValue ⟨0⟩ "A" 1] := by
  decide

end IndexedSchema

end WireTree
