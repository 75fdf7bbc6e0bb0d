import WireTree.Proofs.Refusal

/-!
# Steps that succeed

After steps that all succeed, what stands in the schema is what each of them adds: its own entry, at its place among the
steps of the same row. No two of the steps share a key, and of those that name the same number the first one decides.
-/

namespace WireTree

namespace BuildStep

/-- The steps that add to the row, in their order. -/
def ofRow (row : Row) (steps : List BuildStep) : List BuildStep := steps.filter fun step => step.row? = some row

/-- The place of the step among the steps of its row. -/
def place (steps : List BuildStep) (step : BuildStep) : Nat :=
  (step.row?.map fun row => (ofRow row steps).idxOf step).getD 0

variable {steps : List BuildStep} {step : BuildStep}

theorem ofRow_append (row : Row) (steps steps' : List BuildStep) :
    ofRow row (steps ++ steps') = ofRow row steps ++ ofRow row steps' :=
  List.filter_append ..

theorem length_ofRow_concat (row : Row) :
    (ofRow row (steps ++ [step])).length = (ofRow row steps).length + if step.row? = some row then 1 else 0 := by
  rw [ofRow_append, List.length_append]
  by_cases hrow : step.row? = some row <;> simp [ofRow, hrow]

theorem place_concat_of_mem {old : BuildStep} (hold : old ∈ steps) : place (steps ++ [step]) old = place steps old := by
  unfold place
  cases hrow : old.row? with
  | none => rfl
  | some row =>
    have hmem : old ∈ ofRow row steps := List.mem_filter.2 ⟨hold, decide_eq_true hrow⟩
    rw [Option.map_some, Option.map_some, ofRow_append, List.idxOf_append_of_mem hmem]

theorem place_concat_self (hnew : step ∉ steps) :
    place (steps ++ [step]) step = (step.row?.map fun row => (ofRow row steps).length).getD 0 := by
  unfold place
  cases hrow : step.row? with
  | none => rfl
  | some row =>
    have hmem : step ∉ ofRow row steps := fun hmem => hnew (List.mem_of_mem_filter hmem)
    have hlast : ofRow row [step] = [step] := List.filter_cons_of_pos (decide_eq_true hrow)
    rw [Option.map_some, Option.map_some, ofRow_append, List.idxOf_append_of_notMem hmem, hlast, List.idxOf_cons_self,
      Nat.add_zero]

end BuildStep

namespace IndexedSchema

/-! ### Runs that succeed -/

/-- Each step with how it ends, one after the other. -/
def outcomes (indexed : IndexedSchema) : List BuildStep → List (BuildStep × Except BuildError Added)
  | [] => []
  | step :: steps => (step, (indexed.apply step).map (·.2)) :: (indexed.after step).outcomes steps

/-- Whether every one of the steps is done, beginning with nothing. -/
def Succeeds (steps : List BuildStep) : Prop :=
  ∀ outcome ∈ ({} : IndexedSchema).outcomes steps, outcome.2.isOk = true

instance (steps : List BuildStep) : Decidable (Succeeds steps) :=
  inferInstanceAs (Decidable (∀ outcome ∈ ({} : IndexedSchema).outcomes steps, outcome.2.isOk = true))

theorem outcomes_append (indexed : IndexedSchema) (steps steps' : List BuildStep) :
    indexed.outcomes (steps ++ steps') = indexed.outcomes steps ++ (steps.foldl after indexed).outcomes steps' := by
  induction steps generalizing indexed with
  | nil => rfl
  | cons step steps ih => exact congrArg _ (ih _)

theorem outcomes_concat (steps : List BuildStep) (step : BuildStep) :
    ({} : IndexedSchema).outcomes (steps ++ [step]) =
      ({} : IndexedSchema).outcomes steps ++ [(step, ((build steps).apply step).map (·.2))] :=
  outcomes_append ..

theorem Does.after_eq {indexed next : IndexedSchema} {step : BuildStep} (h : indexed.Does step next) :
    indexed.after step = next := by
  rw [after, h.apply_eq]

theorem succeeds_concat_iff {steps : List BuildStep} {step : BuildStep} :
    Succeeds (steps ++ [step]) ↔ Succeeds steps ∧ (build steps).Does step (build (steps ++ [step])) := by
  rw [Succeeds, outcomes_concat, List.forall_mem_append, List.forall_mem_singleton]
  refine and_congr_right fun _ => ?_
  constructor
  · intro hok
    cases happly : (build steps).apply step with
    | error error =>
      rw [happly] at hok
      cases hok
    | ok result =>
      have hdoes := does_of_apply happly
      rwa [build_concat, hdoes.after_eq]
  · intro hdoes
    rw [hdoes.apply_eq]
    rfl

theorem succeeds_nil : Succeeds [] := List.forall_mem_nil _

theorem Succeeds.of_append {steps steps' : List BuildStep} (h : Succeeds (steps ++ steps')) : Succeeds steps := by
  rw [Succeeds, outcomes_append, List.forall_mem_append] at h
  exact h.1

theorem Succeeds.does {front back : List BuildStep} {step : BuildStep} (h : Succeeds (front ++ step :: back)) :
    (build front).Does step (build (front ++ [step])) := by
  rw [List.append_cons] at h
  exact (succeeds_concat_iff.1 h.of_append).2

/-! ### What a run builds -/

section Entries

variable {indexed next : IndexedSchema} {steps : List BuildStep} {step : BuildStep}

theorem not_has_nothing (entry : SchemaEntry) : ¬ ({} : IndexedSchema).Has entry := by
  cases entry <;> simp [Has, message?, enum?, service?]

theorem step_mem_of_has (steps : List BuildStep) {entry : SchemaEntry} (h : (build steps).Has entry) :
    entry.step ∈ steps := by
  induction steps using List.reverseRecOn with
  | nil => exact (not_has_nothing entry h).elim
  | append_singleton steps step ih =>
    rw [build_concat] at h
    rcases does_or_after_eq (build steps) step with hdoes | hsame
    · rcases (hdoes.has_iff (exact_build steps) entry).1 h with hold | rfl
      · exact List.mem_append_left _ (ih hold)
      · rw [IndexedSchema.entry, BuildStep.step_entry]
        exact List.mem_append_right _ (List.mem_singleton_self step)
    · exact List.mem_append_left _ (ih (hsame ▸ h))

theorem Does.taken_iff (hexact : indexed.Exact) (h : indexed.Does step next) (key : Key) :
    next.Taken key ↔ indexed.Taken key ∨ key ∈ step.keys := by
  simp only [Taken, h.has_iff hexact, or_and_right, exists_or, exists_eq_left, entry, BuildStep.step_entry]

theorem Succeeds.taken_iff (h : Succeeds steps) (key : Key) :
    (build steps).Taken key ↔ ∃ step ∈ steps, key ∈ step.keys := by
  induction steps using List.reverseRecOn with
  | nil =>
    constructor
    · rintro ⟨entry, hentry, -⟩
      exact (not_has_nothing entry hentry).elim
    · rintro ⟨step, hstep, -⟩
      cases hstep
  | append_singleton steps step ih =>
    obtain ⟨hsteps, hdoes⟩ := succeeds_concat_iff.1 h
    rw [hdoes.taken_iff (exact_build steps), ih hsteps]
    simp only [List.mem_append, List.mem_singleton, or_and_right, exists_or, exists_eq_left]

theorem Succeeds.pairwise_disjoint (h : Succeeds steps) :
    steps.Pairwise fun step step' => step.keys.Disjoint step'.keys := by
  induction steps using List.reverseRecOn with
  | nil => exact .nil
  | append_singleton steps step ih =>
    obtain ⟨hsteps, hdoes⟩ := succeeds_concat_iff.1 h
    refine List.pairwise_append.2 ⟨ih hsteps, List.pairwise_singleton .., ?_⟩
    intro old hold new hnew key hkey hkey'
    obtain rfl := List.mem_singleton.1 hnew
    exact hdoes.not_taken (exact_build steps) hkey' ((hsteps.taken_iff key).2 ⟨old, hold, hkey⟩)

theorem Succeeds.count_eq (h : Succeeds steps) (row : Row) :
    (build steps).count row = (BuildStep.ofRow row steps).length := by
  induction steps using List.reverseRecOn with
  | nil => cases row <;> rfl
  | append_singleton steps step ih =>
    obtain ⟨hsteps, hdoes⟩ := succeeds_concat_iff.1 h
    rw [hdoes.count_eq, ih hsteps, BuildStep.length_ofRow_concat]

theorem Succeeds.entry_eq (h : Succeeds (steps ++ [step])) :
    (build steps).entry step = step.entry (BuildStep.place (steps ++ [step]) step) := by
  obtain ⟨hsteps, hdoes⟩ := succeeds_concat_iff.1 h
  have hnew : step ∉ steps := by
    intro hmem
    obtain ⟨key, hkey⟩ := step.exists_mem_keys
    exact hdoes.not_taken (exact_build steps) hkey ((hsteps.taken_iff key).2 ⟨step, hmem, hkey⟩)
  rw [BuildStep.place_concat_self hnew, entry, funext hsteps.count_eq]

/-- Each step adds its own entry, and nothing else stands in the schema. -/
theorem Succeeds.has_iff (h : Succeeds steps) (entry : SchemaEntry) :
    (build steps).Has entry ↔ ∃ step ∈ steps, entry = step.entry (BuildStep.place steps step) := by
  induction steps using List.reverseRecOn with
  | nil =>
    refine ⟨fun hentry => (not_has_nothing entry hentry).elim, ?_⟩
    rintro ⟨step, hstep, -⟩
    cases hstep
  | append_singleton steps step ih =>
    obtain ⟨hsteps, hdoes⟩ := succeeds_concat_iff.1 h
    have hold : (∃ old ∈ steps, entry = old.entry (BuildStep.place steps old)) ↔
        ∃ old ∈ steps, entry = old.entry (BuildStep.place (steps ++ [step]) old) :=
      exists_congr fun old => and_congr_right fun hmem => by rw [BuildStep.place_concat_of_mem hmem]
    rw [hdoes.has_iff (exact_build steps), ih hsteps, h.entry_eq, hold]
    simp only [List.mem_append, List.mem_singleton, or_and_right, exists_or, exists_eq_left]

theorem Succeeds.nameOf?_eq (h : Succeeds steps) (owner : EnumRef) (number : Int32) :
    (build steps).nameOf? owner number = steps.findSome? (BuildStep.nameFor? owner number) := by
  induction steps using List.reverseRecOn with
  | nil => rfl
  | append_singleton steps step ih =>
    obtain ⟨hsteps, hdoes⟩ := succeeds_concat_iff.1 h
    rw [hdoes.nameOf?_eq (exact_build steps), ih hsteps, List.findSome?_append, List.findSome?_singleton]

theorem Succeeds.outcomes_eq (h : Succeeds steps) :
    ({} : IndexedSchema).outcomes steps =
      steps.map fun step => (step, .ok (step.entry (BuildStep.place steps step)).added) := by
  induction steps using List.reverseRecOn with
  | nil => rfl
  | append_singleton steps step ih =>
    obtain ⟨hsteps, hdoes⟩ := succeeds_concat_iff.1 h
    rw [outcomes_concat, ih hsteps, hdoes.apply_eq, h.entry_eq, List.map_append]
    refine congrArg (· ++ _) (List.map_congr_left fun old hold => ?_)
    rw [BuildStep.place_concat_of_mem hold]

end Entries

end IndexedSchema

end WireTree
