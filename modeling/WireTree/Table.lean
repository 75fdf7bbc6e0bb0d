/-!
# Ordered tables

A table is a list of entries with ascending keys. Inserting keeps the order of the keys and never changes the value of a
key that has one, so two ascending tables in which every key has the same value are the same list, whatever the order in
which the entries came.
-/

namespace WireTree

abbrev Table (κ ν : Type) := List (κ × ν)

namespace Table

variable {κ ν : Type}

def get? [DecidableEq κ] (table : Table κ ν) (key : κ) : Option ν := table.lookup key

def values (table : Table κ ν) : List ν := table.map (·.2)

/-- Puts an entry in its place, unless the key has a value already. -/
def insert [Ord κ] (table : Table κ ν) (key : κ) (value : ν) : Table κ ν :=
  match table with
  | [] => [(key, value)]
  | entry :: rest =>
    match compare key entry.1 with
    | .lt => (key, value) :: entry :: rest
    | .eq => entry :: rest
    | .gt => entry :: insert rest key value

/-- Every key is below those behind it. -/
def Ascending [Ord κ] (table : Table κ ν) : Prop := table.Pairwise fun a b => compare a.1 b.1 = .lt

/-! ### Looking up -/

@[simp] theorem get?_nil [DecidableEq κ] (key : κ) : get? ([] : Table κ ν) key = none := rfl

theorem get?_cons [DecidableEq κ] (entry : κ × ν) (rest : Table κ ν) (key : κ) :
    get? (entry :: rest) key = if key = entry.1 then some entry.2 else get? rest key := by
  obtain ⟨first, value⟩ := entry
  by_cases same : key = first
  · simp [get?, same]
  · simp [get?, List.lookup_cons, beq_false_of_ne same, same]

theorem mem_of_get? [DecidableEq κ] {table : Table κ ν} {key : κ} {value : ν} (h : table.get? key = some value) :
    (key, value) ∈ table := by
  induction table with
  | nil => cases h
  | cons entry rest ih =>
    rw [get?_cons] at h
    split at h
    · rename_i hkey
      cases h
      rw [hkey]
      exact List.mem_cons_self
    · exact List.mem_cons_of_mem _ (ih h)

theorem get?_eq_none_of_lt [Ord κ] [Std.ReflOrd κ] [DecidableEq κ] {table : Table κ ν} {key : κ}
    (below : ∀ entry ∈ table, compare key entry.1 = .lt) : table.get? key = none := by
  induction table with
  | nil => rfl
  | cons first rest ih =>
    have different : key ≠ first.1 := by
      intro same
      have first_below := below first List.mem_cons_self
      rw [same, Std.ReflOrd.compare_self] at first_below
      cases first_below
    rw [get?_cons, if_neg different]
    exact ih fun entry hentry => below entry (List.mem_cons_of_mem _ hentry)

theorem get?_eq_some_iff [Ord κ] [Std.ReflOrd κ] [DecidableEq κ] {table : Table κ ν} (ascending : table.Ascending)
    {key : κ} {value : ν} : table.get? key = some value ↔ (key, value) ∈ table := by
  refine ⟨mem_of_get?, fun h => ?_⟩
  induction table with
  | nil => cases h
  | cons entry rest ih =>
    obtain ⟨below, ascendingRest⟩ := List.pairwise_cons.1 ascending
    rw [get?_cons]
    rcases List.mem_cons.1 h with rfl | h
    · rw [if_pos rfl]
    · have different : key ≠ entry.1 := by
        intro same
        have entry_below := below (key, value) h
        rw [same, Std.ReflOrd.compare_self] at entry_below
        cases entry_below
      rw [if_neg different, ih ascendingRest h]

/-! ### Inserting -/

theorem eq_or_mem_of_mem_insert [Ord κ] {table : Table κ ν} {key : κ} {value : ν} {entry : κ × ν}
    (h : entry ∈ table.insert key value) : entry = (key, value) ∨ entry ∈ table := by
  induction table with
  | nil => simpa [insert] using h
  | cons first rest ih =>
    simp only [insert] at h
    split at h
    · simpa using h
    · exact .inr h
    · rcases List.mem_cons.1 h with rfl | h
      · exact .inr List.mem_cons_self
      · exact (ih h).imp_right (List.mem_cons_of_mem _)

theorem ascending_insert [Ord κ] [Std.TransOrd κ] {table : Table κ ν} (ascending : table.Ascending)
    (key : κ) (value : ν) : (table.insert key value).Ascending := by
  induction table with
  | nil => simp [insert, Ascending]
  | cons first rest ih =>
    obtain ⟨below, ascendingRest⟩ := List.pairwise_cons.1 ascending
    simp only [insert]
    split
    · rename_i before
      refine List.pairwise_cons.2 ⟨fun entry hentry => ?_, ascending⟩
      rcases List.mem_cons.1 hentry with rfl | hentry
      · exact before
      · exact Std.TransCmp.lt_trans before (below entry hentry)
    · exact ascending
    · rename_i behind
      refine List.pairwise_cons.2 ⟨fun entry hentry => ?_, ih ascendingRest⟩
      rcases eq_or_mem_of_mem_insert hentry with rfl | hentry
      · exact Std.OrientedCmp.lt_of_gt behind
      · exact below entry hentry

/-- Only the key itself gets a value, and only if it had none. -/
theorem get?_insert [Ord κ] [Std.TransOrd κ] [Std.LawfulEqOrd κ] [DecidableEq κ] {table : Table κ ν}
    (ascending : table.Ascending) (key : κ) (value : ν) (other : κ) :
    (table.insert key value).get? other =
      if other = key then some ((table.get? key).getD value) else table.get? other := by
  induction table with
  | nil => simp [insert, get?_cons]
  | cons first rest ih =>
    obtain ⟨below, ascendingRest⟩ := List.pairwise_cons.1 ascending
    simp only [insert]
    split
    · rename_i before
      have missing : get? (first :: rest) key = none := by
        refine get?_eq_none_of_lt fun entry hentry => ?_
        rcases List.mem_cons.1 hentry with rfl | hentry
        · exact before
        · exact Std.TransCmp.lt_trans before (below entry hentry)
      rw [get?_cons, missing]
      rfl
    · rename_i same
      have same := Std.LawfulEqOrd.eq_of_compare same
      by_cases hother : other = key
      · simp [get?_cons, hother, same]
      · simp [hother]
    · rename_i behind
      have different : key ≠ first.1 := by
        intro same
        rw [same, Std.ReflOrd.compare_self] at behind
        cases behind
      rw [get?_cons, ih ascendingRest, get?_cons, get?_cons, if_neg different]
      by_cases hother : other = key
      · simp [hother, different]
      · simp [hother]

theorem ext_of_ascending [Ord κ] [Std.TransOrd κ] [Std.LawfulEqOrd κ] [DecidableEq κ] {left right : Table κ ν}
    (hleft : left.Ascending) (hright : right.Ascending) (h : ∀ key, left.get? key = right.get? key) :
    left = right := by
  induction left generalizing right with
  | nil =>
    cases right with
    | nil => rfl
    | cons first rest =>
      have := h first.1
      rw [get?_cons, if_pos rfl] at this
      cases this
  | cons leftFirst leftRest ih =>
    cases right with
    | nil =>
      have := h leftFirst.1
      rw [get?_cons, if_pos rfl] at this
      cases this
    | cons rightFirst rightRest =>
      obtain ⟨leftBelow, leftAscending⟩ := List.pairwise_cons.1 hleft
      obtain ⟨rightBelow, rightAscending⟩ := List.pairwise_cons.1 hright
      have sameKey : leftFirst.1 = rightFirst.1 := by
        have atLeft := h leftFirst.1
        have atRight := h rightFirst.1
        rw [get?_cons, if_pos rfl] at atLeft
        rw [get?_cons rightFirst, if_pos rfl] at atRight
        match order : compare leftFirst.1 rightFirst.1 with
        | .eq => exact Std.LawfulEqOrd.eq_of_compare order
        | .lt =>
          rw [get?_eq_none_of_lt] at atLeft
          · cases atLeft
          · intro entry hentry
            rcases List.mem_cons.1 hentry with rfl | hentry
            · exact order
            · exact Std.TransCmp.lt_trans order (rightBelow entry hentry)
        | .gt =>
          have order := Std.OrientedCmp.lt_of_gt order
          rw [get?_eq_none_of_lt] at atRight
          · cases atRight
          · intro entry hentry
            rcases List.mem_cons.1 hentry with rfl | hentry
            · exact order
            · exact Std.TransCmp.lt_trans order (leftBelow entry hentry)
      have sameFirst : leftFirst = rightFirst := by
        have atLeft := h leftFirst.1
        rw [get?_cons, if_pos rfl, get?_cons, if_pos sameKey, Option.some.injEq] at atLeft
        exact Prod.ext sameKey atLeft
      rw [sameFirst, ih leftAscending rightAscending fun key => ?_]
      by_cases hkey : key = leftFirst.1
      · rw [get?_eq_none_of_lt fun entry hentry => hkey ▸ leftBelow entry hentry,
          get?_eq_none_of_lt fun entry hentry => (hkey.trans sameKey) ▸ rightBelow entry hentry]
      · have atKey := h key
        rwa [get?_cons, if_neg hkey, get?_cons, if_neg fun same => hkey (same.trans sameKey.symm)] at atKey

end Table

end WireTree
