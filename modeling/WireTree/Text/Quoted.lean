import WireTree.Text.Unprintable

/-!
# Text in quotes

Text stands between double quotes, with a backslash before what would end it or what has no look of its own. No line
feed and no bare quote is left inside.
-/

namespace WireTree.Quoted

/-- A character as it stands between the quotes. -/
def escape (char : Char) : List Char :=
  if char = '\x00' then ['\\', '0']
  else if char = '\t' then ['\\', 't']
  else if char = '\r' then ['\\', 'r']
  else if char = '\n' then ['\\', 'n']
  else if char = '"' then ['\\', '"']
  else if char = '\\' then ['\\', '\\']
  else if Unprintable.contains char.toNat then
    ['\\', 'u', '\x7b'] ++ Nat.toDigits 16 char.toNat ++ ['\x7d']
  else [char]

/-- The text between double quotes. -/
def encode (text : String) : String := String.ofList ('"' :: text.toList.flatMap escape ++ ['"'])

/-! ### What stands between the quotes -/

theorem isAlphanum_digitChar {value : Nat} (h : value < 16) : (Nat.digitChar value).isAlphanum := by
  have all : ∀ digit : Fin 16, (Nat.digitChar digit.val).isAlphanum := by decide
  exact all ⟨value, h⟩

theorem isAlphanum_of_mem_toDigits {value : Nat} {digit : Char} (h : digit ∈ Nat.toDigits 16 value) :
    digit.isAlphanum := by
  induction value using Nat.strongRecOn with
  | ind value ih =>
    rw [Nat.toDigits_eq_if (by decide)] at h
    split at h
    · rename_i small
      rw [List.mem_singleton.1 h]
      exact isAlphanum_digitChar small
    · rcases List.mem_append.1 h with h | h
      · exact ih (value / 16) (by omega) h
      · rw [List.mem_singleton.1 h]
        exact isAlphanum_digitChar (Nat.mod_lt _ (by decide))

theorem newline_notMem_escape (char : Char) : '\n' ∉ escape char := by
  have digits : '\n' ∉ Nat.toDigits 16 char.toNat := fun h => by
    have := isAlphanum_of_mem_toDigits h
    revert this
    decide
  by_cases newline : char = '\n'
  · rw [newline]
    decide
  · have other : '\n' ≠ char := fun h => newline h.symm
    rw [escape]
    repeat' split
    all_goals simp [digits, other]

theorem newline_notMem_encode (text : String) : '\n' ∉ (encode text).toList := by
  have inner : '\n' ∉ text.toList.flatMap escape := by
    rw [List.mem_flatMap]
    rintro ⟨char, -, h⟩
    exact newline_notMem_escape char h
  simp [encode, inner]

end WireTree.Quoted
