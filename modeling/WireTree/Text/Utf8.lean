import WireTree.Bytes

/-!
# Text in UTF-8

Bytes are read as text without ever failing. Well-formed characters are kept. Where no character is well formed, the
longest run of bytes that could still have begun one, or else a single byte, becomes one replacement character.
-/

namespace WireTree.Utf8

/-- Stands for bytes that are no character. -/
def replacement : Char := '\uFFFD'

/-- The character whose encoding the bytes begin with. -/
def first? (bytes : Bytes) : Option Char := (bytes.take 4).toByteArray.utf8DecodeChar? 0

/-- The ranges in which the bytes after a leading byte lie, in a well-formed character of more than one byte. -/
def continuations (lead : UInt8) : List (UInt8 × UInt8) :=
  if lead < 0xC2 then []
  else if lead ≤ 0xDF then [(0x80, 0xBF)]
  else if lead = 0xE0 then [(0xA0, 0xBF), (0x80, 0xBF)]
  else if lead = 0xED then [(0x80, 0x9F), (0x80, 0xBF)]
  else if lead ≤ 0xEF then [(0x80, 0xBF), (0x80, 0xBF)]
  else if lead = 0xF0 then [(0x90, 0xBF), (0x80, 0xBF), (0x80, 0xBF)]
  else if lead ≤ 0xF3 then [(0x80, 0xBF), (0x80, 0xBF), (0x80, 0xBF)]
  else if lead = 0xF4 then [(0x80, 0x8F), (0x80, 0xBF), (0x80, 0xBF)]
  else []

/-- How many bytes at the front lie in the ranges, one range for each byte. -/
def countWithin : List (UInt8 × UInt8) → Bytes → Nat
  | (low, high) :: ranges, byte :: rest =>
    if low ≤ byte ∧ byte ≤ high then countWithin ranges rest + 1 else 0
  | _, _ => 0

/-- The characters of the bytes, with replacements for what is not well formed. -/
def decodeLossy : Bytes → List Char
  | [] => []
  | byte :: rest =>
    match first? (byte :: rest) with
    | some char => char :: decodeLossy (rest.drop (char.utf8Size - 1))
    | none => replacement :: decodeLossy (rest.drop (countWithin (continuations byte) rest))
termination_by bytes => bytes.length
decreasing_by all_goals simp only [List.length_drop, List.length_cons]; omega

/-- The text of the bytes, with replacements for what is not well formed. -/
def lossyText (bytes : Bytes) : String := String.ofList (decodeLossy bytes)

/-- The text of the bytes, if all of them are well formed. -/
def text? (bytes : Bytes) : Option String := String.fromUTF8? bytes.toByteArray

/-! ### Well-formed text -/

def encode (chars : List Char) : Bytes := chars.flatMap String.utf8EncodeChar

theorem first?_encode_append (char : Char) (rest : Bytes) :
    first? (String.utf8EncodeChar char ++ rest) = some char := by
  have short : (String.utf8EncodeChar char).length ≤ 4 := by
    rw [String.length_utf8EncodeChar]
    exact char.utf8Size_le_four
  rw [first?, List.take_append, List.take_of_length_le short, List.toByteArray_append]
  exact ByteArray.utf8DecodeChar?_utf8EncodeChar_append

theorem decodeLossy_encode_append (char : Char) (rest : Bytes) :
    decodeLossy (String.utf8EncodeChar char ++ rest) = char :: decodeLossy rest := by
  have found := first?_encode_append char rest
  have positive := char.utf8Size_pos
  have size := String.length_utf8EncodeChar char
  match shape : String.utf8EncodeChar char with
  | [] =>
    rw [shape] at size
    simp at size
    omega
  | byte :: tail =>
    rw [shape] at found size
    rw [List.cons_append, decodeLossy, ← List.cons_append, found]
    have cut : char.utf8Size - 1 = tail.length := by simp at size; omega
    simp [cut]

theorem decodeLossy_encode (chars : List Char) : decodeLossy (encode chars) = chars := by
  induction chars with
  | nil => simp [encode, decodeLossy]
  | cons char rest ih =>
    rw [encode, List.flatMap_cons, decodeLossy_encode_append]
    exact congrArg _ ih

end WireTree.Utf8
