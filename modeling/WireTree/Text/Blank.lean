/-!
# White space

The twenty-five characters with the property `White_Space`.
-/

namespace WireTree.Blank

/-- The numbers of the characters, as ascending ranges with both ends included. -/
def ranges : List (Nat × Nat) :=
  [(0x9, 0xD), (0x20, 0x20), (0x85, 0x85), (0xA0, 0xA0), (0x1680, 0x1680), (0x2000, 0x200A), (0x2028, 0x2029),
    (0x202F, 0x202F), (0x205F, 0x205F), (0x3000, 0x3000)]

def isBlank (char : Char) : Bool :=
  ranges.any fun (first, last) => decide (first ≤ char.toNat) && decide (char.toNat ≤ last)

end WireTree.Blank
