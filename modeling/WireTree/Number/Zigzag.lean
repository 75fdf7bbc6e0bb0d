/-!
# Zigzag numbers

Signed numbers as natural numbers, so that numbers near zero stay small: 0, -1, 1, -2, 2 are 0, 1, 2, 3, 4.
-/

namespace WireTree.Zigzag

/-- The signed number that a natural number stands for. -/
def decode (raw : Nat) : Int := if raw % 2 = 0 then raw / 2 else -(raw / 2 : Int) - 1

def decode32 (raw : UInt32) : Int32 := Int32.ofInt (decode raw.toNat)

def decode64 (raw : UInt64) : Int64 := Int64.ofInt (decode raw.toNat)

end WireTree.Zigzag
