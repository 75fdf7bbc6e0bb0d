/-!
# Digits

Numbers in a base up to thirty-six, most significant digit first, with letters of either case above nine.
-/

namespace WireTree.Digits

/-- The value of a digit of the base. -/
def value? (base : Nat) (char : Char) : Option Nat :=
  let value :=
    if char.isDigit then char.toNat - '0'.toNat
    else if char.isLower then char.toNat - 'a'.toNat + 10
    else if char.isUpper then char.toNat - 'A'.toNat + 10
    else base
  if value < base then some value else none

/-- The number of the digits behind a number read already. -/
def readAfter? (base value : Nat) : List Char → Option Nat
  | [] => some value
  | char :: rest => do readAfter? base (base * value + (← value? base char)) rest

/-- The number that one digit or more write. -/
def read? (base : Nat) : List Char → Option Nat
  | [] => none
  | chars => readAfter? base 0 chars

end WireTree.Digits
