/-!
# Decimal numbers

A decimal is a whole number of units, each a power of ten. Positional text writes it out in full, without an exponent.
-/

namespace WireTree

/-- The number `units * 10 ^ exponent`. -/
structure Decimal where
  units : Nat
  exponent : Int
deriving DecidableEq, Repr

namespace Decimal

/-- All digits of the number, with a point and at least one digit before it if the exponent is negative. -/
def positional (decimal : Decimal) : String :=
  match decimal.exponent with
  | .ofNat zeros => toString (decimal.units * Nat.pow 10 zeros)
  | .negSucc places =>
    let digits := Nat.toDigits 10 decimal.units
    let padded := List.replicate (places + 2 - digits.length) '0' ++ digits
    let whole := padded.length - (places + 1)
    String.ofList (padded.take whole ++ '.' :: padded.drop whole)

end Decimal

end WireTree
