import WireTree.Number.Decimal

/-!
# Binary floating-point numbers in decimal

A binary number stands for the interval of reals that round to it. `Binary.shortest` looks for a decimal in that
interval on grids of units from coarse to fine and takes the first grid that has one, and on it the one nearer to the
number, or the larger of two as near. So no decimal with coarser units reads back as the number. All arithmetic is exact.
-/

namespace WireTree

/-- The positive number `significand * 2 ^ exponent`, between its neighbours. -/
structure Binary where
  significand : Nat
  exponent : Int
  /-- Whether the next smaller number is only half as far away as the next larger one. -/
  closeBelow : Bool
deriving DecidableEq, Repr

namespace Binary

/-! ### Comparing with a decimal grid

Numbers are compared as multiples of one small rational: a quarter of the distance to the next larger number counts
`quarter` of it, and a unit of the decimal grid counts `unit` of it. -/

/-- What a quarter of the last place of `binary` counts, beside a grid of `10 ^ exponent`. -/
def quarter (binary : Binary) (exponent : Int) : Nat :=
  Nat.pow 2 (binary.exponent - 2).toNat * Nat.pow 10 (-exponent).toNat

/-- What a unit of a grid of `10 ^ exponent` counts. -/
def unit (binary : Binary) (exponent : Int) : Nat :=
  Nat.pow 10 exponent.toNat * Nat.pow 2 (2 - binary.exponent).toNat

/-- The number itself. -/
def middle (binary : Binary) (exponent : Int) : Nat :=
  4 * binary.significand * binary.quarter exponent

/-- The lower end of the interval: half the way to the next smaller number. -/
def lower (binary : Binary) (exponent : Int) : Nat :=
  (4 * binary.significand - if binary.closeBelow then 1 else 2) * binary.quarter exponent

/-- The upper end of the interval: half the way to the next larger number. -/
def upper (binary : Binary) (exponent : Int) : Nat :=
  (4 * binary.significand + 2) * binary.quarter exponent

/-- Whether the decimal rounds to the number; the ends of the interval do so if the significand is even. -/
def readsBack (binary : Binary) (decimal : Decimal) : Bool :=
  let value := decimal.units * binary.unit decimal.exponent
  let lower := binary.lower decimal.exponent
  let upper := binary.upper decimal.exponent
  if binary.significand % 2 = 0 then decide (lower ≤ value) && decide (value ≤ upper)
  else decide (lower < value) && decide (value < upper)

/-- The largest decimal of the grid that is not above the number. -/
def below (binary : Binary) (exponent : Int) : Decimal :=
  ⟨binary.middle exponent / binary.unit exponent, exponent⟩

/-- The smallest decimal of the grid that is above the number. -/
def above (binary : Binary) (exponent : Int) : Decimal :=
  ⟨binary.middle exponent / binary.unit exponent + 1, exponent⟩

/-- The decimal of the grid that reads back and is nearest to the number, the larger of two as near. -/
def onGrid? (binary : Binary) (exponent : Int) : Option Decimal :=
  let below := binary.below exponent
  let above := binary.above exponent
  match binary.readsBack below, binary.readsBack above with
  | true, true =>
    if 2 * binary.middle exponent < (below.units + above.units) * binary.unit exponent then some below
    else some above
  | true, false => some below
  | false, true => some above
  | false, false => none

/-! ### Search -/

/-- Tries `count` grids, each ten times finer than the one before it, and ends with the number cut to the last one. -/
def search (binary : Binary) : (count : Nat) → (exponent : Int) → Decimal
  | 0, exponent => binary.below exponent
  | count + 1, exponent =>
    match binary.onGrid? exponent with
    | some decimal => decimal
    | none => binary.search count (exponent - 1)

/-- An exponent of ten above the number. -/
def coarsest (binary : Binary) : Nat := (binary.significand.log2 + 1 + binary.exponent).toNat

/-- The finest grid needed: it holds the number itself. -/
def finest (binary : Binary) : Nat := (-binary.exponent).toNat

/-- The decimal with the fewest digits that reads back as the number, and of those the nearest to it. -/
def shortest (binary : Binary) : Decimal :=
  binary.search (binary.coarsest + binary.finest) binary.coarsest

end Binary

/-! ### Bit patterns -/

/-- How a bit pattern splits: a sign bit, then the exponent, then the fraction. -/
structure FloatFormat where
  exponentBits : Nat
  fractionBits : Nat
deriving DecidableEq, Repr

namespace FloatFormat

def double : FloatFormat := ⟨11, 52⟩

def single : FloatFormat := ⟨8, 23⟩

def fraction (format : FloatFormat) (bits : Nat) : Nat := bits % Nat.pow 2 format.fractionBits

def exponent (format : FloatFormat) (bits : Nat) : Nat :=
  bits / Nat.pow 2 format.fractionBits % Nat.pow 2 format.exponentBits

def isNegative (format : FloatFormat) (bits : Nat) : Bool :=
  bits.testBit (format.fractionBits + format.exponentBits)

/-- The exponent of what is no finite number. -/
def special (format : FloatFormat) : Nat := Nat.pow 2 format.exponentBits - 1

def isNaN (format : FloatFormat) (bits : Nat) : Bool :=
  format.exponent bits == format.special && format.fraction bits != 0

/-- The power of two that the last bit of the smallest numbers counts. -/
def lowest (format : FloatFormat) : Int :=
  2 - Int.ofNat (Nat.pow 2 (format.exponentBits - 1)) - Int.ofNat format.fractionBits

/-- The number of a finite pattern other than zero, without its sign. -/
def toBinary (format : FloatFormat) (bits : Nat) : Binary :=
  match format.exponent bits with
  | 0 => ⟨format.fraction bits, format.lowest, false⟩
  | above + 1 =>
    ⟨Nat.pow 2 format.fractionBits + format.fraction bits, format.lowest + Int.ofNat above,
      format.fraction bits == 0 && above != 0⟩

/-- The text of the pattern without its sign. -/
def magnitudeText (format : FloatFormat) (bits : Nat) : String :=
  if format.exponent bits = format.special then "inf"
  else if format.exponent bits = 0 ∧ format.fraction bits = 0 then "0"
  else (format.toBinary bits).shortest.positional

/-- The shortest text that reads back as the same pattern, with every digit written out. -/
def text (format : FloatFormat) (bits : Nat) : String :=
  if format.isNaN bits then "NaN"
  else if format.isNegative bits then "-" ++ format.magnitudeText bits
  else format.magnitudeText bits

end FloatFormat

end WireTree
