import WireTree.Number.Digits

/-!
# Byte strings

Buffers are lists of bytes, so that windows are `take` and `drop`. This module holds their two number formats: hex
text, and fixed-width numbers with the least significant byte first.
-/

namespace WireTree

abbrev Bytes := List UInt8

/-! ### Hex text -/

namespace Hex

/-- Two lower-case digits for each byte. -/
def encode (bytes : Bytes) : String :=
  String.ofList (bytes.flatMap fun byte => [Nat.digitChar (byte.toNat / 16), Nat.digitChar (byte.toNat % 16)])

/-- The digits of a number, with zeros in front up to `width`. -/
def padded (width value : Nat) : String :=
  let digits := Nat.toDigits 16 value
  String.ofList (List.replicate (width - digits.length) '0' ++ digits)

/-- Reads pairs of digits; a lone digit or any other character is refused. -/
def decode? : List Char → Option Bytes
  | [] => some []
  | [_] => none
  | high :: low :: rest => do
    let value ← Digits.read? 16 [high, low]
    let bytes ← decode? rest
    return UInt8.ofNat value :: bytes

end Hex

/-! ### Little-endian numbers -/

namespace LittleEndian

/-- The number whose base-256 digits are the bytes, least significant first. -/
def decode : Bytes → Nat
  | [] => 0
  | byte :: rest => byte.toNat + 256 * decode rest

end LittleEndian

end WireTree
