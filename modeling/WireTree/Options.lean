/-!
# Decoding options

What a decode may be told: how to show bytes and unknown values, and how deep messages may nest.
-/

namespace WireTree

structure Options where
  /-- Show `bytes` values as text. -/
  bytesAsString : Bool := false
  /-- Take length-delimited values that no schema describes for text. -/
  guessString : Bool := false
  /-- List every type that a value without schema could have, and do not guess. -/
  allCandidates : Bool := false
  /-- How many levels of embedded messages are entered. -/
  maxDepth : Nat := 100
deriving DecidableEq, Repr, Inhabited

end WireTree
