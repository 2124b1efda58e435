import Triage.Text.Numeral

/-!
# Message blocks

What the digests share: cutting a byte string into blocks of fixed length, and reading blocks as
machine words.
-/

namespace Triage.Digest

/-- Cuts a list into pieces of a given length; the last piece may be shorter. -/
def pieces (size : Nat) : Nat → List α → List (List α)
  | 0, _ => []
  | _, [] => []
  | fuel + 1, xs => xs.take size :: pieces size fuel (xs.drop size)

/-- The blocks of a byte string. -/
def blocks (size : Nat) (bytes : List UInt8) : List (List UInt8) :=
  pieces size bytes.length bytes

/-- The 32-bit words of a block, least significant byte first. -/
def words32LE (block : List UInt8) : Array UInt32 :=
  ((blocks 4 block).map fun w => UInt32.ofNat (Text.natOfLE w)).toArray

/-- The 32-bit words of a block, most significant byte first. -/
def words32BE (block : List UInt8) : Array UInt32 :=
  ((blocks 4 block).map fun w => UInt32.ofNat (Text.natOfBE w)).toArray

/-- The 64-bit words of a block, least significant byte first. -/
def words64LE (block : List UInt8) : Array UInt64 :=
  ((blocks 8 block).map fun w => UInt64.ofNat (Text.natOfLE w)).toArray

/-- Rotation of a 32-bit word to the left, by less than the width of the word. -/
def rotateLeft32 (x n : UInt32) : UInt32 := (x <<< n) ||| (x >>> (32 - n))

/-- Rotation of a 32-bit word to the right, by less than the width of the word. -/
def rotateRight32 (x n : UInt32) : UInt32 := (x >>> n) ||| (x <<< (32 - n))

/-- Rotation of a 64-bit word to the right, by less than the width of the word. -/
def rotateRight64 (x n : UInt64) : UInt64 := (x >>> n) ||| (x <<< (64 - n))

/-- A message with the mark bit, zeros up to eight bytes short of a 64-byte block, and its length in
bits. -/
def padded (lengthBytes : Nat → List UInt8) (bytes : List UInt8) : List UInt8 :=
  let zeros := (119 - bytes.length % 64) % 64
  bytes ++ 0x80 :: List.replicate zeros 0 ++ lengthBytes (bytes.length * 8)

end Triage.Digest
