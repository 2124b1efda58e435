import Triage.Digest.Blocks

/-!
# SHA-256 and HMAC-SHA-256

The secure hash of FIPS 180-4 and the keyed message code of RFC 2104 over it.
-/

namespace Triage.Digest

/-- The additive constants of the 64 steps: fraction bits of cube roots of the first primes. -/
def sha256Constants : Array UInt32 := #[
  0x428a2f98, 0x71374491, 0xb5c0fbcf, 0xe9b5dba5, 0x3956c25b, 0x59f111f1, 0x923f82a4, 0xab1c5ed5,
  0xd807aa98, 0x12835b01, 0x243185be, 0x550c7dc3, 0x72be5d74, 0x80deb1fe, 0x9bdc06a7, 0xc19bf174,
  0xe49b69c1, 0xefbe4786, 0x0fc19dc6, 0x240ca1cc, 0x2de92c6f, 0x4a7484aa, 0x5cb0a9dc, 0x76f988da,
  0x983e5152, 0xa831c66d, 0xb00327c8, 0xbf597fc7, 0xc6e00bf3, 0xd5a79147, 0x06ca6351, 0x14292967,
  0x27b70a85, 0x2e1b2138, 0x4d2c6dfc, 0x53380d13, 0x650a7354, 0x766a0abb, 0x81c2c92e, 0x92722c85,
  0xa2bfe8a1, 0xa81a664b, 0xc24b8b70, 0xc76c51a3, 0xd192e819, 0xd6990624, 0xf40e3585, 0x106aa070,
  0x19a4c116, 0x1e376c08, 0x2748774c, 0x34b0bcb5, 0x391c0cb3, 0x4ed8aa4a, 0x5b9cca4f, 0x682e6ff3,
  0x748f82ee, 0x78a5636f, 0x84c87814, 0x8cc70208, 0x90befffa, 0xa4506ceb, 0xbef9a3f7, 0xc67178f2]

/-- The chaining words before the first block: fraction bits of square roots of the first primes. -/
def sha256Initial : Array UInt32 := #[
  0x6a09e667, 0xbb67ae85, 0x3c6ef372, 0xa54ff53a, 0x510e527f, 0x9b05688c, 0x1f83d9ab, 0x5be0cd19]

/-- Extends the sixteen words of a block to the 64 words of the schedule. -/
def sha256Schedule (block : List UInt8) : Array UInt32 :=
  (List.range 48).foldl
    (fun w i =>
      let x := w.getD (i + 1) 0
      let y := w.getD (i + 14) 0
      let small := rotateRight32 x 7 ^^^ rotateRight32 x 18 ^^^ (x >>> 3)
      let large := rotateRight32 y 17 ^^^ rotateRight32 y 19 ^^^ (y >>> 10)
      w.push (w.getD i 0 + small + w.getD (i + 9) 0 + large))
    (words32BE block)

/-- One of the 64 steps on the eight working words. -/
def sha256Step (schedule : Array UInt32) (s : Array UInt32) (i : Nat) : Array UInt32 :=
  let at_ (k : Nat) : UInt32 := s.getD k 0
  let e := at_ 4
  let a := at_ 0
  let t := at_ 7 + (rotateRight32 e 6 ^^^ rotateRight32 e 11 ^^^ rotateRight32 e 25)
    + ((e &&& at_ 5) ^^^ (~~~e &&& at_ 6)) + sha256Constants.getD i 0 + schedule.getD i 0
  let u := (rotateRight32 a 2 ^^^ rotateRight32 a 13 ^^^ rotateRight32 a 22)
    + ((a &&& at_ 1) ^^^ (a &&& at_ 2) ^^^ (at_ 1 &&& at_ 2))
  #[t + u, a, at_ 1, at_ 2, at_ 3 + t, e, at_ 5, at_ 6]

/-- Absorbs one block. -/
def sha256Block (s : Array UInt32) (block : List UInt8) : Array UInt32 :=
  let t := (List.range 64).foldl (sha256Step (sha256Schedule block)) s
  (Array.range 8).map fun k => s.getD k 0 + t.getD k 0

/-- The 32 bytes of the digest. -/
def sha256 (bytes : List UInt8) : List UInt8 :=
  let s := (blocks 64 (padded (Text.bytesBE 8) bytes)).foldl sha256Block sha256Initial
  s.toList.flatMap fun w => Text.bytesBE 4 w.toNat

/-- The keyed message code: a key longer than a block is hashed first. -/
def hmacSha256 (key message : List UInt8) : List UInt8 :=
  let short := if 64 < key.length then sha256 key else key
  let block := short ++ List.replicate (64 - short.length) 0
  sha256 (block.map (· ^^^ 0x5c) ++ sha256 (block.map (· ^^^ 0x36) ++ message))

end Triage.Digest
