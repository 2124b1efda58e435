import Triage.Digest.Blocks

/-!
# BLAKE2b

The hash of RFC 7693 without a key, for digests of up to 64 bytes.
-/

namespace Triage.Digest

/-- The initial words: fraction bits of square roots of the first primes. -/
def blake2bInitial : Array UInt64 := #[
  0x6a09e667f3bcc908, 0xbb67ae8584caa73b, 0x3c6ef372fe94f82b, 0xa54ff53a5f1d36f1,
  0x510e527fade682d1, 0x9b05688c2b3e6c1f, 0x1f83d9abfb41bd6b, 0x5be0cd19137e2179]

/-- The order in which each round takes the words of a block. -/
def blake2bOrders : Array (Array Nat) := #[
  #[0, 1, 2, 3, 4, 5, 6, 7, 8, 9, 10, 11, 12, 13, 14, 15],
  #[14, 10, 4, 8, 9, 15, 13, 6, 1, 12, 0, 2, 11, 7, 5, 3],
  #[11, 8, 12, 0, 5, 2, 15, 13, 10, 14, 3, 6, 7, 1, 9, 4],
  #[7, 9, 3, 1, 13, 12, 11, 14, 2, 6, 5, 10, 4, 0, 15, 8],
  #[9, 0, 5, 7, 2, 4, 10, 15, 14, 1, 11, 12, 6, 8, 3, 13],
  #[2, 12, 6, 10, 0, 11, 8, 3, 4, 13, 7, 5, 15, 14, 1, 9],
  #[12, 5, 1, 15, 14, 13, 4, 10, 0, 7, 6, 3, 9, 2, 8, 11],
  #[13, 11, 7, 14, 12, 1, 3, 9, 5, 0, 15, 4, 8, 6, 2, 10],
  #[6, 15, 14, 9, 11, 3, 0, 8, 12, 2, 13, 7, 1, 4, 10, 5],
  #[10, 2, 8, 4, 7, 6, 1, 5, 15, 11, 9, 14, 3, 12, 13, 0]]

/-- The places of the working words that the eight mixings of a round touch. -/
def blake2bPlaces : List (Nat × Nat × Nat × Nat) :=
  [(0, 4, 8, 12), (1, 5, 9, 13), (2, 6, 10, 14), (3, 7, 11, 15),
   (0, 5, 10, 15), (1, 6, 11, 12), (2, 7, 8, 13), (3, 4, 9, 14)]

/-- Mixes two words of the block into four working words. -/
def blake2bMix (v : Array UInt64) (places : Nat × Nat × Nat × Nat) (x y : UInt64) : Array UInt64 :=
  let (ia, ib, ic, id) := places
  let a := v.getD ia 0 + v.getD ib 0 + x
  let d := rotateRight64 (v.getD id 0 ^^^ a) 32
  let c := v.getD ic 0 + d
  let b := rotateRight64 (v.getD ib 0 ^^^ c) 24
  let a := a + b + y
  let d := rotateRight64 (d ^^^ a) 16
  let c := c + d
  let b := rotateRight64 (b ^^^ c) 63
  (((v.set! ia a).set! ib b).set! ic c).set! id d

/-- One round. -/
def blake2bRound (words : Array UInt64) (v : Array UInt64) (round : Nat) : Array UInt64 :=
  let order := blake2bOrders.getD (round % 10) #[]
  let word (k : Nat) : UInt64 := words.getD (order.getD k 0) 0
  blake2bPlaces.zipIdx.foldl
    (fun v (places, k) => blake2bMix v places (word (2 * k)) (word (2 * k + 1))) v

/-- Absorbs one block of 128 bytes; `counter` counts the bytes up to its end. -/
def blake2bBlock (h : Array UInt64) (block : List UInt8) (counter : Nat) (last : Bool) :
    Array UInt64 :=
  let filled := block ++ List.replicate (128 - block.length) 0
  let start := h ++ blake2bInitial
  let start := start.set! 12 (start.getD 12 0 ^^^ UInt64.ofNat counter)
  let start := if last then start.set! 14 (~~~start.getD 14 0) else start
  let v := (List.range 12).foldl (blake2bRound (words64LE filled)) start
  (Array.range 8).map fun k => h.getD k 0 ^^^ v.getD k 0 ^^^ v.getD (k + 8) 0

/-- Absorbs all blocks; only the last one is marked. -/
def blake2bBlocks (total : Nat) : Nat → Array UInt64 → List (List UInt8) → Array UInt64
  | _, h, [] => h
  | _, h, [block] => blake2bBlock h block total true
  | n, h, block :: rest =>
    blake2bBlocks total (n + 1) (blake2bBlock h block ((n + 1) * 128) false) rest

/-- The digest of a given size in bytes. -/
def blake2b (size : Nat) (bytes : List UInt8) : List UInt8 :=
  let h := blake2bInitial.set! 0 (blake2bInitial.getD 0 0 ^^^ 0x01010000 ^^^ UInt64.ofNat size)
  let cut := if bytes.isEmpty then [[]] else blocks 128 bytes
  ((blake2bBlocks bytes.length 0 h cut).toList.flatMap fun w => Text.bytesLE 8 w.toNat).take size

end Triage.Digest
