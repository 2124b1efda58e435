import Triage.Cipher.Aes256

/-!
# Galois/counter mode

Authenticated encryption of NIST SP 800-38D over AES-256, with 12-byte nonces, 16-byte tags and no
associated data.  `Galois.decrypt?` gives the text back only when the tag is the one that belongs to
the sealed bytes.
-/

namespace Triage.Cipher.Galois

/-- Bytes in a tag. -/
def tagSize : Nat := 16

/-- The product of two elements of the field of 2¹²⁸ elements; the first bit of a block is the
coefficient of 1. -/
def multiply (x y : Nat) : Nat :=
  ((List.range 128).foldl
    (fun (z, v) i =>
      let z := if y.testBit (127 - i) then z ^^^ v else z
      let v := if v.testBit 0 then (v >>> 1) ^^^ (0xe1 <<< 120) else v >>> 1
      (z, v))
    (0, x)).1

/-- The hash of whole blocks under a hash key. -/
def hashBlocks (hashKey : Nat) (blocks : List (List UInt8)) : Nat :=
  blocks.foldl (fun acc block => multiply (acc ^^^ Text.natOfBE block) hashKey) 0

/-- A byte string cut into blocks, the last one filled up with zeros. -/
def filledBlocks (bytes : List UInt8) : List (List UInt8) :=
  (Digest.blocks 16 bytes).map fun b => b ++ List.replicate (16 - b.length) 0

/-- The counter block of a nonce. -/
def counterBlock (nonce : List UInt8) (counter : Nat) : List UInt8 :=
  nonce ++ Text.bytesBE 4 counter

/-- Combines each block of a byte string with the cipher of its counter. -/
def counterMode (keys : List (List UInt8)) (nonce : List UInt8) :
    Nat → List (List UInt8) → List UInt8
  | _, [] => []
  | counter, block :: rest =>
    xorBytes block (encipher keys (counterBlock nonce counter))
      ++ counterMode keys nonce (counter + 1) rest

/-- The text combined with the key stream; doing it twice gives the text back. -/
def stream (keys : List (List UInt8)) (nonce text : List UInt8) : List UInt8 :=
  counterMode keys nonce 2 (Digest.blocks 16 text)

/-- The tag of sealed bytes. -/
def tag (keys : List (List UInt8)) (nonce sealed : List UInt8) : List UInt8 :=
  let hashKey := Text.natOfBE (encipher keys (List.replicate 16 0))
  let lengths := Text.bytesBE 16 (sealed.length * 8)
  let digest := hashBlocks hashKey (filledBlocks sealed ++ [lengths])
  xorBytes (Text.bytesBE 16 digest) (encipher keys (counterBlock nonce 1))

/-- The sealed bytes of a text, with the tag at their end. -/
def encrypt (key nonce text : List UInt8) : List UInt8 :=
  let keys := roundKeys key
  let sealed := stream keys nonce text
  sealed ++ tag keys nonce sealed

/-- The text of sealed bytes whose tag is right. -/
def decrypt? (key nonce sealed : List UInt8) : Option (List UInt8) :=
  if sealed.length < tagSize then none
  else
    let keys := roundKeys key
    let body := sealed.take (sealed.length - tagSize)
    let mark := sealed.drop (sealed.length - tagSize)
    if tag keys nonce body = mark then some (stream keys nonce body) else none

end Triage.Cipher.Galois
