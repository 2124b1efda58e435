import Triage.Text.Classes

/-!
# Strict Base64

The standard alphabet with padding.  `encode` writes the canonical form.  `decode?` accepts exactly
the texts made of whole groups of four whose last group may end in one or two padding marks.  Bits
of the last group that fall outside the coded bytes are ignored, and so are padding marks after a
last group that needs none.
-/

namespace Triage.Text.Base64

/-- The character that stands for a six-bit value. -/
def symbol (value : Nat) : Char :=
  if value < 26 then Char.ofNat (65 + value)
  else if value < 52 then Char.ofNat (71 + value)
  else if value < 62 then Char.ofNat (value - 4)
  else if value = 62 then '+' else '/'

/-- The six-bit value of a character of the alphabet. -/
def value? (c : Char) : Option Nat :=
  if 'A' <= c && c <= 'Z' then some (c.toNat - 65)
  else if 'a' <= c && c <= 'z' then some (c.toNat - 71)
  else if isAsciiDigit c then some (c.toNat + 4)
  else if c = '+' then some 62
  else if c = '/' then some 63
  else none

/-- The coded form of a byte string: four characters per three bytes, padded. -/
def encodeBytes : List UInt8 → List Char
  | [] => []
  | [a] =>
    let n := a.toNat * 16
    [symbol (n / 64), symbol (n % 64), '=', '=']
  | [a, b] =>
    let n := (a.toNat * 256 + b.toNat) * 4
    [symbol (n / 4096), symbol (n / 64 % 64), symbol (n % 64), '=']
  | a :: b :: c :: rest =>
    let n := (a.toNat * 256 + b.toNat) * 256 + c.toNat
    symbol (n / 262144) :: symbol (n / 4096 % 64) :: symbol (n / 64 % 64) :: symbol (n % 64)
      :: encodeBytes rest

/-- Three bytes from four six-bit values. -/
def triple (p q r s : Nat) : List UInt8 :=
  let n := ((p * 64 + q) * 64 + r) * 64 + s
  [UInt8.ofNat (n / 65536), UInt8.ofNat (n / 256), UInt8.ofNat n]

/-- Reads whole groups of four; padding may close or follow the last group only. -/
def decodeChars? : List Char → Option (List UInt8)
  | [] => some []
  | [a, b, '=', '='] => do return (triple (← value? a) (← value? b) 0 0).take 1
  | [a, b, c, '='] => do return (triple (← value? a) (← value? b) (← value? c) 0).take 2
  | a :: b :: c :: d :: rest => do
    let front := triple (← value? a) (← value? b) (← value? c) (← value? d)
    if rest.all (· = '=') then return front else return front ++ (← decodeChars? rest)
  | _ => none

/-- The canonical text of a byte string. -/
def encode (bytes : List UInt8) : String := String.ofList (encodeBytes bytes)

/-- The bytes of a well-formed text. -/
def decode? (text : String) : Option (List UInt8) := decodeChars? text.toList

end Triage.Text.Base64
