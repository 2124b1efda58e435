import Triage.Text.Classes

/-!
# Numerals

Decimal and hexadecimal numerals: writing whole numbers with no leading zero, writing fixed-width
hexadecimal, and reading back.  `readNat?` inverts `natDigits`, so a written number is never
ambiguous.
-/

namespace Triage.Text

/-- The digit of a value below sixteen, in lower case. -/
def digitChar (value : Nat) : Char :=
  if value < 10 then Char.ofNat (48 + value) else Char.ofNat (87 + value)

/-- The value of an ASCII decimal digit. -/
def digitValue? (c : Char) : Option Nat :=
  if isAsciiDigit c then some (c.toNat - 48) else none

/-- The value of an ASCII hexadecimal digit of either case. -/
def hexValue? (c : Char) : Option Nat :=
  if isAsciiDigit c then some (c.toNat - 48)
  else if 'a' <= c && c <= 'f' then some (c.toNat - 87)
  else if 'A' <= c && c <= 'F' then some (c.toNat - 55)
  else none

/-- The decimal digits of a number, most significant first, without leading zeros. -/
def natDigits (n : Nat) : List Char :=
  if n < 10 then [digitChar n] else natDigits (n / 10) ++ [digitChar (n % 10)]

/-- The decimal numeral of a whole number; a minus sign precedes a negative one. -/
def intDigits (n : Int) : List Char :=
  if n < 0 then '-' :: natDigits n.natAbs else natDigits n.natAbs

/-- The decimal numeral of a natural number as text. -/
def natText (n : Nat) : String := String.ofList (natDigits n)

/-- The decimal numeral of a whole number as text. -/
def intText (n : Int) : String := String.ofList (intDigits n)

/-- A numeral padded on the left with zeros to at least `width` digits. -/
def paddedDigits (width n : Nat) : List Char :=
  List.replicate (width - (natDigits n).length) '0' ++ natDigits n

/-- The value of a nonempty run of ASCII digits, and of nothing else. -/
def readNat? (text : List Char) : Option Nat :=
  match text with
  | [] => none
  | _ => text.foldl (fun acc c => do return (← acc) * 10 + (← digitValue? c)) (some 0)

/-- Exactly `width` hexadecimal digits of a number, most significant first. -/
def hexDigits : Nat → Nat → List Char
  | 0, _ => []
  | width + 1, n => hexDigits width (n / 16) ++ [digitChar (n % 16)]

/-- Two lower-case hexadecimal digits per byte. -/
def hexOfBytes (bytes : List UInt8) : String :=
  String.ofList (bytes.flatMap fun b => hexDigits 2 b.toNat)

/-- Bytes of a number, most significant first, in exactly `width` places. -/
def bytesBE : Nat → Nat → List UInt8
  | 0, _ => []
  | width + 1, n => bytesBE width (n / 256) ++ [UInt8.ofNat n]

/-- Bytes of a number, least significant first, in exactly `width` places. -/
def bytesLE : Nat → Nat → List UInt8
  | 0, _ => []
  | width + 1, n => UInt8.ofNat n :: bytesLE width (n / 256)

/-- The number whose bytes are given, most significant first. -/
def natOfBE (bytes : List UInt8) : Nat := bytes.foldl (fun acc b => acc * 256 + b.toNat) 0

/-- The number whose bytes are given, least significant first. -/
def natOfLE (bytes : List UInt8) : Nat := bytes.foldr (fun b acc => acc * 256 + b.toNat) 0

/-- The UTF-8 bytes of a text. -/
def utf8 (text : String) : List UInt8 := text.toUTF8.toList

end Triage.Text
