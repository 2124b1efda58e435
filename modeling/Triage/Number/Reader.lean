import Triage.Number.Binary64
import Triage.Text.Search

/-!
# Reading numbers

Decimal numbers in text: a sign, digits with at most one point, and an exponent; or a word for
infinity or for no number.
-/

namespace Triage.Number

/-- A sign at the front of a text, and the rest. -/
def takeSign : List Char → Bool × List Char
  | '-' :: rest => (true, rest)
  | '+' :: rest => (false, rest)
  | rest => (false, rest)

/-- Digits with at most one point among them, at least one digit: their value and a power of ten. -/
def readDigits? (text : List Char) : Option (Nat × Int) := do
  let whole := text.takeWhile Text.isAsciiDigit
  let fraction ←
    match text.drop whole.length with
    | [] => some []
    | '.' :: digits => some digits
    | _ => none
  return (← Text.readNat? (whole ++ fraction), -(fraction.length : Int))

/-- A signed run of digits. -/
def readExponent? (text : List Char) : Option Int := do
  let (negative, digits) := takeSign text
  let n ← Text.readNat? digits
  return if negative then -(n : Int) else n

/-- A decimal number. -/
def readDecimal? (text : List Char) : Option Decimal := do
  let (negative, rest) := takeSign text
  let mantissa := rest.takeWhile fun c => c != 'e' && c != 'E'
  let (digits, power) ← readDigits? mantissa
  match rest.drop mantissa.length with
  | [] => return ⟨negative, digits, power⟩
  | _ :: exponent => return ⟨negative, digits, power + (← readExponent? exponent)⟩

/-- A number or one of the words, in any case, for infinity and for no number. -/
def readFloat? (text : List Char) : Option Float :=
  let (negative, rest) := takeSign text
  let word := String.ofList (rest.map Text.foldAscii)
  if word = "inf" || word = "infinity" then
    some (Float.ofBits (Binary64.withSign negative Binary64.infinityBits))
  else if word = "nan" then some (Float.ofBits (Binary64.withSign negative 0x7FF8000000000000))
  else (readDecimal? text).map Binary64.ofDecimal

end Triage.Number
