import Triage.Text.Classes

/-!
# Looking for text in text

Containment, ASCII case folding and splitting, on lists of characters.
-/

namespace Triage.Text

/-- The lower-case form of an ASCII letter; any other character is left alone. -/
def foldAscii (c : Char) : Char :=
  if 'A' <= c && c <= 'Z' then Char.ofNat (c.toNat + 32) else c

/-- The upper-case form of an ASCII letter; any other character is left alone. -/
def raiseAscii (c : Char) : Char :=
  if 'a' <= c && c <= 'z' then Char.ofNat (c.toNat - 32) else c

/-- Lower case as far as it can matter to a comparison with ASCII text: besides the capital letters
only the Kelvin sign has an ASCII lower-case form. -/
def lowerForAscii (c : Char) : Char := if c = '\u212A' then 'k' else foldAscii c

/-- Upper case as far as it can matter to a comparison with ASCII text: besides the small letters
the dotless i, the long s, the sharp s and the Latin ligatures have ASCII upper-case forms. -/
def upperForAscii (c : Char) : List Char :=
  match c.toNat with
  | 0x131 => ['I']
  | 0x17F => ['S']
  | 0xDF => ['S', 'S']
  | 0xFB00 => ['F', 'F']
  | 0xFB01 => ['F', 'I']
  | 0xFB02 => ['F', 'L']
  | 0xFB03 => ['F', 'F', 'I']
  | 0xFB04 => ['F', 'F', 'L']
  | 0xFB05 => ['S', 'T']
  | 0xFB06 => ['S', 'T']
  | _ => [raiseAscii c]

/-- Whether `part` occurs as a contiguous piece of `whole`. -/
def contains (part : List Char) : List Char → Bool
  | [] => part.isEmpty
  | c :: rest => part.isPrefixOf (c :: rest) || contains part rest

/-- The pieces between occurrences of a separating character; there is always at least one. -/
def splitOn (separator : Char) : List Char → List (List Char)
  | [] => [[]]
  | c :: rest =>
    if c = separator then [] :: splitOn separator rest
    else
      match splitOn separator rest with
      | [] => [[c]]
      | piece :: pieces => (c :: piece) :: pieces

/-- Whether one text starts with another. -/
def startsWith (whole start : String) : Bool := start.toList.isPrefixOf whole.toList

end Triage.Text
