import Triage.Json.Value

/-!
# Writing JSON

Two styles.  The compact style has no blanks and escapes only what must be escaped, so other
characters stand for themselves.  The line style puts a blank after each comma and colon and escapes
every character outside printable ASCII, so a written value is always a single line of printable
ASCII.
-/

namespace Triage.Json

/-- The two styles of writing. -/
inductive Style where
  | compact
  | line
deriving DecidableEq

/-- The `\uXXXX` escape of a 16-bit unit. -/
def unitEscape (unit : Nat) : List Char := '\\' :: 'u' :: Text.hexDigits 4 unit

/-- The escape of any character, as one 16-bit unit or as a surrogate pair. -/
def charEscape (c : Char) : List Char :=
  if c.toNat < 0x10000 then unitEscape c.toNat
  else
    let offset := c.toNat - 0x10000
    unitEscape (0xD800 + offset / 1024) ++ unitEscape (0xDC00 + offset % 1024)

/-- A character as it is written inside a string. -/
def writeChar (style : Style) (c : Char) : List Char :=
  if c = '"' then ['\\', '"']
  else if c = '\\' then ['\\', '\\']
  else if c = '\n' then ['\\', 'n']
  else if c = '\r' then ['\\', 'r']
  else if c = '\t' then ['\\', 't']
  else if c = '\x08' then ['\\', 'b']
  else if c = '\x0c' then ['\\', 'f']
  else if c.toNat < 32 then charEscape c
  else
    match style with
    | .compact => [c]
    | .line => if c.toNat < 127 then [c] else charEscape c

/-- A string with its quotes. -/
def writeString (style : Style) (s : String) : List Char :=
  '"' :: s.toList.flatMap (writeChar style) ++ ['"']

/-- A decimal number with all its digits: positional while the point falls less than four places
before the digits and at most sixteen places after their start, scientific otherwise. -/
def writeDecimal (d : Decimal) : List Char :=
  let digits := Text.natDigits d.digits
  let point : Int := digits.length + d.exponent
  let sign := if d.negative then ['-'] else []
  let body :=
    if d.digits = 0 then ['0', '.', '0']
    else if -4 < point && point <= 16 then
      if 0 <= d.exponent then digits ++ List.replicate d.exponent.toNat '0' ++ ['.', '0']
      else if 0 < point then digits.take point.toNat ++ '.' :: digits.drop point.toNat
      else '0' :: '.' :: List.replicate (-point).toNat '0' ++ digits
    else
      let power := point - 1
      let mantissa :=
        match digits with
        | [] => []
        | [c] => [c]
        | c :: rest => c :: '.' :: rest
      mantissa ++ 'e' :: (if power < 0 then '-' else '+') :: Text.paddedDigits 2 power.natAbs
  sign ++ body

/-- What separates items of a list. -/
def comma : Style → List Char
  | .compact => [',']
  | .line => [',', ' ']

/-- What separates a key from its value. -/
def colon : Style → List Char
  | .compact => [':']
  | .line => [':', ' ']

mutual

/-- A value as it is written. -/
def write (style : Style) : Json → List Char
  | .null => "null".toList
  | .bool true => "true".toList
  | .bool false => "false".toList
  | .int n => Text.intDigits n
  | .decimal d => writeDecimal d
  | .str s => writeString style s
  | .arr items => '[' :: writeItems style items ++ [']']
  | .obj members => '{' :: writeMembers style members ++ ['}']

/-- Items with separators between them. -/
def writeItems (style : Style) : List Json → List Char
  | [] => []
  | [item] => write style item
  | item :: rest => write style item ++ comma style ++ writeItems style rest

/-- Members with separators between them. -/
def writeMembers (style : Style) : List (String × Json) → List Char
  | [] => []
  | [(key, value)] => writeString style key ++ colon style ++ write style value
  | (key, value) :: rest =>
    writeString style key ++ colon style ++ write style value ++ comma style
      ++ writeMembers style rest

end

/-- A value as text. -/
def render (style : Style) (j : Json) : String := String.ofList (j.write style)

end Triage.Json
