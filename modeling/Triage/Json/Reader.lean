import Triage.Json.Value

/-!
# Reading JSON

A reader of JSON texts.  Whole numbers of any size are read exactly; a number with a fraction or an
exponent is read as the nearest binary64 number, which its shortest decimal stands for.  Surrogate
pairs are joined.  Of members with the same key the last one wins.
-/

namespace Triage.Json

/-- Drops the blanks that JSON allows between its tokens. -/
def skipBlanks : List Char → List Char
  | c :: rest => if c = ' ' || c = '\t' || c = '\n' || c = '\r' then skipBlanks rest else c :: rest
  | [] => []

/-- Four hexadecimal digits at the front of a text. -/
def readUnit? : List Char → Option (Nat × List Char)
  | a :: b :: c :: d :: rest => do
    let n := (((← Text.hexValue? a) * 16 + (← Text.hexValue? b)) * 16 + (← Text.hexValue? c)) * 16
    return (n + (← Text.hexValue? d), rest)
  | _ => none

/-- The character of an escape, after its backslash, and the text after it. -/
def readEscape? : List Char → Option (Char × List Char)
  | '"' :: rest => some ('"', rest)
  | '\\' :: rest => some ('\\', rest)
  | '/' :: rest => some ('/', rest)
  | 'b' :: rest => some ('\x08', rest)
  | 'f' :: rest => some ('\x0c', rest)
  | 'n' :: rest => some ('\n', rest)
  | 'r' :: rest => some ('\r', rest)
  | 't' :: rest => some ('\t', rest)
  | 'u' :: rest => do
    let (high, rest) ← readUnit? rest
    if high < 0xD800 || 0xE000 <= high then some (Char.ofNat high, rest)
    else if 0xDC00 <= high then none
    else
      match rest with
      | '\\' :: 'u' :: more => do
        let (low, rest) ← readUnit? more
        if 0xDC00 <= low && low < 0xE000 then
          some (Char.ofNat (0x10000 + (high - 0xD800) * 1024 + (low - 0xDC00)), rest)
        else none
      | _ => none
  | _ => none

/-- The characters of a string after its opening quote, and the text after its closing quote. -/
def readChars? : Nat → List Char → Option (List Char × List Char)
  | 0, _ => none
  | _, [] => none
  | _, '"' :: rest => some ([], rest)
  | fuel + 1, '\\' :: rest => do
    let (c, rest) ← readEscape? rest
    let (cs, rest) ← readChars? fuel rest
    return (c :: cs, rest)
  | fuel + 1, c :: rest =>
    if c.toNat < 32 then none
    else do
      let (cs, rest) ← readChars? fuel rest
      return (c :: cs, rest)

/-- The digits at the front of a text. -/
def takeDigits (text : List Char) : List Char × List Char := text.span Text.isAsciiDigit

/-- The exponent after the letter that announces it. -/
def readExponent? (text : List Char) : Option (Int × List Char) := do
  let (negative, text) :=
    match text with
    | '-' :: rest => (true, rest)
    | '+' :: rest => (false, rest)
    | _ => (false, text)
  let (digits, rest) := takeDigits text
  let magnitude ← Text.readNat? digits
  return (if negative then -(magnitude : Int) else magnitude, rest)

/-- A number at the front of a text. -/
def readNumber? (text : List Char) : Option (Json × List Char) := do
  let (negative, text) :=
    match text with
    | '-' :: rest => (true, rest)
    | _ => (false, text)
  let (whole, rest) := takeDigits text
  let magnitude ← Text.readNat? whole
  if whole.length != 1 && whole.head? = some '0' then none
  let (fraction, rest) ←
    match rest with
    | '.' :: more =>
      let (digits, rest) := takeDigits more
      if digits.isEmpty then none else some (some digits, rest)
    | _ => some (none, rest)
  let (exponent, rest) ←
    match rest with
    | 'e' :: more => (readExponent? more).map fun r => (some r.1, r.2)
    | 'E' :: more => (readExponent? more).map fun r => (some r.1, r.2)
    | _ => some (none, rest)
  match fraction, exponent with
  | none, none => return (.int (if negative then -(magnitude : Int) else magnitude), rest)
  | _, _ =>
    let places := fraction.getD []
    let digits ← Text.readNat? (whole ++ places)
    let power : Int := exponent.getD 0 - (places.length : Int)
    return (.decimal (Binary64.canonical ⟨negative, digits, power⟩), rest)

mutual

/-- A value at the front of a text. -/
def readValue? : Nat → List Char → Option (Json × List Char)
  | 0, _ => none
  | fuel + 1, text =>
    match skipBlanks text with
    | 'n' :: 'u' :: 'l' :: 'l' :: rest => some (.null, rest)
    | 't' :: 'r' :: 'u' :: 'e' :: rest => some (.bool true, rest)
    | 'f' :: 'a' :: 'l' :: 's' :: 'e' :: rest => some (.bool false, rest)
    | '"' :: rest => (readChars? rest.length.succ rest).map fun r => (.str (String.ofList r.1), r.2)
    | '[' :: rest =>
      match skipBlanks rest with
      | ']' :: rest => some (.arr [], rest)
      | _ => (readItems? fuel rest).map fun r => (.arr r.1, r.2)
    | '{' :: rest =>
      match skipBlanks rest with
      | '}' :: rest => some (.obj [], rest)
      | _ => (readMembers? fuel rest).map fun r => (.obj r.1, r.2)
    | other => readNumber? other

/-- One item or more, and the bracket that closes the array. -/
def readItems? : Nat → List Char → Option (List Json × List Char)
  | 0, _ => none
  | fuel + 1, text => do
    let (item, rest) ← readValue? fuel text
    match skipBlanks rest with
    | ']' :: rest => return ([item], rest)
    | ',' :: rest =>
      let (items, rest) ← readItems? fuel rest
      return (item :: items, rest)
    | _ => none

/-- One member or more, and the brace that closes the object. -/
def readMembers? : Nat → List Char → Option (List (String × Json) × List Char)
  | 0, _ => none
  | fuel + 1, text =>
    match skipBlanks text with
    | '"' :: rest => do
      let (key, rest) ← readChars? rest.length.succ rest
      let key := String.ofList key
      match skipBlanks rest with
      | ':' :: rest =>
        let (value, rest) ← readValue? fuel rest
        match skipBlanks rest with
        | '}' :: rest => return ([(key, value)], rest)
        | ',' :: rest =>
          let (members, rest) ← readMembers? fuel rest
          return ((key, value) :: members, rest)
        | _ => none
      | _ => none
    | _ => none

end

/-- The value of a text that is exactly one JSON value. -/
def parse? (text : String) : Option Json :=
  let chars := text.toList
  match readValue? chars.length.succ chars with
  | some (value, rest) => if (skipBlanks rest).isEmpty then some value else none
  | none => none

end Triage.Json
