/-!
# Reading UTF-8

Two readers of byte strings.  `decodeUtf8?` accepts well-formed UTF-8 only.  `decodeUtf8Lossy`
always answers: every maximal ill-formed piece, as the Unicode standard delimits it, becomes one
replacement character.
-/

namespace Triage.Text

/-- The code point of a well-formed sequence at the front of the bytes, and how many bytes the piece
there spans.  A piece without a code point is a maximal ill-formed one: the longest run that is the
start of some well-formed sequence, or a single byte that starts none. -/
def utf8Piece (first : UInt8) (rest : List UInt8) : Option Nat × Nat :=
  let lead := first.toNat
  let tail (low high : Nat) (b : UInt8) : Bool := low <= b.toNat && b.toNat <= high
  let bits (b : UInt8) : Nat := b.toNat % 64
  if lead < 0x80 then (some lead, 1)
  else if lead < 0xC2 then (none, 1)
  else if lead < 0xE0 then
    match rest with
    | b :: _ => if tail 0x80 0xBF b then (some ((lead - 0xC0) * 64 + bits b), 2) else (none, 1)
    | [] => (none, 1)
  else if lead < 0xF0 then
    let low := if lead = 0xE0 then 0xA0 else 0x80
    let high := if lead = 0xED then 0x9F else 0xBF
    match rest with
    | b :: c :: _ =>
      if !tail low high b then (none, 1)
      else if !tail 0x80 0xBF c then (none, 2)
      else (some (((lead - 0xE0) * 64 + bits b) * 64 + bits c), 3)
    | [b] => if tail low high b then (none, 2) else (none, 1)
    | [] => (none, 1)
  else if lead < 0xF5 then
    let low := if lead = 0xF0 then 0x90 else 0x80
    let high := if lead = 0xF4 then 0x8F else 0xBF
    match rest with
    | b :: c :: d :: _ =>
      if !tail low high b then (none, 1)
      else if !tail 0x80 0xBF c then (none, 2)
      else if !tail 0x80 0xBF d then (none, 3)
      else (some ((((lead - 0xF0) * 64 + bits b) * 64 + bits c) * 64 + bits d), 4)
    | [b, c] =>
      if !tail low high b then (none, 1) else if tail 0x80 0xBF c then (none, 3) else (none, 2)
    | [b] => if tail low high b then (none, 2) else (none, 1)
    | [] => (none, 1)
  else (none, 1)

/-- The pieces of a byte string in order: a character, or nothing for an ill-formed piece. -/
def utf8Pieces : Nat → List UInt8 → List (Option Char)
  | _, [] => []
  | 0, _ => []
  | fuel + 1, b :: rest =>
    let (code, width) := utf8Piece b rest
    code.map Char.ofNat :: utf8Pieces fuel (rest.drop (width - 1))

/-- The text of a well-formed byte string. -/
def decodeUtf8? (bytes : List UInt8) : Option String :=
  ((utf8Pieces bytes.length bytes).mapM id).map String.ofList

/-- The text of any byte string, with U+FFFD for each ill-formed piece. -/
def decodeUtf8Lossy (bytes : List UInt8) : String :=
  String.ofList ((utf8Pieces bytes.length bytes).map fun piece => piece.getD '\uFFFD')

end Triage.Text
