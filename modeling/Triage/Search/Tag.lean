import Triage.Digest.Blake2b
import Triage.Text.Numeral

/-!
# Tags

A tag is a key with a value.  Its text joins the two with an equals sign; backslashes and equals
signs of the key are escaped, so the first equals sign that stands alone ends the key.  Stored
events carry a 64-bit hash of each tag text, and tag filters look for the hash of theirs.
-/

namespace Triage

/-- A key with a value. -/
structure Tag where
  key : String
  value : String
deriving DecidableEq, Repr

namespace Tag

/-- A character of a key as it stands in the tag text. -/
def escapeChar (c : Char) : List Char := if c = '\\' || c = '=' then ['\\', c] else [c]

/-- A key as it stands in the tag text. -/
def escapeKey (key : String) : String := String.ofList (key.toList.flatMap escapeChar)

/-- The text of a tag. -/
def text (t : Tag) : String := escapeKey t.key ++ "=" ++ t.value

/-- The signed value of eight bytes, most significant first. -/
def signedOfBytes (bytes : List UInt8) : Int :=
  let n := Text.natOfBE bytes
  if n < Nat.pow 2 63 then n else (n : Int) - Nat.pow 2 64

/-- The signed 64-bit hash of the tag text. -/
def hash (t : Tag) : Int := signedOfBytes (Digest.blake2b 8 (Text.utf8 t.text))

end Tag
end Triage
