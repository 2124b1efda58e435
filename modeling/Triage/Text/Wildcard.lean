import Triage.Text.Search

/-!
# Patterns with wildcards

The event log looks for a text with a pattern: any run of characters, the text, any run of
characters.  Every character of the text stands for itself, but both the pattern and the text that it
is held against are read up to their first NUL character.  A text with a NUL character therefore cuts
the second run off its pattern, which then asks for an end and not for a piece.
-/

namespace Triage.Text

/-- A part of a pattern: any run of characters, or a character that stands for itself. -/
inductive Wildcard where
  | anyRun
  | char (c : Char)
deriving DecidableEq, Repr

/-- A character as it is compared with a pattern: an ASCII letter as a small one, and the
noncharacters U+FFFE and U+FFFF as the replacement character U+FFFD. -/
def patternKey (c : Char) : Char :=
  if c = '\ufffe' || c = '\uffff' then '\ufffd' else foldAscii c

/-- A text up to its first NUL character. -/
def untilNul (text : String) : String :=
  String.ofList (text.toList.takeWhile fun c => c != '\x00')

/-- Whether a list has a tail with a property; it is a tail of itself. -/
def anyTail (p : List α → Bool) : List α → Bool
  | [] => p []
  | c :: rest => p (c :: rest) || anyTail p rest

namespace Wildcard

/-- Whether a pattern takes up a text from its beginning to its end. -/
def fits : List Wildcard → List Char → Bool
  | [], text => text.isEmpty
  | .anyRun :: rest, text => anyTail (fits rest) text
  | .char _ :: _, [] => false
  | .char c :: rest, d :: text => patternKey c == patternKey d && fits rest text

/-- The pattern for a text that may stand anywhere. -/
def around (text : String) : List Wildcard :=
  .anyRun :: (text.toList.map .char ++ [.anyRun])

/-- What is read of a pattern. -/
def untilNul (pattern : List Wildcard) : List Wildcard :=
  pattern.takeWhile fun part => part != .char '\x00'

end Wildcard

/-- Whether the event log finds a text in another one. -/
def isFoundIn (text whole : String) : Bool :=
  Wildcard.fits (Wildcard.untilNul (Wildcard.around text)) (untilNul whole).toList

end Triage.Text
