import Triage.Search.Tag
import Triage.Text.Classes

/-!
# Search queries

A query is a list of words.  Words are separated by blanks outside of quotes.  A word that does not
start with a quote and holds a colon after a key is a tag filter, negated by an exclamation mark in
front; every other word is text to look for.  The value of a filter and a text lose the quotes
around them.
-/

namespace Triage.Search

/-- One part of a query: text to look for, or a tag that must or must not be there. -/
inductive Token where
  | text (value : String)
  | filter (tag : Tag) (negated : Bool)
deriving DecidableEq, Repr

/-- The two quote characters. -/
def isQuote (c : Char) : Bool := c = '\'' || c = '"'

/-- Reads on inside a word, with the quote that is open there.  Gives the rest of the word and the
pieces after it; pieces are empty where blanks adjoin. -/
def scanWords : Option Char → List Char → List Char × List (List Char)
  | _, [] => ([], [])
  | some quote, c :: rest =>
    let (word, later) := scanWords (if c = quote then none else some quote) rest
    (c :: word, later)
  | none, c :: rest =>
    if isQuote c then
      let (word, later) := scanWords (some c) rest
      (c :: word, later)
    else
      let (word, later) := scanWords none rest
      if Text.isBlank c then ([], word :: later) else (c :: word, later)

/-- The words of a query. -/
def words (query : List Char) : List (List Char) :=
  let (word, later) := scanWords none query
  (word :: later).filter fun w => !w.isEmpty

/-- Drops the quotes around a text; a single quote mark that is never closed is dropped too. -/
def unquote : List Char → List Char
  | [] => []
  | [c] => if isQuote c then [] else [c]
  | c :: d :: rest =>
    let tail := d :: rest
    if !isQuote c then c :: tail
    else if tail.getLast? = some c then tail.dropLast
    else if tail.contains c then c :: tail
    else tail

/-- Splits a word at its first colon. -/
def splitAtColon : List Char → Option (List Char × List Char)
  | [] => none
  | c :: rest =>
    if c = ':' then some ([], rest)
    else (splitAtColon rest).map fun (key, value) => (c :: key, value)

/-- Takes the exclamation mark off a key. -/
def readNegation : List Char → Bool × List Char
  | '!' :: key => (true, key)
  | key => (false, key)

/-- The tag filter that a word is, if it is one. -/
def readFilter? (word : List Char) : Option Token :=
  if (word.head?.map isQuote).getD false then none
  else
    match splitAtColon word with
    | none => none
    | some (front, value) =>
      let (negated, key) := readNegation front
      if key.isEmpty then none
      else some (.filter ⟨String.ofList key, String.ofList (unquote value)⟩ negated)

/-- The token of a word; quotes with nothing between them are none. -/
def readWord? (word : List Char) : Option Token :=
  match readFilter? word with
  | some token => some token
  | none =>
    let text := unquote word
    if text.isEmpty then none else some (.text (String.ofList text))

/-- The tokens of a query, in order. -/
def tokenize (query : String) : List Token := (words query.toList).filterMap readWord?

/-- A tag that must, or when negated must not, be there. -/
structure TagFilter where
  tag : Tag
  negated : Bool
deriving DecidableEq, Repr

/-- A query with its texts joined into one phrase. -/
structure Query where
  phrase : String
  filters : List TagFilter
deriving DecidableEq, Repr

/-- The text of a token, if it is one. -/
def Token.text? : Token → Option String
  | .text value => some value
  | .filter .. => none

/-- The filter of a token, if it is one. -/
def Token.filter? : Token → Option TagFilter
  | .text _ => none
  | .filter tag negated => some ⟨tag, negated⟩

/-- Compiles a query. -/
def compile (query : String) : Query :=
  let tokens := tokenize query
  ⟨" ".intercalate (tokens.filterMap Token.text?), tokens.filterMap Token.filter?⟩

/-- The filters whose tag must be there. -/
def Query.required (q : Query) : List TagFilter := q.filters.filter fun f => !f.negated

/-- The filters whose tag must not be there. -/
def Query.forbidden (q : Query) : List TagFilter := q.filters.filter fun f => f.negated

end Triage.Search
