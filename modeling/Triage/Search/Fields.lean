import Triage.Search.Query
import Triage.Text.Search

/-!
# Field queries

A simpler query form: parts are separated by single spaces and quotes mean nothing.  A part with one
colon asks for a value of a field; asked again, the later part counts.  Of the other parts the last
one is the text to look for.  More than one colon in a part is an error.
-/

namespace Triage.Search

/-- What is asked of a field. -/
structure FieldValue where
  value : String
  negated : Bool
deriving DecidableEq, Repr

/-- A query by fields. -/
structure FieldQuery where
  raw : String
  fields : List (String × FieldValue)
deriving DecidableEq, Repr

/-- The query that asks for nothing. -/
def FieldQuery.empty : FieldQuery := ⟨"", []⟩

/-- What is asked of a field. -/
def FieldQuery.get? (q : FieldQuery) (key : String) : Option FieldValue :=
  (q.fields.find? fun f => f.1 = key).map Prod.snd

/-- Asks for a value of a field in place of what was asked before. -/
def FieldQuery.ask (q : FieldQuery) (key : String) (value : FieldValue) : FieldQuery :=
  { q with fields := (key, value) :: q.fields.filter fun f => f.1 != key }

/-- Adds one part of a query. -/
def FieldQuery.addPart (q : FieldQuery) (part : List Char) : Option FieldQuery :=
  match Text.splitOn ':' part with
  | [] => some q
  | [raw] => some (if raw.isEmpty then q else { q with raw := String.ofList raw })
  | [front, value] =>
    let (negated, key) := readNegation front
    some (q.ask (String.ofList key) ⟨String.ofList value, negated⟩)
  | _ => none

/-- Reads a field query; nothing when a part has more than one colon. -/
def readFields? (query : String) : Option FieldQuery :=
  (Text.splitOn ' ' query.toList).foldlM FieldQuery.addPart .empty

end Triage.Search
