import Triage.Json.Value
import Triage.Text.Search
import Triage.Time.Document

/-!
# Checked documents

Reading typed values out of JSON documents.  A reader either gives a value or names every fault of
the document at once: where each one is and which rule it breaks.  `Checked` combines independent
readings so that all their faults are kept.
-/

namespace Triage

/-- A place in a document and the rule that is broken there. -/
structure Fault where
  path : List String
  rule : String
deriving DecidableEq, Repr

/-- A value, or the faults that stand in its way. -/
inductive Checked (α : Type) where
  | good (value : α)
  | bad (faults : List Fault)

namespace Checked

instance : Functor Checked where
  map f
    | .good a => .good (f a)
    | .bad faults => .bad faults

instance : Applicative Checked where
  pure := .good
  seq f x :=
    match f, x () with
    | .good f, .good a => .good (f a)
    | .good _, .bad faults => .bad faults
    | .bad faults, .good _ => .bad faults
    | .bad faults, .bad more => .bad (faults ++ more)

/-- A single fault at the place itself. -/
def fault (rule : String) : Checked α := .bad [⟨[], rule⟩]

/-- The same reading, one step further down. -/
def under (step : String) : Checked α → Checked α
  | .good a => .good a
  | .bad faults => .bad (faults.map fun f => { f with path := step :: f.path })

/-- The result of a reading as an error or a value. -/
def toExcept : Checked α → Except (List Fault) α
  | .good a => .ok a
  | .bad faults => .error faults

/-- All readings of a list, in order. -/
def all : List (Checked α) → Checked (List α)
  | [] => .good []
  | x :: rest => List.cons <$> x <*> all rest

/-- The readings of a list up to the first bad one, whose faults are then the only ones. -/
def each : List (Checked α) → Checked (List α)
  | [] => .good []
  | .bad faults :: _ => .bad faults
  | .good a :: rest => (a :: ·) <$> each rest

end Checked

/-- The place of a fault, its steps joined by points. -/
def Fault.place (f : Fault) : String := ".".intercalate f.path

/-- Places and rules of faults, in order and without repetition. -/
def Fault.summary (faults : List Fault) : List (String × String) :=
  ((faults.map fun f => (f.place, f.rule)).eraseDups).mergeSort fun a b =>
    decide (a.1 < b.1) || (a.1 == b.1 && decide (a.2 ≤ b.2))

namespace Schema

/-- A reader of one value. -/
abbrev Reader (α : Type) := Json → Checked α

/-- A required member of an object. -/
def required (key : String) (reader : Reader α) (j : Json) : Checked α :=
  match j.get? key with
  | some value => (reader value).under key
  | none => .bad [⟨[key], "missing"⟩]

/-- A member of an object that may be absent. -/
def withDefault (key : String) (default : α) (reader : Reader α) (j : Json) : Checked α :=
  match j.get? key with
  | some value => (reader value).under key
  | none => .good default

/-- A document that must be an object. -/
def record (reader : Reader α) : Reader α
  | .obj members => reader (.obj members)
  | _ => .fault "model_type"

/-- Text. -/
def text : Reader String
  | .str s => .good s
  | _ => .fault "string_type"

/-- Text or null. -/
def nullableText : Reader (Option String)
  | .null => .good none
  | j => some <$> text j

/-- Drops the white space around a numeral. -/
def trimmed (s : String) : List Char := Text.stripOf Text.isWhiteSpace s.toList

/-- Digits with single underscores between them. -/
def groupedDigits? (digits : List Char) : Option Nat := do
  let groups := Text.splitOn '_' digits
  if groups.any List.isEmpty then none else Text.readNat? groups.flatten

/-- The sign at the front of a numeral, and the rest. -/
def signed (digits : List Char) : Bool × List Char :=
  match digits with
  | '-' :: rest => (true, rest)
  | '+' :: rest => (false, rest)
  | _ => (false, digits)

/-- The whole number that a numeral names; its fraction, if it has one, must be zero. -/
def wholeOfText? (s : String) : Option Int := do
  let (negative, digits) := signed (trimmed s)
  let whole := digits.takeWhile (· != '.')
  if !((digits.drop whole.length).drop 1).all (· = '0') then none
  let n ← groupedDigits? whole
  return if negative then -(n : Int) else n

/-- A whole number: a number without a fraction, a truth value, or a numeral. -/
def whole : Reader Int
  | .int n => .good n
  | .bool b => .good (if b then 1 else 0)
  | .decimal d =>
    if (Binary64.ofDecimal d).isInf then .fault "finite_number"
    else
      let whole := Binary64.wholePart d
      if (Binary64.canonical d).isWhole && whole.natAbs < Nat.pow 2 63 then .good whole
      else .fault "int_from_float"
  | .str s =>
    match wholeOfText? s with
    | some n => .good n
    | none => .fault "int_parsing"
  | _ => .fault "int_type"

/-- The words that stand for truth values. -/
def truthOfText? (s : String) : Option Bool :=
  let word := String.ofList (s.toList.map Text.lowerForAscii)
  if ["0", "off", "f", "false", "n", "no"].contains word then some false
  else if ["1", "on", "t", "true", "y", "yes"].contains word then some true
  else none

/-- A truth value: true or false, zero or one, or a word for one. -/
def truth : Reader Bool
  | .bool b => .good b
  | .int 0 => .good false
  | .int 1 => .good true
  | .int _ => .fault "bool_parsing"
  | .decimal d =>
    if d.digits = 0 then .good false
    else if d = ⟨false, 1, 0⟩ then .good true
    else .fault "bool_parsing"
  | .str s =>
    match truthOfText? s with
    | some b => .good b
    | none => .fault "bool_parsing"
  | _ => .fault "bool_type"

/-- A list. -/
def list (reader : Reader α) : Reader (List α)
  | .arr items =>
    .all (items.zipIdx.map fun (item, i) => (reader item).under (Text.natText i))
  | _ => .fault "list_type"

/-- The members of an object without those that a later member of the same key replaces. -/
def effectiveMembers : List (String × Json) → List (String × Json)
  | [] => []
  | (key, value) :: rest =>
    if rest.any fun m => m.1 = key then effectiveMembers rest
    else (key, value) :: effectiveMembers rest

/-- An object with any keys. -/
def dictionary (reader : Reader α) : Reader (List (String × α))
  | .obj members =>
    .all ((effectiveMembers members).map fun (key, value) =>
      Prod.mk key <$> (reader value).under key)
  | _ => .fault "dict_type"

/-- An object kept as it is. -/
def anyObject : Reader Json
  | .obj members => .good (.obj members)
  | _ => .fault "dict_type"

/-- A pair of texts, written as a list of two. -/
def textPair : Reader (String × String)
  | .arr [a, b] => Prod.mk <$> (text a).under "0" <*> (text b).under "1"
  | .arr [a] => Prod.mk <$> (text a).under "0" <*> .bad [⟨["1"], "missing"⟩]
  | .arr [] => .bad [⟨["0"], "missing"⟩, ⟨["1"], "missing"⟩]
  | .arr _ => .fault "too_long"
  | _ => .fault "tuple_type"

/-- A timestamp. -/
def timestamp : Reader Instant
  | .str s =>
    match Time.readDocument? s with
    | some t => .good t
    | none => .fault "datetime_from_date_parsing"
  | .int n =>
    match Time.ofUnixCount? ⟨n < 0, n.natAbs, 0⟩ with
    | some t => .good t
    | none => .fault "datetime_parsing"
  | .decimal d =>
    match Time.ofUnixCount? d with
    | some t => .good t
    | none => .fault "datetime_parsing"
  | _ => .fault "datetime_type"

end Schema
end Triage
