import Triage.Number.Binary64

/-!
# JSON values

Values keep the order of object members, and tell whole numbers from decimal ones.
-/

namespace Triage

/-- A JSON value. -/
inductive Json where
  | null
  | bool (value : Bool)
  | int (value : Int)
  | decimal (value : Decimal)
  | str (value : String)
  | arr (items : List Json)
  | obj (members : List (String × Json))
deriving Inhabited

namespace Json

/-- The last member of an object under a key. -/
def get? (key : String) : Json → Option Json
  | .obj members => (members.reverse.find? fun m => m.1 = key).map Prod.snd
  | _ => none

/-- The member under a key, where absence counts as null. -/
def getD (key : String) (j : Json) : Json := (j.get? key).getD .null

/-- The items of an array, and none of any other value. -/
def items : Json → List Json
  | .arr xs => xs
  | _ => []

/-- The members of an object, and none of any other value. -/
def members : Json → List (String × Json)
  | .obj ms => ms
  | _ => []

/-- The text of a string. -/
def str? : Json → Option String
  | .str s => some s
  | _ => none

/-- The value of a whole number. -/
def int? : Json → Option Int
  | .int n => some n
  | _ => none

/-- The value of a boolean. -/
def bool? : Json → Option Bool
  | .bool b => some b
  | _ => none

/-- Whether the value is null. -/
def isNull : Json → Bool
  | .null => true
  | _ => false

/-- An optional value, with null for absence. -/
def ofOption (encode : α → Json) : Option α → Json
  | some a => encode a
  | none => .null

/-- A list of values. -/
def ofList (encode : α → Json) (xs : List α) : Json := .arr (xs.map encode)

/-- A natural number. -/
def nat (n : Nat) : Json := .int n

/-- An object laid over another: members of the second replace those of the first. -/
def overlay (base top : Json) : Json :=
  .obj ((base.members.filter fun m => (top.get? m.1).isNone) ++ top.members)

end Json
end Triage
