import Triage.Json.Writer
import Triage.Text.Quoted

/-!
# Message templates

A template has places for values: `%s` for any value, `%d` for a number, and `%%` for the sign
itself.  A template without values is taken as it stands.
-/

namespace Triage.Log

/-- Why a template cannot be filled. -/
inductive TemplateFault where
  | tooFewValues
  | tooManyValues
  | notANumber (kind : String)
  | unknownPlace
deriving DecidableEq, Repr

/-- The wording of a fault. -/
def TemplateFault.message : TemplateFault → String
  | .tooFewValues => "not enough arguments for format string"
  | .tooManyValues => "not all arguments converted during string formatting"
  | .notANumber kind => "%d format: a real number is required, not " ++ kind
  | .unknownPlace => "incomplete format"

mutual

/-- A value as shown inside a list. -/
def showNested : Json → String
  | .null => "None"
  | .bool true => "True"
  | .bool false => "False"
  | .int n => Text.intText n
  | .decimal d => String.ofList (Json.writeDecimal d)
  | .str s => Text.quoted s
  | .arr items => "[" ++ ", ".intercalate (showItems items) ++ "]"
  | .obj members => "\x7b" ++ ", ".intercalate (showMembers members) ++ "\x7d"

/-- The items of a list, each as shown inside it. -/
def showItems : List Json → List String
  | [] => []
  | item :: rest => showNested item :: showItems rest

/-- The members of an object, each as shown inside it. -/
def showMembers : List (String × Json) → List String
  | [] => []
  | (key, value) :: rest => (Text.quoted key ++ ": " ++ showNested value) :: showMembers rest

end

/-- A value as shown by itself: text without quotes. -/
def showValue : Json → String
  | .str s => s
  | value => showNested value

/-- The name of a kind of value. -/
def kindName : Json → String
  | .null => "NoneType"
  | .bool _ => "bool"
  | .int _ => "int"
  | .decimal _ => "float"
  | .str _ => "str"
  | .arr _ => "list"
  | .obj _ => "dict"

/-- A number without its fraction. -/
def showWhole (value : Json) : Except TemplateFault String :=
  match value with
  | .int n => .ok (Text.intText n)
  | .bool b => .ok (if b then "1" else "0")
  | .decimal d => .ok (Text.intText (Binary64.wholePart d))
  | other => .error (.notANumber (kindName other))

/-- Fills the places of a template in order. -/
def fillPlaces : List Char → List Json → Except TemplateFault String
  | [], [] => .ok ""
  | [], _ :: _ => .error .tooManyValues
  | '%' :: '%' :: rest, values => (fillPlaces rest values).map ("%" ++ ·)
  | '%' :: 's' :: rest, value :: values => (fillPlaces rest values).map (showValue value ++ ·)
  | '%' :: 'd' :: rest, value :: values => do
    let shown ← showWhole value
    (fillPlaces rest values).map (shown ++ ·)
  | '%' :: 's' :: _, [] => .error .tooFewValues
  | '%' :: 'd' :: _, [] => .error .tooFewValues
  | ['%'], _ => .error .unknownPlace
  | '%' :: _ :: _, _ => .error .unknownPlace
  | c :: rest, values => (fillPlaces rest values).map (String.singleton c ++ ·)

/-- The message of a template and its values.  A single object that is not empty need not be
used. -/
def fill (template : String) (values : List Json) : Except TemplateFault String :=
  match values with
  | [] => .ok template
  | [.obj (member :: more)] =>
    match fillPlaces template.toList [.obj (member :: more)] with
    | .error .tooManyValues => fillPlaces template.toList []
    | filled => filled
  | values => fillPlaces template.toList values

end Triage.Log
