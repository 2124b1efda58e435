import Triage.Text.Numeral
import Triage.Time.Instant

/-!
# Alert rules

A rule names what it counts and how far it looks back, each by a code.  Rules are stored with bare
codes, so every function of a code also answers for codes that name nothing.  A rule is accepted
when it has a name of at most 255 characters, a positive threshold and known codes; its description
is then determined by threshold and codes.
-/

namespace Triage

/-- What a rule counts. -/
inductive Condition where
  | occurrences
  | users
deriving DecidableEq, Repr

/-- How far a rule looks back. -/
inductive Timeframe where
  | minute
  | fiveMinutes
  | fifteenMinutes
  | hour
  | day
  | week
  | thirtyDays
deriving DecidableEq, Repr

namespace Condition

/-- The condition that a code names. -/
def ofCode? : Int → Option Condition
  | 1 => some .occurrences
  | 2 => some .users
  | _ => none

/-- The code of a condition. -/
def code : Condition → Int
  | .occurrences => 1
  | .users => 2

/-- The words for a condition in a description. -/
def label : Condition → String
  | .occurrences => "occurrences"
  | .users => "users affected"

/-- The name of a condition in a delivery. -/
def wireName : Condition → String
  | .occurrences => "occurrences"
  | .users => "users_affected"

end Condition

namespace Timeframe

/-- The timeframe that a code names. -/
def ofCode? : Int → Option Timeframe
  | 1 => some .minute
  | 2 => some .fiveMinutes
  | 3 => some .fifteenMinutes
  | 4 => some .hour
  | 5 => some .day
  | 6 => some .week
  | 7 => some .thirtyDays
  | _ => none

/-- The code of a timeframe. -/
def code : Timeframe → Int
  | .minute => 1
  | .fiveMinutes => 2
  | .fifteenMinutes => 3
  | .hour => 4
  | .day => 5
  | .week => 6
  | .thirtyDays => 7

/-- The length of a timeframe in seconds. -/
def seconds : Timeframe → Int
  | .minute => 60
  | .fiveMinutes => 300
  | .fifteenMinutes => 900
  | .hour => 3600
  | .day => 86400
  | .week => 604800
  | .thirtyDays => 2592000

/-- The words for a timeframe in a description. -/
def label : Timeframe → String
  | .minute => "1 minute"
  | .fiveMinutes => "5 minutes"
  | .fifteenMinutes => "15 minutes"
  | .hour => "1 hour"
  | .day => "1 day"
  | .week => "1 week"
  | .thirtyDays => "30 days"

/-- The name of a timeframe in a delivery. -/
def wireName : Timeframe → String
  | .minute => "1m"
  | .fiveMinutes => "5m"
  | .fifteenMinutes => "15m"
  | .hour => "1h"
  | .day => "1d"
  | .week => "1w"
  | .thirtyDays => "30d"

end Timeframe

namespace Rule

/-- The name in a delivery of a code that names nothing. -/
def unknownName : String := "unknown"

/-- The name in a delivery of a condition code. -/
def conditionName (code : Int) : String :=
  ((Condition.ofCode? code).map Condition.wireName).getD unknownName

/-- The name in a delivery of a timeframe code. -/
def timeframeName (code : Int) : String :=
  ((Timeframe.ofCode? code).map Timeframe.wireName).getD unknownName

/-- How many seconds a timeframe code looks back; an unknown code looks back one hour. -/
def windowSeconds (code : Int) : Int := ((Timeframe.ofCode? code).getD .hour).seconds

/-- What is compared with the threshold: distinct users under that condition, or else events. -/
def metric (condition timesSeen userCount : Int) : Int :=
  if Condition.ofCode? condition = some .users then userCount else timesSeen

/-- A code that names nothing. -/
structure UnknownCode where
  code : Int
deriving DecidableEq, Repr

/-- The generated description; the condition is looked up first. -/
def describe (threshold condition timeframe : Int) : Except UnknownCode String :=
  match Condition.ofCode? condition with
  | none => .error ⟨condition⟩
  | some c =>
    match Timeframe.ofCode? timeframe with
    | none => .error ⟨timeframe⟩
    | some t =>
      .ok ("Alert when more than " ++ Text.intText threshold ++ " " ++ c.label ++ " in " ++ t.label)

/-- Why a rule is refused. -/
inductive Flaw where
  | nameMissing
  | nameTooLong
  | thresholdNotPositive
  | unknownCondition (code : Int)
  | unknownTimeframe (code : Int)
deriving DecidableEq, Repr

/-- The most characters of a rule name. -/
def maxNameLength : Nat := 255

/-- The wording of a flaw. -/
def Flaw.message : Flaw → String
  | .nameMissing => "rule name is required"
  | .nameTooLong => "rule name must be at most " ++ Text.natText maxNameLength ++ " characters"
  | .thresholdNotPositive => "threshold must be a positive integer"
  | .unknownCondition code => "unknown alert condition: " ++ Text.intText code
  | .unknownTimeframe code => "unknown alert timeframe: " ++ Text.intText code

/-- A text without the blanks at its ends. -/
def strippedName (name : String) : String := String.ofList (Text.strip name.toList)

/-- The first flaw of a rule, if it has one. -/
def flaw? (name : String) (threshold condition timeframe : Int) : Option Flaw :=
  if (strippedName name).isEmpty then some .nameMissing
  else if maxNameLength < name.length then some .nameTooLong
  else if threshold < 1 then some .thresholdNotPositive
  else if (Condition.ofCode? condition).isNone then some (.unknownCondition condition)
  else if (Timeframe.ofCode? timeframe).isNone then some (.unknownTimeframe timeframe)
  else none

end Rule
end Triage
