import Triage.Json.Writer
import Triage.Text.Search
import Triage.Time.Instant

/-!
# Log lines

One log record is one line of printable ASCII: a JSON object with the time, the level, the
correlation identifier, the source and the message, the error if there is one, and the identifiers
of what the record is about, in a fixed order and without nulls.

Integers in it may have any number of digits, and values may be nested to any depth.
-/

namespace Triage.Log

/-- The identifiers that a record may carry, in the order in which they are written. -/
def subjectKeys : List String := [
  "alert_id", "channel_id", "notification_id", "instance_id", "project_id", "issue_id",
  "error_code"]

/-- The name of a level number. -/
def levelName (level : Int) : String :=
  match level with
  | 0 => "NOTSET"
  | 10 => "DEBUG"
  | 20 => "INFO"
  | 30 => "WARNING"
  | 40 => "ERROR"
  | 50 => "CRITICAL"
  | n => "Level " ++ Text.intText n

/-- The level that a configured name stands for; a name that is none stands for INFO. -/
def levelOfName (name : String) : String :=
  let upper := String.ofList (name.toList.flatMap Text.upperForAscii)
  if upper = "WARN" then "WARNING"
  else if upper = "FATAL" then "CRITICAL"
  else if ["CRITICAL", "ERROR", "WARNING", "INFO", "DEBUG", "NOTSET"].contains upper then upper
  else "INFO"

/-- The sources whose records below WARNING are not wanted. -/
def quietSources : List String := ["sqlalchemy.engine", "httpcore", "httpx", "asyncio"]

/-- An error as a log record shows it: its kind, and its text if it has one. -/
def errorText (kind text : String) : String := if text.isEmpty then kind else kind ++ ": " ++ text

/-- A log record. -/
structure Record where
  time : Instant
  level : Int
  source : String
  message : String
  error : Option String
  subjects : Json

namespace Record

/-- The identifiers that are present and not null, in order. -/
def presentSubjects (r : Record) : List (String × Json) :=
  subjectKeys.filterMap fun key =>
    match r.subjects.getD key with
    | .null => none
    | value => some (key, value)

/-- The object of a record under a correlation identifier. -/
def document (r : Record) (correlation : Option String) : Json := .obj ([
  ("timestamp", .str r.time.lineStamp), ("level", .str (levelName r.level)),
  ("correlation_id", .ofOption .str correlation), ("module", .str r.source),
  ("message", .str r.message)]
  ++ (r.error.toList.map fun text => ("exception", .str text)) ++ r.presentSubjects)

/-- The line of a record. -/
def line (r : Record) (correlation : Option String) : String :=
  (r.document correlation).render .line

end Record
end Triage.Log
