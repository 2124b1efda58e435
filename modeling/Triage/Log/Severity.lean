/-!
# Severities

How grave a log record of this library is, with the name and number of the level.
-/

namespace Triage.Log

/-- How grave a record is. -/
inductive Severity where
  | debug
  | info
  | warning
  | error
deriving DecidableEq, Repr

/-- The name of the level. -/
def Severity.name : Severity → String
  | .debug => "DEBUG"
  | .info => "INFO"
  | .warning => "WARNING"
  | .error => "ERROR"

end Triage.Log
