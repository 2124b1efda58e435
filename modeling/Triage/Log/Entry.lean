import Triage.Failure
import Triage.Log.Line
import Triage.Log.Severity

/-!
# Log entries

What the parts of a deployment report: how grave it is, which part reports it, the message, the
identifiers of what it is about, and the failure behind it.
-/

namespace Triage.Log

/-- The parts of a deployment that report. -/
inductive Component where
  | alerts
  | events
  | notifications
  | notifier
  | worker
  | eventLog
deriving DecidableEq, Repr

/-- A report of a part. -/
structure Entry where
  severity : Severity
  component : Component
  message : String
  subjects : List (String × Json) := []
  failure : Option Failure := none

/-- An entry as it was recorded, with the correlation identifier of that moment. -/
structure Recorded where
  entry : Entry
  correlation : Option String

/-- The identifiers of an entry that are not null, in the fixed order. -/
def Entry.presentSubjects (e : Entry) : List (String × Json) :=
  subjectKeys.filterMap fun key => e.subjects.find? fun s => s.1 = key && !s.2.isNull

end Triage.Log
