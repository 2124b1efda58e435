import Triage.Alert.Rule
import Triage.Json.Writer
import Triage.Registry.Rows
import Triage.Schema.Checked
import Triage.Webhook.Signature

/-!
# Webhook payloads

What a webhook receives about an alert.  The body is compact JSON with the fields in a fixed order,
and these very bytes are what is signed and sent.
-/

namespace Triage.Webhook

open Schema

/-- What a webhook receives. -/
structure Payload where
  timestamp : String
  alertName : String
  status : String
  condition : String
  timeframe : String
  alertId : Int
  projectId : Int
  teamId : Int
  threshold : Int
  highPriority : Bool
deriving DecidableEq, Repr

namespace Payload

/-- The object that is sent. -/
def document (p : Payload) : Json := .obj [
  ("timestamp", .str p.timestamp), ("alert_name", .str p.alertName), ("status", .str p.status),
  ("condition", .str p.condition), ("timeframe", .str p.timeframe), ("alert_id", .int p.alertId),
  ("project_id", .int p.projectId), ("team_id", .int p.teamId), ("threshold", .int p.threshold),
  ("high_priority", .bool p.highPriority)]

/-- The body that is sent. -/
def body (p : Payload) : String := p.document.render .compact

/-- The bytes that are sent and signed. -/
def bytes (p : Payload) : List UInt8 := Text.utf8 p.body

/-- The payload about an alert. -/
def ofAlert (a : Alert) (status : String) (now : Instant) : Payload :=
  ⟨now.rfc3339, a.ruleName, status, Rule.conditionName a.condition, Rule.timeframeName a.timeframe,
    a.id, a.projectId, a.teamId, a.threshold, a.highPriority⟩

/-- Whether a value counts as true: everything but nothing, zero and what is empty. -/
def counts : Json → Bool
  | .null => false
  | .bool b => b
  | .int n => n != 0
  | .decimal d => d.digits != 0
  | .str s => !s.isEmpty
  | .arr items => !items.isEmpty
  | .obj members => !members.isEmpty

/-- The code that a value is, if it is a whole number. -/
def code? : Json → Option Int
  | .int n => some n
  | .bool b => some (if b then 1 else 0)
  | .decimal d => if d.isWhole then some (Binary64.wholePart d) else none
  | _ => none

/-- The name of the code that a value is. -/
def codeName (name : Int → String) (j : Json) : String :=
  ((code? j).map name).getD Rule.unknownName

/-- The payload about an alert given by the fields of its row, whatever they hold. -/
def read (status : Json) (now : Instant) (fields : Json) : Checked Payload :=
  Payload.mk <$> pure now.rfc3339 <*> (text (fields.getD "rule_name")).under "alert_name"
    <*> (text status).under "status"
    <*> pure (codeName Rule.conditionName (fields.getD "condition"))
    <*> pure (codeName Rule.timeframeName (fields.getD "timeframe"))
    <*> (whole (fields.getD "id")).under "alert_id"
    <*> (whole (fields.getD "project_id")).under "project_id"
    <*> (whole (fields.getD "team_id")).under "team_id"
    <*> (whole (fields.getD "threshold")).under "threshold"
    <*> pure (counts (fields.getD "high_priority"))

end Payload
end Triage.Webhook
