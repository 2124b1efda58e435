import Triage.Json.Value
import Triage.Time.Instant

/-!
# Registry rows

The registry holds projects, issues, alerts with their leases, notification channels with their
webhooks, and a record of every delivery.  A row carries every column of its table, and its document
shows them all.
-/

namespace Triage

/-- A project, the owner of issues and alerts. -/
structure Project where
  id : Int
  name : String
  teamId : Int
  platform : String
  createdAt : Instant
deriving DecidableEq, Repr

/-- An issue: what all reports of a project with one fingerprint have in common. -/
structure Issue where
  id : Int
  uuid : String
  projectId : Int
  fingerprint : String
  firstSeen : Instant
  lastSeen : Instant
  message : Option String
  errorType : Option String
  view : Option String
  priority : Int
  commentCount : Int
deriving DecidableEq, Repr

/-- An alert: a rule and the state that the worker keeps for it. -/
structure Alert where
  id : Int
  projectId : Int
  teamId : Int
  ruleName : String
  description : Option String
  status : String
  threshold : Int
  condition : Int
  timeframe : Int
  highPriority : Bool
  lastTriggeredAt : Option Instant
  resolvedAt : Option Instant
  createdAt : Instant
  updatedAt : Instant
deriving DecidableEq, Repr

/-- The right of one worker to evaluate an alert until a time. -/
structure Lease where
  alertId : Int
  holder : String
  lockedAt : Instant
  expiresAt : Instant
deriving DecidableEq, Repr

/-- A way to notify a team. -/
structure Channel where
  id : Int
  teamId : Int
  name : String
  kind : String
  enabled : Bool
  createdAt : Instant
  updatedAt : Instant
deriving DecidableEq, Repr

/-- Where the deliveries of a channel go, and the sealed secret that signs them. -/
structure Webhook where
  id : Int
  channelId : Int
  url : String
  sealedSecret : Option String
  verifiedAt : Option Instant
  createdAt : Instant
  updatedAt : Instant
deriving DecidableEq, Repr

/-- One delivery about an alert to a channel. -/
structure Delivery where
  id : Int
  alertId : Int
  channelId : Int
  kind : String
  status : String
  errorMessage : Option String
  sentAt : Option Instant
  createdAt : Instant
deriving DecidableEq, Repr

/-- The status of an alert that waits for its threshold. -/
def Alert.active : String := "active"

/-- The status of an alert whose threshold is exceeded. -/
def Alert.triggered : String := "triggered"

/-- The kind of a webhook channel. -/
def Channel.webhookKind : String := "webhook"

/-- The status of a delivery that has not been tried. -/
def Delivery.pending : String := "pending"

/-- The status of a delivery that arrived. -/
def Delivery.sent : String := "sent"

/-- The status of a delivery that failed. -/
def Delivery.failed : String := "failed"

/-- The priority of a new issue. -/
def Issue.highPriority : Int := 3

/-- A time as a value of a document. -/
def Instant.document (t : Instant) : Json := .str t.stamp

/-- A time that may be missing as a value of a document. -/
def optionalTime (t : Option Instant) : Json := .ofOption Instant.document t

/-- A project as a document. -/
def Project.document (p : Project) : Json := .obj [
  ("id", .int p.id), ("name", .str p.name), ("team_id", .int p.teamId),
  ("platform", .str p.platform), ("created_at", p.createdAt.document)]

/-- An issue as a document. -/
def Issue.document (i : Issue) : Json := .obj [
  ("id", .int i.id), ("uuid", .str i.uuid), ("project_id", .int i.projectId),
  ("hash", .str i.fingerprint), ("first_seen", i.firstSeen.document),
  ("last_seen", i.lastSeen.document), ("message", .ofOption .str i.message),
  ("error_type", .ofOption .str i.errorType), ("view", .ofOption .str i.view),
  ("priority", .int i.priority), ("num_comments", .int i.commentCount)]

/-- An alert as a document. -/
def Alert.document (a : Alert) : Json := .obj [
  ("id", .int a.id), ("project_id", .int a.projectId), ("team_id", .int a.teamId),
  ("rule_name", .str a.ruleName), ("description", .ofOption .str a.description),
  ("status", .str a.status), ("threshold", .int a.threshold), ("condition", .int a.condition),
  ("timeframe", .int a.timeframe), ("high_priority", .bool a.highPriority),
  ("last_triggered_at", optionalTime a.lastTriggeredAt), ("resolved_at", optionalTime a.resolvedAt),
  ("created_at", a.createdAt.document), ("updated_at", a.updatedAt.document)]

/-- A lease as a document. -/
def Lease.document (l : Lease) : Json := .obj [
  ("alert_id", .int l.alertId), ("instance_id", .str l.holder),
  ("locked_at", l.lockedAt.document), ("expires_at", l.expiresAt.document)]

/-- A channel as a document. -/
def Channel.document (c : Channel) : Json := .obj [
  ("id", .int c.id), ("team_id", .int c.teamId), ("name", .str c.name),
  ("channel_type", .str c.kind), ("enabled", .bool c.enabled),
  ("created_at", c.createdAt.document), ("updated_at", c.updatedAt.document)]

/-- A webhook as a document. -/
def Webhook.document (w : Webhook) : Json := .obj [
  ("id", .int w.id), ("channel_id", .int w.channelId), ("url", .str w.url),
  ("secret_encrypted", .ofOption .str w.sealedSecret), ("verified_at", optionalTime w.verifiedAt),
  ("created_at", w.createdAt.document), ("updated_at", w.updatedAt.document)]

/-- A delivery as a document. -/
def Delivery.document (d : Delivery) : Json := .obj [
  ("id", .int d.id), ("alert_id", .int d.alertId), ("channel_id", .int d.channelId),
  ("notification_type", .str d.kind), ("status", .str d.status),
  ("error_message", .ofOption .str d.errorMessage), ("sent_at", optionalTime d.sentAt),
  ("created_at", d.createdAt.document)]

end Triage
