import Triage.Registry.Calls

/-!
# Drafts and replies of the registry as documents

A draft is written as an object of columns; a column that is absent or null is not named.  Columns
that hold times are read as timestamps, and the first one that is none is the failure.
-/

namespace Triage

namespace Json

/-- A column that holds a number. -/
def wholeAt (key : String) (j : Json) : Option Int := (j.getD key).int?

/-- A column that holds text. -/
def textAt (key : String) (j : Json) : Option String := (j.getD key).str?

/-- A column that holds a truth value. -/
def truthAt (key : String) (j : Json) : Option Bool := (j.getD key).bool?

/-- A column that holds a time. -/
def timeAt (key : String) (j : Json) : Except Failure (Option Instant) :=
  match j.textAt key with
  | none => .ok none
  | some text =>
    match Time.readIso text with
    | .ok t => .ok (some t)
    | .error e => .error (.timestamp e)

end Json

/-- Reads a project's columns. -/
def ProjectDraft.read (j : Json) : Except Failure ProjectDraft := do
  let createdAt ← j.timeAt "created_at"
  return ⟨j.wholeAt "id", j.textAt "name", j.wholeAt "team_id", j.textAt "platform", createdAt⟩

/-- Reads an issue's columns. -/
def IssueDraft.read (j : Json) : Except Failure IssueDraft := do
  let firstSeen ← j.timeAt "first_seen"
  let lastSeen ← j.timeAt "last_seen"
  return ⟨j.wholeAt "id", j.textAt "uuid", j.wholeAt "project_id", j.textAt "hash", firstSeen,
    lastSeen, j.textAt "message", j.textAt "error_type", j.textAt "view", j.wholeAt "priority",
    j.wholeAt "num_comments"⟩

/-- Reads an alert's columns. -/
def AlertDraft.read (j : Json) : Except Failure AlertDraft := do
  let lastTriggeredAt ← j.timeAt "last_triggered_at"
  let resolvedAt ← j.timeAt "resolved_at"
  let createdAt ← j.timeAt "created_at"
  let updatedAt ← j.timeAt "updated_at"
  return ⟨j.wholeAt "id", j.wholeAt "project_id", j.wholeAt "team_id", j.textAt "rule_name",
    j.textAt "description", j.textAt "status", j.wholeAt "threshold", j.wholeAt "condition",
    j.wholeAt "timeframe", j.truthAt "high_priority", lastTriggeredAt, resolvedAt, createdAt,
    updatedAt⟩

/-- Reads a lease's columns. -/
def LeaseDraft.read (j : Json) : Except Failure LeaseDraft := do
  let lockedAt ← j.timeAt "locked_at"
  let expiresAt ← j.timeAt "expires_at"
  return ⟨j.wholeAt "alert_id", j.textAt "instance_id", lockedAt, expiresAt⟩

/-- Reads a channel's columns. -/
def ChannelDraft.read (j : Json) : Except Failure ChannelDraft := do
  let createdAt ← j.timeAt "created_at"
  let updatedAt ← j.timeAt "updated_at"
  return ⟨j.wholeAt "id", j.wholeAt "team_id", j.textAt "name", j.textAt "channel_type",
    j.truthAt "enabled", createdAt, updatedAt⟩

/-- Reads a webhook's columns. -/
def WebhookDraft.read (j : Json) : Except Failure WebhookDraft := do
  let verifiedAt ← j.timeAt "verified_at"
  let createdAt ← j.timeAt "created_at"
  let updatedAt ← j.timeAt "updated_at"
  return ⟨j.wholeAt "id", j.wholeAt "channel_id", j.textAt "url", j.textAt "secret_encrypted",
    verifiedAt, createdAt, updatedAt⟩

/-- Reads a delivery's columns. -/
def DeliveryDraft.read (j : Json) : Except Failure DeliveryDraft := do
  let sentAt ← j.timeAt "sent_at"
  let createdAt ← j.timeAt "created_at"
  return ⟨j.wholeAt "id", j.wholeAt "alert_id", j.wholeAt "channel_id",
    j.textAt "notification_type", j.textAt "status", j.textAt "error_message", sentAt, createdAt⟩

/-- The reply of a call as a document. -/
def RegistryCall.replyDocument : (call : RegistryCall) → call.Reply → Json
  | .addProject _, p => Project.document p
  | .listAlerts _, (alerts, total) =>
    .obj [("total", .nat total), ("alerts", .ofList Alert.document alerts)]
  | .createAlert _, a => Alert.document a
  | .getAlert _, a => Alert.document a
  | .listAlertsByProject _, alerts => .ofList Alert.document alerts
  | .getIssue .., i => Issue.document i
  | .getIssueById _, i => Issue.document i
  | .storeIssue _, i => Issue.document i
  | .listIssues .., issues => .ofList Issue.document issues
  | .createChannel _, c => Channel.document c
  | .getChannel _, c => Channel.document c
  | .listChannels .., channels => .ofList Channel.document channels
  | .createWebhook _, w => Webhook.document w
  | .getWebhook _, w => Webhook.document w
  | .createDelivery _, d => Delivery.document d
  | .listPendingDeliveries _, deliveries => .ofList Delivery.document deliveries
  | .acquireLease _, taken => .bool taken
  | .cleanUpLeases _, count => .nat count
  | .getLease _, lease => .ofOption Lease.document lease
  | _, _ => .null

end Triage
