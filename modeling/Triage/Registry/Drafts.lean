import Triage.Failure
import Triage.Registry.Rows

/-!
# Drafts

A draft names some columns of a row.  To insert it, missing columns take their defaults and the
others must be there; the first one that is not, in the order of the table, is the clash.  To update
a row, exactly the columns that the table lets an update write are taken from the draft.
-/

namespace Triage

/-- A column that must have a value. -/
def needed (table column : String) : Option α → Except Clash α
  | some value => .ok value
  | none => .error (.missingValue table column)

/-- Some columns of a project. -/
structure ProjectDraft where
  id : Option Int := none
  name : Option String := none
  teamId : Option Int := none
  platform : Option String := none
  createdAt : Option Instant := none

/-- Some columns of an issue. -/
structure IssueDraft where
  id : Option Int := none
  uuid : Option String := none
  projectId : Option Int := none
  fingerprint : Option String := none
  firstSeen : Option Instant := none
  lastSeen : Option Instant := none
  message : Option String := none
  errorType : Option String := none
  view : Option String := none
  priority : Option Int := none
  commentCount : Option Int := none

/-- Some columns of an alert. -/
structure AlertDraft where
  id : Option Int := none
  projectId : Option Int := none
  teamId : Option Int := none
  ruleName : Option String := none
  description : Option String := none
  status : Option String := none
  threshold : Option Int := none
  condition : Option Int := none
  timeframe : Option Int := none
  highPriority : Option Bool := none
  lastTriggeredAt : Option Instant := none
  resolvedAt : Option Instant := none
  createdAt : Option Instant := none
  updatedAt : Option Instant := none
deriving DecidableEq, Repr

/-- Some columns of a lease. -/
structure LeaseDraft where
  alertId : Option Int := none
  holder : Option String := none
  lockedAt : Option Instant := none
  expiresAt : Option Instant := none

/-- Some columns of a channel. -/
structure ChannelDraft where
  id : Option Int := none
  teamId : Option Int := none
  name : Option String := none
  kind : Option String := none
  enabled : Option Bool := none
  createdAt : Option Instant := none
  updatedAt : Option Instant := none

/-- Some columns of a webhook. -/
structure WebhookDraft where
  id : Option Int := none
  channelId : Option Int := none
  url : Option String := none
  sealedSecret : Option String := none
  verifiedAt : Option Instant := none
  createdAt : Option Instant := none
  updatedAt : Option Instant := none

/-- Some columns of a delivery. -/
structure DeliveryDraft where
  id : Option Int := none
  alertId : Option Int := none
  channelId : Option Int := none
  kind : Option String := none
  status : Option String := none
  errorMessage : Option String := none
  sentAt : Option Instant := none
  createdAt : Option Instant := none

/-- The project of a draft. -/
def ProjectDraft.complete (d : ProjectDraft) (id : Int) (now : Instant) : Except Clash Project := do
  let need {α : Type} (column : String) (value : Option α) := needed "projects" column value
  let name ← need "name" d.name
  let teamId ← need "team_id" d.teamId
  return ⟨id, name, teamId, d.platform.getD "", d.createdAt.getD now⟩

/-- The issue of a draft; an issue without an identifier of its own gets a fresh one. -/
def IssueDraft.complete (d : IssueDraft) (id : Int) (now : Instant) (freshUuid : String) :
    Except Clash Issue := do
  let need {α : Type} (column : String) (value : Option α) := needed "issues" column value
  let projectId ← need "project_id" d.projectId
  let fingerprint ← need "hash" d.fingerprint
  return {
    id, projectId, fingerprint
    uuid := d.uuid.getD freshUuid
    firstSeen := d.firstSeen.getD now
    lastSeen := d.lastSeen.getD now
    message := d.message
    errorType := d.errorType
    view := d.view
    priority := d.priority.getD Issue.highPriority
    commentCount := d.commentCount.getD 0 }

/-- The alert of a draft. -/
def AlertDraft.complete (d : AlertDraft) (id : Int) (now : Instant) : Except Clash Alert := do
  let need {α : Type} (column : String) (value : Option α) := needed "alerts" column value
  let projectId ← need "project_id" d.projectId
  let teamId ← need "team_id" d.teamId
  let ruleName ← need "rule_name" d.ruleName
  let threshold ← need "threshold" d.threshold
  return {
    id, projectId, teamId, ruleName, threshold
    description := d.description
    status := d.status.getD Alert.active
    condition := d.condition.getD Condition.occurrences.code
    timeframe := d.timeframe.getD Timeframe.hour.code
    highPriority := d.highPriority.getD false
    lastTriggeredAt := d.lastTriggeredAt
    resolvedAt := d.resolvedAt
    createdAt := d.createdAt.getD now
    updatedAt := d.updatedAt.getD now }

/-- The alert that a row becomes when a draft is written over it.  Identity, team, project and time
of creation stay. -/
def AlertDraft.onto (d : AlertDraft) (row : Alert) : Except Clash Alert := do
  let need {α : Type} (column : String) (value : Option α) := needed "alerts" column value
  let ruleName ← need "rule_name" d.ruleName
  let status ← need "status" d.status
  let threshold ← need "threshold" d.threshold
  let condition ← need "condition" d.condition
  let timeframe ← need "timeframe" d.timeframe
  let highPriority ← need "high_priority" d.highPriority
  let updatedAt ← need "updated_at" d.updatedAt
  return { row with
    ruleName, status, threshold, condition, timeframe, highPriority, updatedAt
    description := d.description
    lastTriggeredAt := d.lastTriggeredAt
    resolvedAt := d.resolvedAt }

/-- The lease of a draft. -/
def LeaseDraft.complete (d : LeaseDraft) (alertId : Int) : Except Clash Lease := do
  let need {α : Type} (column : String) (value : Option α) := needed "alert_locks" column value
  let holder ← need "instance_id" d.holder
  let lockedAt ← need "locked_at" d.lockedAt
  let expiresAt ← need "expires_at" d.expiresAt
  return ⟨alertId, holder, lockedAt, expiresAt⟩

/-- The channel of a draft. -/
def ChannelDraft.complete (d : ChannelDraft) (id : Int) (now : Instant) : Except Clash Channel := do
  let need {α : Type} (column : String) (value : Option α) :=
    needed "notification_channels" column value
  let teamId ← need "team_id" d.teamId
  let name ← need "name" d.name
  return ⟨id, teamId, name, d.kind.getD Channel.webhookKind, d.enabled.getD true,
    d.createdAt.getD now, d.updatedAt.getD now⟩

/-- The channel that a row becomes when a draft is written over it. -/
def ChannelDraft.onto (d : ChannelDraft) (row : Channel) : Except Clash Channel := do
  let need {α : Type} (column : String) (value : Option α) :=
    needed "notification_channels" column value
  let name ← need "name" d.name
  let enabled ← need "enabled" d.enabled
  let updatedAt ← need "updated_at" d.updatedAt
  return { row with name, enabled, updatedAt }

/-- The webhook of a draft. -/
def WebhookDraft.complete (d : WebhookDraft) (id : Int) (now : Instant) : Except Clash Webhook := do
  let need {α : Type} (column : String) (value : Option α) := needed "webhook_configs" column value
  let channelId ← need "channel_id" d.channelId
  let url ← need "url" d.url
  return ⟨id, channelId, url, d.sealedSecret, d.verifiedAt, d.createdAt.getD now,
    d.updatedAt.getD now⟩

/-- The webhook that a row becomes when a draft is written over it. -/
def WebhookDraft.onto (d : WebhookDraft) (row : Webhook) : Except Clash Webhook := do
  let need {α : Type} (column : String) (value : Option α) := needed "webhook_configs" column value
  let url ← need "url" d.url
  let updatedAt ← need "updated_at" d.updatedAt
  return { row with
    url, updatedAt
    sealedSecret := d.sealedSecret
    verifiedAt := d.verifiedAt }

/-- The delivery of a draft. -/
def DeliveryDraft.complete (d : DeliveryDraft) (id : Int) (now : Instant) :
    Except Clash Delivery := do
  let need {α : Type} (column : String) (value : Option α) :=
    needed "alert_notifications" column value
  let alertId ← need "alert_id" d.alertId
  let channelId ← need "channel_id" d.channelId
  let kind ← need "notification_type" d.kind
  return ⟨id, alertId, channelId, kind, d.status.getD Delivery.pending, d.errorMessage, d.sentAt,
    d.createdAt.getD now⟩

/-- The delivery that a row becomes when a draft is written over it. -/
def DeliveryDraft.onto (d : DeliveryDraft) (row : Delivery) : Except Clash Delivery := do
  let status ← needed "alert_notifications" "status" d.status
  return { row with
    status
    errorMessage := d.errorMessage
    sentAt := d.sentAt }

/-- The draft that names every column of an alert. -/
def Alert.draft (a : Alert) : AlertDraft :=
  ⟨some a.id, some a.projectId, some a.teamId, some a.ruleName, a.description, some a.status,
    some a.threshold, some a.condition, some a.timeframe, some a.highPriority, a.lastTriggeredAt,
    a.resolvedAt, some a.createdAt, some a.updatedAt⟩

/-- The draft that names every column of a lease. -/
def Lease.draft (l : Lease) : LeaseDraft :=
  ⟨some l.alertId, some l.holder, some l.lockedAt, some l.expiresAt⟩

/-- The draft that names every column of a webhook. -/
def Webhook.draft (w : Webhook) : WebhookDraft :=
  ⟨some w.id, some w.channelId, some w.url, w.sealedSecret, w.verifiedAt, some w.createdAt,
    some w.updatedAt⟩

/-- The draft that names every column of a delivery. -/
def Delivery.draft (d : Delivery) : DeliveryDraft :=
  ⟨some d.id, some d.alertId, some d.channelId, some d.kind, some d.status, d.errorMessage,
    d.sentAt, some d.createdAt⟩

end Triage
