import Triage.Registry.Drafts

/-!
# Registry calls

Everything that can be asked of the registry, with the type of each reply.  A call is the smallest
step that others can observe: it takes effect as a whole.
-/

namespace Triage

/-- Which columns of an issue a new report changes. -/
structure IssueChange where
  lastSeen : Instant
  message : Option String := none
  errorType : Option String := none
  view : Option String := none
deriving DecidableEq, Repr

/-- The rows on a page unless asked otherwise. -/
def defaultPageRows : Int := 50

/-- The pending deliveries that are listed unless asked otherwise. -/
def defaultPendingRows : Int := 100

/-- A page of alerts to list: those of the teams, or of all teams when none is named, and of
projects with a name, if one is given.  A negative limit is none. -/
structure AlertPage where
  teamIds : List Int := []
  projectName : String := ""
  offset : Int := 0
  limit : Int := defaultPageRows
deriving DecidableEq, Repr

/-- A question or a command to the registry. -/
inductive RegistryCall where
  | addProject (draft : ProjectDraft)
  | listAlerts (page : AlertPage)
  | createAlert (draft : AlertDraft)
  | updateAlert (draft : AlertDraft)
  | deleteAlert (id : Int)
  | getAlert (id : Int)
  | listAlertsByProject (projectId : Int)
  | getIssue (projectId : Int) (fingerprint : String)
  | getIssueById (id : Int)
  | storeIssue (draft : IssueDraft)
  | updateLastSeen (id : Int) (change : IssueChange)
  | listIssues (projectIds : List Int) (start stop : Instant) (ids : Option (List Int))
  | createChannel (draft : ChannelDraft)
  | getChannel (id : Int)
  | listChannels (teamId : Int) (enabledOnly : Bool)
  | updateChannel (draft : ChannelDraft)
  | deleteChannel (id : Int)
  | createWebhook (draft : WebhookDraft)
  | getWebhook (channelId : Option Int)
  | updateWebhook (draft : WebhookDraft)
  | deleteWebhook (channelId : Int)
  | createDelivery (draft : DeliveryDraft)
  | updateDelivery (draft : DeliveryDraft)
  | listPendingDeliveries (limit : Int)
  | acquireLease (draft : LeaseDraft)
  | releaseLease (alertId : Int) (holder : String)
  | cleanUpLeases (now : Instant)
  | getLease (alertId : Int)

namespace RegistryCall

/-- What a call replies. -/
def Reply : RegistryCall → Type
  | .addProject _ => Project
  | .listAlerts _ => List Alert × Nat
  | .createAlert _ => Alert
  | .updateAlert _ => Unit
  | .deleteAlert _ => Unit
  | .getAlert _ => Alert
  | .listAlertsByProject _ => List Alert
  | .getIssue .. => Issue
  | .getIssueById _ => Issue
  | .storeIssue _ => Issue
  | .updateLastSeen .. => Unit
  | .listIssues .. => List Issue
  | .createChannel _ => Channel
  | .getChannel _ => Channel
  | .listChannels .. => List Channel
  | .updateChannel _ => Unit
  | .deleteChannel _ => Unit
  | .createWebhook _ => Webhook
  | .getWebhook _ => Webhook
  | .updateWebhook _ => Unit
  | .deleteWebhook _ => Unit
  | .createDelivery _ => Delivery
  | .updateDelivery _ => Unit
  | .listPendingDeliveries _ => List Delivery
  | .acquireLease _ => Bool
  | .releaseLease .. => Unit
  | .cleanUpLeases _ => Nat
  | .getLease _ => Option Lease

/-- The name by which failures refer to a call. -/
def operation : RegistryCall → String
  | .addProject _ => "add_project"
  | .listAlerts _ => "list_alerts"
  | .createAlert _ => "create_alert"
  | .updateAlert _ => "update_alert"
  | .deleteAlert _ => "delete_alert"
  | .getAlert _ => "get_alert"
  | .listAlertsByProject _ => "list_alerts_by_project"
  | .getIssue .. => "get_issue"
  | .getIssueById _ => "get_issue_by_id"
  | .storeIssue _ => "store_issue"
  | .updateLastSeen .. => "update_last_seen"
  | .listIssues .. => "list_issues"
  | .createChannel _ => "create_notification_channel"
  | .getChannel _ => "get_notification_channel"
  | .listChannels .. => "list_notification_channels"
  | .updateChannel _ => "update_notification_channel"
  | .deleteChannel _ => "delete_notification_channel"
  | .createWebhook _ => "create_webhook_config"
  | .getWebhook _ => "get_webhook_config"
  | .updateWebhook _ => "update_webhook_config"
  | .deleteWebhook _ => "delete_webhook_config"
  | .createDelivery _ => "create_alert_notification"
  | .updateDelivery _ => "update_alert_notification"
  | .listPendingDeliveries _ => "list_pending_notifications"
  | .acquireLease _ => "acquire_alert_lock"
  | .releaseLease .. => "release_alert_lock"
  | .cleanUpLeases _ => "cleanup_expired_locks"
  | .getLease _ => "get_alert_lock"

/-- The part of the registry that a call belongs to. -/
def part : RegistryCall → String
  | .addProject _ => "projects"
  | .listAlerts _ | .createAlert _ | .updateAlert _ | .deleteAlert _ | .getAlert _
  | .listAlertsByProject _ => "alerts"
  | .getIssue .. | .getIssueById _ | .storeIssue _ | .updateLastSeen .. | .listIssues .. => "issues"
  | _ => "notifications"

/-- Whether a call adds a row.  A failure to add a row breaks the unit of work around it; any other
failure does not. -/
def addsRow : RegistryCall → Bool
  | .addProject _ | .createAlert _ | .storeIssue _ | .createChannel _ | .createWebhook _
  | .createDelivery _ => true
  | _ => false

/-- Whether a call needs the tables: listing the issues of no project does not. -/
def needsTables : RegistryCall → Bool
  | .listIssues projectIds .. => !projectIds.isEmpty
  | _ => true

/-- Whether a call takes a fresh identifier for an issue. -/
def takesUuid : RegistryCall → Bool
  | .storeIssue draft => draft.uuid.isNone
  | _ => false

end RegistryCall
end Triage
