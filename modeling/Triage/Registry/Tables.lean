import Triage.Registry.Calls

/-!
# The registry's tables

What each registry call does to the tables.  Rows are kept in the order in which they were added.  A
row without an identifier gets one more than the largest in its table.  A call can fail after it has
changed something; whoever makes the call decides whether that change stays.

What a storage engine may bound is unbounded here: how many identifiers a call names, and the size of
integers in rows, limits and offsets.
-/

namespace Triage

/-- The tables. -/
structure Registry where
  projects : List Project
  issues : List Issue
  alerts : List Alert
  leases : List Lease
  channels : List Channel
  webhooks : List Webhook
  deliveries : List Delivery
  dropped : Bool
deriving DecidableEq, Repr

/-- No rows in any table. -/
def Registry.empty : Registry := ⟨[], [], [], [], [], [], [], false⟩

/-- One more than the largest identifier in use. -/
def nextId : List Int → Int
  | [] => 1
  | first :: rest => rest.foldl max first + 1

/-- A page of a list; a negative limit is none, and a negative offset is zero. -/
def page (offset limit : Int) (xs : List α) : List α :=
  let rest := xs.drop offset.toNat
  if limit < 0 then rest else rest.take limit.toNat

/-- Rows with the later ones first; of two at the same time the one with the larger identifier. -/
def newestFirst (time : α → Instant) (id : α → Int) (rows : List α) : List α :=
  rows.mergeSort fun a b =>
    decide (time b < time a) || (decide (time a = time b) && decide (id b ≤ id a))

/-- Rows with the earlier ones first; of two at the same time the one with the smaller identifier.
-/
def oldestFirst (time : α → Instant) (id : α → Int) (rows : List α) : List α :=
  rows.mergeSort fun a b =>
    decide (time a < time b) || (decide (time a = time b) && decide (id a ≤ id b))

/-- The row that is added for a draft: `row` is the complete row under an identifier, and `clash?` a
constraint that it would break besides that of the identifier. -/
def addedRow (operation table : String) (given : Option Int) (ids : List Int)
    (row : Int → Except Clash α) (clash? : α → Option Clash) : Except Failure α :=
  let id := given.getD (nextId ids)
  match row id with
  | .error clash => .error (.clash operation clash)
  | .ok row =>
    if ids.contains id then .error (.clash operation (.taken table ["id"]))
    else
      match clash? row with
      | some clash => .error (.clash operation clash)
      | none => .ok row

/-- The rows after the one that is meant has been written over. -/
def updatedRows (operation : String) (isMeant : α → Bool) (revise : α → Except Clash α)
    (missing : Missing) (rows : List α) : Except Failure (List α) :=
  match rows.find? isMeant with
  | none => .error (.notFound missing)
  | some row =>
    match revise row with
    | .error clash => .error (.clash operation clash)
    | .ok new => .ok (rows.map fun r => if isMeant r then new else r)

/-- The row that is meant. -/
def foundRow (isMeant : α → Bool) (missing : Missing) (rows : List α) : Except Failure α :=
  match rows.find? isMeant with
  | none => .error (.notFound missing)
  | some row => .ok row

namespace Registry

/-- Whether an alert is on a page before the page is cut. -/
def isListed (r : Registry) (p : AlertPage) (a : Alert) : Bool :=
  (p.teamIds.isEmpty || p.teamIds.contains a.teamId)
    && (p.projectName.isEmpty
      || r.projects.any fun q => q.id = a.projectId && q.name = p.projectName)

/-- Whether an issue was first or last seen in a closed window. -/
def wasSeen (start stop : Instant) (i : Issue) : Bool :=
  (decide (start ≤ i.lastSeen) && decide (i.lastSeen ≤ stop))
    || (decide (start ≤ i.firstSeen) && decide (i.firstSeen ≤ stop))

/-- The constraint that an issue would break besides that of its identifier. -/
def issueClash? (r : Registry) (i : Issue) : Option Clash :=
  if r.issues.any fun j => j.projectId = i.projectId && j.fingerprint = i.fingerprint then
    some (.taken "issues" ["project_id", "hash"])
  else if r.issues.any fun j => j.uuid = i.uuid then some (.taken "issues" ["uuid"])
  else none

/-- The constraint that a webhook would break besides that of its identifier. -/
def webhookClash? (r : Registry) (w : Webhook) : Option Clash :=
  if r.webhooks.any fun v => v.channelId = w.channelId then
    some (.taken "webhook_configs" ["channel_id"])
  else none

/-- Gives a lease to its holder, unless another one on the alert still runs when it starts. -/
def acquire (leases : List Lease) (new : Lease) : Bool × List Lease :=
  match leases.find? fun l => l.alertId = new.alertId with
  | none => (true, leases ++ [new])
  | some old =>
    if old.expiresAt < new.lockedAt then
      (true, leases.map fun l => if l.alertId = new.alertId then new else l)
    else (false, leases)

/-- The reply of a change that may fail, with the tables after it. -/
def changed (r : Registry) (result : Except Failure α) (write : α → Registry) :
    Except Failure α × Registry :=
  match result with
  | .ok a => (.ok a, write a)
  | .error e => (.error e, r)

/-- The reply of a change that only may fail. -/
def written (r : Registry) (result : Except Failure α) (write : α → Registry) :
    Except Failure Unit × Registry :=
  match result with
  | .ok a => (.ok (), write a)
  | .error e => (.error e, r)

/-- Deletes the row that is meant. -/
def deleted (r : Registry) (isMeant : α → Bool) (missing : Missing) (rows : List α)
    (write : List α → Registry) : Except Failure Unit × Registry :=
  if rows.any isMeant then (.ok (), write (rows.filter fun row => !isMeant row))
  else (.error (.notFound missing), r)

/-- What a call does to the tables, and its reply. -/
def apply (r : Registry) (now : Instant) (freshUuid : String) (call : RegistryCall) :
    Except Failure call.Reply × Registry :=
  match call with
  | .addProject d =>
    r.changed (addedRow call.operation "projects" d.id (r.projects.map Project.id)
      (d.complete · now) fun _ => none) fun (p : Project) =>
        { r with projects := r.projects ++ [p] }
  | .listAlerts p =>
    let found := newestFirst Alert.createdAt Alert.id (r.alerts.filter (r.isListed p))
    (.ok (page p.offset p.limit found, found.length), r)
  | .createAlert d =>
    r.changed (addedRow call.operation "alerts" d.id (r.alerts.map Alert.id)
      (d.complete · now) fun _ => none) fun (a : Alert) =>
        { r with alerts := r.alerts ++ [a] }
  | .updateAlert d =>
    r.written (updatedRows call.operation (fun a => some a.id = d.id) d.onto (.alert d.id) r.alerts)
      fun alerts => { r with alerts }
  | .deleteAlert id =>
    r.deleted (fun a => a.id = id) (.alert id) r.alerts fun alerts => { r with alerts }
  | .getAlert id => (foundRow (fun a => a.id = id) (.alert id) r.alerts, r)
  | .listAlertsByProject projectId =>
    let found := r.alerts.filter fun a => a.projectId = projectId
    (.ok (newestFirst Alert.createdAt Alert.id found), r)
  | .getIssue projectId fingerprint =>
    (foundRow (fun i => i.projectId = projectId && i.fingerprint = fingerprint)
      (.issueOf projectId fingerprint) r.issues, r)
  | .getIssueById id => (foundRow (fun i => i.id = id) (.issue id) r.issues, r)
  | .storeIssue d =>
    r.changed (addedRow call.operation "issues" d.id (r.issues.map Issue.id)
      (d.complete · now freshUuid) r.issueClash?) fun (i : Issue) =>
        { r with issues := r.issues ++ [i] }
  | .updateLastSeen id change =>
    r.written (updatedRows call.operation (fun i => i.id = id)
      (fun i => .ok { i with
        lastSeen := change.lastSeen
        message := change.message <|> i.message
        errorType := change.errorType <|> i.errorType
        view := change.view <|> i.view })
      (.issue id) r.issues) fun issues => { r with issues }
  | .listIssues projectIds start stop ids =>
    let found := r.issues.filter fun i => projectIds.contains i.projectId && wasSeen start stop i
      && (ids.map fun ids => ids.contains i.id).getD true
    (.ok (found.mergeSort fun a b => decide (b.lastSeen < a.lastSeen)
      || (decide (a.lastSeen = b.lastSeen) && decide (a.id ≤ b.id))), r)
  | .createChannel d =>
    r.changed (addedRow call.operation "notification_channels" d.id (r.channels.map Channel.id)
      (d.complete · now) fun _ => none) fun (c : Channel) =>
        { r with channels := r.channels ++ [c] }
  | .getChannel id => (foundRow (fun c => c.id = id) (.channel id) r.channels, r)
  | .listChannels teamId enabledOnly =>
    (.ok ((r.channels.filter fun c => c.teamId = teamId && (!enabledOnly || c.enabled)).mergeSort
      fun a b => decide (a.id ≤ b.id)), r)
  | .updateChannel d =>
    r.written (updatedRows call.operation (fun c => some c.id = d.id) d.onto (.channel d.id)
      r.channels) fun channels => { r with channels }
  | .deleteChannel id =>
    let r := { r with webhooks := r.webhooks.filter fun w => w.channelId != id }
    r.deleted (fun c => c.id = id) (.channel id) r.channels fun channels => { r with channels }
  | .createWebhook d =>
    r.changed (addedRow call.operation "webhook_configs" d.id (r.webhooks.map Webhook.id)
      (d.complete · now) r.webhookClash?) fun (w : Webhook) =>
        { r with webhooks := r.webhooks ++ [w] }
  | .getWebhook channelId =>
    (foundRow (fun w => some w.channelId = channelId) (.webhook channelId) r.webhooks, r)
  | .updateWebhook d =>
    r.written (updatedRows call.operation (fun w => some w.channelId = d.channelId) d.onto
      (.webhook d.channelId) r.webhooks) fun webhooks => { r with webhooks }
  | .deleteWebhook channelId =>
    (.ok (), { r with webhooks := r.webhooks.filter fun w => w.channelId != channelId })
  | .createDelivery d =>
    r.changed (addedRow call.operation "alert_notifications" d.id (r.deliveries.map Delivery.id)
      (d.complete · now) fun _ => none) fun (x : Delivery) =>
        { r with deliveries := r.deliveries ++ [x] }
  | .updateDelivery d =>
    r.written (updatedRows call.operation (fun x => some x.id = d.id) d.onto (.delivery d.id)
      r.deliveries) fun deliveries => { r with deliveries }
  | .listPendingDeliveries limit =>
    (.ok (page 0 limit (oldestFirst Delivery.createdAt Delivery.id
      (r.deliveries.filter fun x => x.status = Delivery.pending))), r)
  | .acquireLease d =>
    match d.complete (d.alertId.getD (nextId (r.leases.map Lease.alertId))) with
    | .error clash => (.error (.clash call.operation clash), r)
    | .ok lease =>
      let (taken, leases) := acquire r.leases lease
      (.ok taken, { r with leases })
  | .releaseLease alertId holder =>
    (.ok (), { r with
      leases := r.leases.filter fun l => !(l.alertId = alertId && l.holder = holder) })
  | .cleanUpLeases now =>
    (.ok (r.leases.countP fun l => decide (l.expiresAt < now)),
      { r with leases := r.leases.filter fun l => !decide (l.expiresAt < now) })
  | .getLease alertId => (.ok (r.leases.find? fun l => l.alertId = alertId), r)

/-- What a call does, and its reply; without tables most calls fail. -/
def run (r : Registry) (now : Instant) (freshUuid : String) (call : RegistryCall) :
    Except Failure call.Reply × Registry :=
  if r.dropped && call.needsTables then (.error (.registry call.operation), r)
  else r.apply now freshUuid call

end Registry
end Triage
