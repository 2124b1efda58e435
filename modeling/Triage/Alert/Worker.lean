import Triage.Webhook.Notifier

/-!
# The alert worker

A tick cleans up expired leases, lists the alerts and evaluates each one that is active or triggered
under a lease of its own, so that any number of workers can run side by side.  An active alert
triggers when the metric of some issue is above its threshold; a triggered one resolves when none
is.  Every transition is stored first and then notified to the channels of the team.  A failure
about one alert is logged and does not reach the others.
-/

namespace Triage

open Program

/-- The most alerts that a tick looks at. -/
def alertBatch : Int := 1000

/-- A worker: its instance, the length of its leases in microseconds, and how it notifies. -/
structure Worker where
  instanceId : String
  leaseMicros : Int
  notifier : Webhook.Notifier
deriving DecidableEq, Repr

/-- Leases of five minutes, unless asked otherwise. -/
def Worker.usualLeaseMicros : Int := 300 * Instant.second

/-- The statuses that are evaluated. -/
def Alert.isEvaluated (a : Alert) : Bool := a.status = Alert.active || a.status = Alert.triggered

/-- Whether the metric of some issue is above the threshold. -/
def Alert.isBreached (a : Alert) (metrics : List IssueMetrics) : Bool :=
  metrics.any fun m => decide (a.threshold < Rule.metric a.condition m.timesSeen m.userCount)

/-- An alert that triggers at a time. -/
def Alert.trigger (a : Alert) (time : Instant) : Alert :=
  { a with status := Alert.triggered, updatedAt := time, lastTriggeredAt := some time }

/-- An alert that resolves at a time. -/
def Alert.resolve (a : Alert) (time : Instant) : Alert :=
  { a with status := Alert.active, updatedAt := time, resolvedAt := some time }

namespace Worker

/-- Records and delivers one notification. -/
def notifyChannel (w : Worker) (a : Alert) (kind : String) (channel : Channel) : Program Unit := do
  let about := [("alert_id", Json.int a.id), ("channel_id", Json.int channel.id)]
  let created : Except Failure Delivery ← (registry (.createDelivery {
    alertId := some a.id
    channelId := some channel.id
    kind := some kind
    status := some Delivery.pending
    createdAt := some (← now) })).attempt
  match created with
  | .error e =>
    report .error .worker ("Failed to create notification record: " ++ e.message) about none
  | .ok pending =>
    let delivery ←
      match ← (w.notifier.sendAlert a channel kind).attempt with
      | .ok () => do
        pure { pending with status := Delivery.sent, sentAt := some (← now) }
      | .error e => do
        report .error .worker ("Failed to send " ++ kind ++ " notification via " ++ channel.kind
          ++ " channel: " ++ e.message) about none
        pure { pending with status := Delivery.failed, errorMessage := some e.message }
    request (.noteChange (.delivery delivery))
    match ← (registry (.updateDelivery delivery.draft)).attempt with
    | .ok _ => return ()
    | .error e =>
      report .error .worker ("Failed to update notification record: " ++ e.message)
        [("notification_id", .int delivery.id)] none

/-- Notifies the enabled channels among some, in order. -/
def notifyChannels (w : Worker) (a : Alert) (kind : String) : List Channel → Program Unit
  | [] => return ()
  | channel :: rest => do
    if channel.enabled then w.notifyChannel a kind channel
    w.notifyChannels a kind rest

/-- Notifies the channels of the alert's team. -/
def notifyTeam (w : Worker) (a : Alert) (kind : String) : Program Unit := do
  let channels : List Channel ← registry (.listChannels a.teamId false)
  w.notifyChannels a kind channels

/-- Stores a transition of an alert and notifies about it. -/
def transition (w : Worker) (a : Alert) (kind : String) : Program Alert := do
  request (.noteChange (.alert a))
  registry (.updateAlert a.draft)
  report .info .worker ("Alert " ++ Text.intText a.id ++ " " ++ kind) [("alert_id", .int a.id)] none
  w.notifyTeam a kind
  return a

/-- Triggers an alert. -/
def trigger (w : Worker) (a : Alert) (time : Instant) : Program Alert :=
  w.transition (a.trigger time) Webhook.triggeredKind

/-- Resolves an alert. -/
def resolve (w : Worker) (a : Alert) (time : Instant) : Program Alert :=
  w.transition (a.resolve time) Webhook.resolvedKind

/-- An instant that must be representable. -/
def requireInstant (t : Instant) : Program Instant :=
  if t.representable then return t else throw .dateOutOfRange

/-- Evaluates an alert at a time, on the events of the issues seen in its window. -/
def evaluate (w : Worker) (a : Alert) (time : Instant) : Program Alert := do
  let start ← requireInstant (time.shift (-(Rule.windowSeconds a.timeframe * Instant.second)))
  let issues : List Issue ← registry (.listIssues [a.projectId] start time none)
  if issues.isEmpty then
    if a.status = Alert.triggered then w.resolve a time else return a
  else
    let metrics : List IssueMetrics ←
      eventLog (.metrics ⟨[a.projectId], issues.map Issue.id, ⟨start, time⟩⟩)
    let breached := a.isBreached metrics
    if breached && a.status = Alert.active then w.trigger a time
    else if !breached && a.status = Alert.triggered then w.resolve a time
    else return a

/-- Gives a lease back; a failure to do so is only logged. -/
def releaseLease (w : Worker) (alertId : Int) : Program Unit := do
  match ← (registry (.releaseLease alertId w.instanceId)).attempt with
  | .ok _ => return ()
  | .error e =>
    report .error .worker
      ("Failed to release lock for alert " ++ Text.intText alertId ++ ": " ++ e.message)
      [("alert_id", .int alertId)] none

/-- Evaluates an alert under a lease; one that another worker holds is skipped. -/
def checkAlert (w : Worker) (a : Alert) : Program Alert := do
  let time ← now
  let expiresAt ← requireInstant (time.shift w.leaseMicros)
  let acquired : Bool ←
    registry (.acquireLease (Lease.draft ⟨a.id, w.instanceId, time, expiresAt⟩))
  if acquired then (w.evaluate a time).ensure (w.releaseLease a.id)
  else
    report .debug .worker
      ("Alert " ++ Text.intText a.id ++ " is locked by another instance, skipping")
      [("alert_id", .int a.id)] none
    return a

/-- Checks alerts one after the other; a failure is logged. -/
def checkAlerts (w : Worker) : List Alert → Program Unit
  | [] => return ()
  | a :: rest => do
    if a.isEvaluated then
      match ← (w.checkAlert a).attempt with
      | .ok _ => pure ()
      | .error e =>
        report .error .worker
          ("Failed to check alert " ++ Text.intText a.id ++ " (" ++ a.ruleName ++ "): "
            ++ e.message)
          [("alert_id", .int a.id)] (some e)
    w.checkAlerts rest

/-- One tick. -/
def processAlerts (w : Worker) : Program Unit := do
  match ← (do registry (.cleanUpLeases (← now)) : Program Nat).attempt with
  | .error e =>
    report .error .worker ("Process alerts: failed to clean up expired locks: " ++ e.message)
      [] none
  | .ok _ =>
    let listed : Except Failure (List Alert × Nat) ←
      (registry (.listAlerts ⟨[], "", 0, alertBatch⟩)).attempt
    match listed with
    | .error e =>
      report .error .worker ("Process alerts: failed to list alerts: " ++ e.message) [] none
    | .ok (alerts, _) => w.checkAlerts alerts

/-- One round of a run: what is done, and whether the run is cancelled after it. -/
structure Round where
  work : Program Unit
  isCancelled : Bool

/-- What became of a run: whether the worker was running in each round, and whether it was
cancelled. -/
structure RunReport where
  wasRunning : List Bool
  cancelled : Bool
deriving DecidableEq, Repr

/-- Runs rounds, each in a correlation scope of its own, until they are used up or the run is
cancelled. -/
def runRounds (w : Worker) : List Round → Program RunReport
  | [] => return ⟨[], false⟩
  | round :: rest => do
    let running ← inScope none do
      let running : Bool ← request (.workerRuns w.instanceId)
      match ← round.work.attempt with
      | .ok () => pure ()
      | .error e =>
        report .error .worker ("Alert worker tick failed: " ++ e.message) [] (some e)
      return running
    if round.isCancelled then return ⟨[running], true⟩
    let later ← w.runRounds rest
    return { later with wasRunning := running :: later.wasRunning }

/-- Runs rounds, unless the worker runs already. -/
def run (w : Worker) (rounds : List Round) : Program RunReport := do
  let about := [("instance_id", Json.str w.instanceId)]
  let started : Bool ← request (.startWorker w.instanceId)
  if !started then return ⟨[], false⟩
  report .info .worker "Alert worker started" about none
  let done ← w.runRounds rounds
  if done.cancelled then report .info .worker "Alert worker cancelled" about none
  request (.endWorker w.instanceId)
  if !done.cancelled then report .info .worker "Alert worker stopped" about none
  return done

end Worker
end Triage
