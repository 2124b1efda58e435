import Triage.Event.IssueCache
import Triage.EventLog.Calls
import Triage.Log.Correlation
import Triage.Log.Entry
import Triage.Registry.Tables
import Triage.Webhook.Http

/-!
# Requests

What a program can ask of the deployment that it runs in: calls to the two stores, the clocks, the
log, the issue caches of the services, nonces, and posts.  Every request is one atomic step.
-/

namespace Triage

/-- A change to a row that was read earlier.  It counts only inside a unit of work, which keeps the
rows that were read in it in step with the tables. -/
inductive RowChange where
  | alert (row : Alert)
  | webhook (row : Webhook)
  | delivery (row : Delivery)
deriving DecidableEq, Repr

/-- A service that takes in reports: its own number, and how it remembers issues. -/
structure Intake where
  number : Nat
  policy : CachePolicy
deriving DecidableEq, Repr

/-- A step of a longer operation at which a failure can be staged. -/
inductive Stage where
  | send
  | sendTriggered
  | sendResolved
  | sendWebhook
deriving DecidableEq, Repr

/-- What a program can ask. -/
inductive Request where
  | registry (call : RegistryCall)
  | eventLog (call : EventLogCall)
  | flushEvents
  | noteChange (change : RowChange)
  | now
  | pause (micros : Int)
  | record (entry : Log.Entry)
  | enterScope (id : Option String)
  | leaveScope (before : Option String)
  | findCached (service : Intake) (key : String)
  | addCached (service : Intake) (key : String) (issueId : Int) (issueUuid : String)
  | guardKey (service : Intake) (key : String)
  | releaseKey (service : Intake) (key : String)
  | nonce
  | post (post : Webhook.Post)
  | reach (stage : Stage)
  | startWorker (instanceId : String)
  | workerRuns (instanceId : String)
  | endWorker (instanceId : String)

/-- What a request replies.  Entering a scope replies the identifier that was bound before. -/
def Request.Reply : Request → Type
  | .registry call => call.Reply
  | .eventLog call => call.Reply
  | .now => Instant
  | .enterScope _ => Option String
  | .findCached .. => Option CachedIssue
  | .nonce => List UInt8
  | .post _ => Webhook.Response
  | .startWorker _ => Bool
  | .workerRuns _ => Bool
  | _ => Unit

/-- The name of a stage, by which failures are staged. -/
def Stage.name : Stage → String
  | .send => "notifier.send"
  | .sendTriggered => "notifier.send_alert_triggered"
  | .sendResolved => "notifier.send_alert_resolved"
  | .sendWebhook => "notifier.send_webhook"

/-- The name by which failures of a request are staged, if they can be. -/
def Request.target? : Request → Option String
  | .registry call => some (call.part ++ "." ++ call.operation)
  | .eventLog call => some ("analytics." ++ call.operation)
  | .flushEvents => some "analytics.flush"
  | .reach stage => some stage.name
  | _ => none

end Triage
