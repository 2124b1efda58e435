import Triage.Deployment.Program

/-!
# Deployments

A deployment holds everything that programs share, and carries out their requests.  Inside a unit of
work the registry's changes are kept back: ending it well keeps them, and anything else restores the
tables as they were.  A failure to add a row breaks the unit; after that it can only be rolled back.
-/

namespace Triage

/-- An open unit of work: the tables as they were, and whether it is broken. -/
structure UnitOfWork where
  before : Registry
  broken : Bool

/-- A failure that replaces the next calls of a target. -/
structure StagedFailure where
  target : String
  times : Nat
  failure : Failure

/-- An append that has not been carried out yet, with the correlation identifier of its caller. -/
structure WaitingAppend where
  record : EventRecord
  correlation : Option String

/-- What programs share. -/
structure Deployment where
  now : Instant
  elapsed : Int
  registry : Registry
  openUnit : Option UnitOfWork
  issuesNamed : Nat
  events : EventLog
  appendsWait : Bool
  waiting : List WaitingAppend
  caches : Nat → IssueCache
  correlation : Log.Correlation
  records : List Log.Recorded
  noncesDrawn : Nat
  outcomes : List Webhook.PostOutcome
  posts : List Webhook.Post
  staged : List StagedFailure
  running : List String

namespace Deployment

/-- A deployment with empty stores.  Appends to the event log either wait to be flushed or not. -/
def initial (now : Instant) (appendsWait : Bool) : Deployment where
  now := now
  elapsed := 0
  registry := .empty
  openUnit := none
  issuesNamed := 0
  events := .empty
  appendsWait := appendsWait
  waiting := []
  caches := fun _ => .empty
  correlation := .initial
  records := []
  noncesDrawn := 0
  outcomes := []
  posts := []
  staged := []
  running := []

/-- Stages a failure in place of one staged earlier for the same target. -/
def stage (d : Deployment) (s : StagedFailure) : Deployment :=
  { d with staged := s :: d.staged.filter fun other => other.target != s.target }

/-- Takes the failure that is staged for a target, once. -/
def takeStaged (d : Deployment) (target : String) : Option Failure × Deployment :=
  match d.staged.find? fun s => s.target = target && s.times != 0 with
  | none => (none, d)
  | some s => (some s.failure, d.stage { s with times := s.times - 1 })

/-- Writes an entry to the log under a correlation identifier. -/
def recordUnder (d : Deployment) (correlation : Option String) (entry : Log.Entry) : Deployment :=
  { d with records := d.records ++ [⟨entry, correlation⟩] }

/-- The identifier of the next issue. -/
def nextUuid (d : Deployment) : String := String.ofList (Text.hexDigits 32 (d.issuesNamed + 1))

/-- Carries out a registry call.  Outside a unit of work a call that fails changes nothing; inside
one, a failure to add a row restores the tables and breaks the unit. -/
def callRegistry (d : Deployment) (call : RegistryCall) : Except Failure call.Reply × Deployment :=
  let isBroken := (d.openUnit.map UnitOfWork.broken).getD false
  if isBroken && call.needsTables then (.error (.registry call.operation), d)
  else
    let (reply, after) := d.registry.run d.now d.nextUuid call
    let d := if call.takesUuid then { d with issuesNamed := d.issuesNamed + 1 } else d
    match reply, d.openUnit with
    | .ok r, _ => (.ok r, { d with registry := after })
    | .error e, none => (.error e, d)
    | .error e, some u =>
      if call.addsRow then
        (.error e, { d with registry := u.before, openUnit := some { u with broken := true } })
      else (.error e, { d with registry := after })

/-- Appends a record, unless a failure is staged for that. -/
def appendEvent (d : Deployment) (record : EventRecord) : Except Failure Unit × Deployment :=
  match d.takeStaged "analytics._insert" with
  | (some e, d) => (.error e, d)
  | (none, d) =>
    let (reply, events) := d.events.run (.append record)
    (reply, { d with events })

/-- Carries out an event log call; appends may be put off. -/
def callEventLog (d : Deployment) : (call : EventLogCall) → Except Failure call.Reply × Deployment
  | .append record =>
    if d.appendsWait then
      (.ok (), { d with waiting := d.waiting ++ [⟨record, d.correlation.current⟩] })
    else d.appendEvent record
  | call =>
    let (reply, events) := d.events.run call
    (reply, { d with events })

/-- Carries out an append that was put off; its failure is only logged. -/
def carryOut (d : Deployment) (w : WaitingAppend) : Deployment :=
  match d.appendEvent w.record with
  | (.ok (), d) => d
  | (.error e, d) =>
    d.recordUnder w.correlation
      ⟨.error, .eventLog, "Async event insert failed: " ++ e.message, [], some e⟩

/-- Carries out all appends that were put off. -/
def flush (d : Deployment) : Deployment :=
  d.waiting.foldl carryOut { d with waiting := [] }

/-- Writes a change to a row through to the tables, inside a unit of work that is not broken. -/
def noteChange (d : Deployment) (change : RowChange) : Deployment :=
  match d.openUnit with
  | none => d
  | some u =>
    if u.broken then d
    else
      let r := d.registry
      { d with registry :=
          match change with
          | .alert row =>
            { r with alerts := r.alerts.map fun a => if a.id = row.id then row else a }
          | .webhook row =>
            { r with webhooks := r.webhooks.map fun w => if w.id = row.id then row else w }
          | .delivery row =>
            { r with deliveries := r.deliveries.map fun x => if x.id = row.id then row else x } }

/-- Changes the cache of a service. -/
def withCache (d : Deployment) (service : Intake) (change : IssueCache → IssueCache) : Deployment :=
  let changed := change (d.caches service.number)
  { d with caches := fun n => if n = service.number then changed else d.caches n }

/-- Posts: an address that cannot be posted to fails before anything is sent. -/
def sendPost (d : Deployment) (p : Webhook.Post) : Except Failure Webhook.Response × Deployment :=
  match Webhook.postableUrl p.url with
  | .error text => (.error (.notSent text), d)
  | .ok url =>
    let after := { d with posts := d.posts ++ [{ p with url }], outcomes := d.outcomes.drop 1 }
    match d.outcomes.head?.getD .fine with
    | .response r => (.ok r, after)
    | .broken text => (.error (.notSent text), after)
    | .failed e => (.error e, after)

/-- The bytes of the nonce after those drawn so far. -/
def nextNonce (d : Deployment) : List UInt8 :=
  Text.bytesBE Cipher.SecretCipher.nonceSize (d.noncesDrawn + 1)

/-- Lets time pass on both clocks. -/
def advance (d : Deployment) (micros : Int) : Deployment :=
  { d with now := d.now.shift micros, elapsed := d.elapsed + micros }

/-- Carries out a request for which no failure is staged. -/
def carryOutRequest (d : Deployment) : (q : Request) → Except Failure q.Reply × Deployment
  | .registry call => d.callRegistry call
  | .eventLog call => d.callEventLog call
  | .flushEvents => (.ok (), d.flush)
  | .noteChange change => (.ok (), d.noteChange change)
  | .now => (.ok d.now, d)
  | .pause micros => (.ok (), d.advance micros)
  | .record entry => (.ok (), d.recordUnder d.correlation.current entry)
  | .enterScope id =>
    (.ok d.correlation.current, { d with correlation := (d.correlation.enter id).2 })
  | .leaveScope before => (.ok (), { d with correlation := d.correlation.leave before })
  | .findCached service key =>
    let (found, cache) := (d.caches service.number).find service.policy d.elapsed key
    (.ok found, d.withCache service fun _ => cache)
  | .addCached service key issueId issueUuid =>
    (.ok (), d.withCache service fun c => c.add service.policy d.elapsed key issueId issueUuid)
  | .guardKey service key => (.ok (), d.withCache service fun c => c.guard key)
  | .releaseKey service key => (.ok (), d.withCache service fun c => c.release key)
  | .nonce => (.ok d.nextNonce, { d with noncesDrawn := d.noncesDrawn + 1 })
  | .post p => d.sendPost p
  | .reach _ => (.ok (), d)
  | .startWorker instanceId =>
    if d.running.contains instanceId then (.ok false, d)
    else (.ok true, { d with running := instanceId :: d.running })
  | .workerRuns instanceId => (.ok (d.running.contains instanceId), d)
  | .endWorker instanceId =>
    (.ok (), { d with running := d.running.filter fun other => other != instanceId })

/-- Carries out a request, or lets it fail as staged. -/
def perform (d : Deployment) (q : Request) : Except Failure q.Reply × Deployment :=
  match q.target? with
  | none => d.carryOutRequest q
  | some target =>
    match d.takeStaged target with
    | (some e, d) => (.error e, d)
    | (none, d) => d.carryOutRequest q

/-- Runs a program by itself. -/
def run (d : Deployment) : Program α → Except Failure α × Deployment
  | .done a => (.ok a, d)
  | .fail e => (.error e, d)
  | .ask q next =>
    let (reply, d) := d.perform q
    d.run (next reply)

/-- Runs a body in a unit of work.  The body gives a value even when it ends in a failure.  A unit
that is already open is joined, and then neither kept nor rolled back here. -/
def inUnit (d : Deployment) (body : Deployment → (β × Option Failure) × Deployment) :
    (β × Option Failure) × Deployment :=
  match d.openUnit with
  | some _ => body d
  | none =>
    let ((value, failure), after) := body { d with openUnit := some ⟨d.registry, false⟩ }
    let rolledBack := { after with registry := d.registry, openUnit := none }
    match failure, after.openUnit with
    | some e, _ => ((value, some e), rolledBack)
    | none, some u =>
      if u.broken then ((value, some .unitBroken), rolledBack)
      else ((value, none), { after with openUnit := none })
    | none, none => ((value, none), after)

end Deployment
end Triage
