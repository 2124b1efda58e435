import Triage.Deployment.Program
import Triage.Event.Grouping

/-!
# Taking in reports

A report is filed under the issue of its project and fingerprint, which is looked up, created, or
remembered from an earlier report; then its event is appended to the event log.  The two writes are
independent: when the append fails, the issue stays.
-/

namespace Triage.Events

open Program

/-- What became of a report. -/
structure Receipt where
  eventId : String
  issueId : Int
  createdIssue : Bool
deriving DecidableEq, Repr

/-- The longest message of an issue. -/
def maxMessage : Nat := 255

/-- The longest error type of an issue. -/
def maxErrorType : Nat := 512

/-- The longest view of an issue. -/
def maxView : Nat := 255

/-- The front of a text. -/
def cut (length : Nat) (text : String) : String := String.ofList (text.toList.take length)

/-- The key under which an issue is remembered. -/
def cacheKey (projectId : Int) (fingerprint : String) : String :=
  Text.intText projectId ++ ":" ++ fingerprint

/-- The error type that a report shows. -/
def errorType (r : Report) : String := outermostKind r.thrown r.message

/-- The error value that a report shows. -/
def errorValue (r : Report) : String := outermostValue r.thrown defaultMessage

/-- The issue that a report opens. -/
def newIssue (projectId : Int) (r : Report) (time : Instant) : IssueDraft where
  projectId := projectId
  fingerprint := some r.fingerprint
  firstSeen := some time
  lastSeen := some time
  message := some (cut maxMessage (errorValue r))
  errorType := some (cut maxErrorType (errorType r))
  view := some (cut maxView (culprit r.thrown))
  priority := some Issue.highPriority
  commentCount := some 0

/-- The event of a report. -/
def eventOf (projectId : Int) (issueId : Int) (issueUuid : String) (r : Report)
    (retentionDays : Int) : EventRecord where
  eventId := r.eventId
  projectId := projectId
  groupId := issueId
  createdAt := r.timestamp
  retentionDays := retentionDays
  platform := r.platform
  level := r.level
  env := r.environment
  release := r.release
  user := r.userMark
  userEmail := r.user.email
  userName := r.user.name
  userUsername := r.user.username
  message := r.message
  title := errorType r ++ ": " ++ errorValue r
  primaryHash := issueUuid
  sdkName := r.client.name
  sdkVersion := r.client.version
  exception := r.thrown.map Thrown.document
  tags := r.eventTags.map fun (key, value) => ⟨key, value⟩

/-- Notes that an issue was seen. -/
def touch (issueId : Int) (time : Instant) : Program Unit :=
  registry (.updateLastSeen issueId { lastSeen := time })

/-- The stored issue of a fingerprint, if there is one. -/
def findIssue (projectId : Int) (fingerprint : String) : Program (Option Issue) := do
  match ← (registry (.getIssue projectId fingerprint)).attempt with
  | .ok issue => return some issue
  | .error e => if e.kind = .notFound then return none else throw e

/-- The issue of a report that is not remembered, and whether it was created just now.  When another
one creates it first, that one is taken. -/
def resolveIssue (projectId : Int) (r : Report) (time : Instant) : Program (Issue × Bool) := do
  match ← findIssue projectId r.fingerprint with
  | some issue =>
    touch issue.id time
    return (issue, false)
  | none =>
    let created : Except Failure Issue ←
      (registry (.storeIssue (newIssue projectId r time))).attempt
    match created with
    | .ok issue =>
      report .info .events
        ("New issue " ++ Text.intText issue.id ++ " for project " ++ Text.intText projectId)
        [("project_id", .int projectId), ("issue_id", .int issue.id)] none
      return (issue, true)
    | .error e =>
      if e.kind != .duplicate then throw e
      let issue : Issue ← registry (.getIssue projectId r.fingerprint)
      touch issue.id time
      return (issue, false)

/-- The identity of the issue of a report, and whether the issue was created just now. -/
def identifyIssue (service : Intake) (projectId : Int) (r : Report) (time : Instant) :
    Program (Int × String × Bool) := do
  let key := cacheKey projectId r.fingerprint
  let remembered : Option CachedIssue ← request (.findCached service key)
  match remembered with
  | some known =>
    touch known.issueId time
    return (known.issueId, known.issueUuid, false)
  | none =>
    request (.guardKey service key)
    let (issue, created) ←
      (resolveIssue projectId r time).ensure (request (.releaseKey service key))
    request (.addCached service key issue.id issue.uuid)
    return (issue.id, issue.uuid, created)

/-- Takes in a report. -/
def ingest (service : Intake) (projectId : Int) (r : Report) (retentionDays : Int) :
    Program Receipt :=
  inScope none do
    let time ← now
    let (issueId, issueUuid, created) ← identifyIssue service projectId r time
    eventLog (.append (eventOf projectId issueId issueUuid r retentionDays))
    report .debug .events
      ("Ingested event " ++ r.eventId ++ " into issue " ++ Text.intText issueId)
      [("project_id", .int projectId), ("issue_id", .int issueId)] none
    return ⟨r.eventId, issueId, created⟩

/-- A value with its share of the total of its tag. -/
def withShare (totals : List TagCount) (v : ValueShare) : ValueShare :=
  let total := ((totals.find? fun t => t.key = v.key).map TagCount.count).getD 0
  { v with percent := Diagnostics.percentOf v.count total }

/-- How often each tag occurs in an issue, and its most frequent values with their shares. -/
def listFields (c : IssueCriteria) : Program (List TagCount × List ValueShare) := do
  let totals : List TagCount ← eventLog (.tagTotals c)
  let values : List ValueShare ← eventLog (.valueShares c)
  return (totals, values.map (withShare totals))

/-- The criteria of a query about the events of an issue. -/
def queryCriteria (projectId issueId : Int) (query : String) (window : Window)
    (offset limit : Int) : EventsCriteria :=
  let compiled := Search.compile query
  ⟨[projectId], issueId, window, compiled.phrase, compiled.filters, limit, offset⟩

/-- A page of the events of an issue that a query finds, and how many it finds. -/
def list (c : EventsCriteria) : Program (Nat × List StoredEvent) := do
  let total : Nat ← eventLog (.countEvents c)
  if total = 0 then return (0, [])
  let events : List StoredEvent ← eventLog (.listEvents c)
  return (total, events)

/-- The issues that a query finds in some projects. -/
def search (query : String) (projectIds : List Int) (window : Window) : Program (List Int) :=
  eventLog (.groupIds ⟨projectIds, window, Search.tokenize query⟩)

end Triage.Events
