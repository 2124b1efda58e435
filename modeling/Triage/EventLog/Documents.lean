import Triage.EventLog.Calls
import Triage.Registry.Rows

/-!
# Answers of the event log as documents

How results of queries are shown.
-/

namespace Triage

/-- A binary64 number as its sixteen hexadecimal digits. -/
def bitsDocument (x : Float) : Json :=
  .str ("f64:" ++ String.ofList (Text.hexDigits 16 x.toBits.toNat))

/-- Metrics as a document. -/
def IssueMetrics.document (m : IssueMetrics) : Json := .obj [
  ("gid", .int m.groupId), ("times_seen", .nat m.timesSeen), ("user_count", .nat m.userCount),
  ("first_seen", m.firstSeen.document), ("last_seen", m.lastSeen.document)]

/-- A tag count as a document. -/
def TagCount.document (t : TagCount) : Json := .obj [("tag", .str t.key), ("count", .nat t.count)]

/-- A value with its share as a document. -/
def ValueShare.document (v : ValueShare) : Json := .obj [
  ("tag", .str v.key), ("value", .str v.value), ("count", .nat v.count),
  ("first_seen", v.firstSeen.document), ("last_seen", v.lastSeen.document),
  ("percent_of_total", bitsDocument v.percent)]

/-- A value count as a document. -/
def ValueCount.document (v : ValueCount) : Json :=
  .obj [("value", .str v.value), ("count", .nat v.count)]

/-- A tag as a document. -/
def Tag.document (t : Tag) : Json := .obj [("key", .str t.key), ("value", .str t.value)]

/-- A day count as a document. -/
def DayCount.document (d : DayCount) : Json := .obj [
  ("time", .str d.day.dateText), ("gid", .int d.groupId), ("count", .nat d.count)]

/-- An hour count as a document. -/
def HourCount.document (h : HourCount) : Json := .obj [
  ("ts", h.hour.document), ("project_id", .int h.projectId), ("count", .nat h.count)]

/-- A size of a table as a document. -/
def Diagnostics.TableSize.document (t : Diagnostics.TableSize) : Json := .obj [
  ("name", .str t.name), ("readable_bytes", .str t.readableBytes),
  ("total_bytes", .int t.totalBytes), ("total_rows", .int t.totalRows), ("engine", .str t.engine),
  ("partition_key", .str t.partitionKey)]

/-- A statement as a document. -/
def Diagnostics.Statement.document (s : Diagnostics.Statement) : Json := .obj [
  ("normalized_query", .str s.text), ("avg_duration", bitsDocument s.averageDuration),
  ("avg_result_rows", bitsDocument s.averageRows), ("total_calls", .int s.calls),
  ("read_bytes", .int s.readBytes), ("total_read_bytes", .str s.readableBytes),
  ("percentage_runtime", bitsDocument s.runtimePercent),
  ("normalized_query_hash", .str s.digest), ("percent", bitsDocument s.readPercent)]

/-- An error counter as a document. -/
def Diagnostics.ErrorCount.document (e : Diagnostics.ErrorCount) : Json := .obj [
  ("name", .str e.name), ("count", .int e.count), ("max_last_error_time", optionalTime e.lastSeen)]

/-- The fields of an event that every view of it shows. -/
def StoredEvent.commonFields (e : StoredEvent) : List (String × Json) := [
  ("event_id", .str e.record.eventId), ("created_at", e.createdAt.document),
  ("title", .str e.record.title), ("message", .str e.record.message),
  ("release", .str e.record.release), ("env", .str e.record.env), ("user", .str e.record.user),
  ("user_email", .str e.record.userEmail), ("user_username", .str e.record.userUsername),
  ("user_name", .str e.record.userName)]

/-- An event as an entry of a list. -/
def StoredEvent.entry (e : StoredEvent) : Json :=
  .obj (e.commonFields ++ [("os", .str (e.tagValue "os"))])

/-- An event with its tags and errors. -/
def StoredEvent.details (e : StoredEvent) : Json := .obj (e.commonFields ++ [
  ("tags", .ofList (fun t => .arr [.str t.tag.key, .str t.tag.value]) e.tags),
  ("exception", .arr e.record.exception)])

/-- The reply of a call as a document. -/
def EventLogCall.replyDocument : (call : EventLogCall) → call.Reply → Json
  | .append _, () => .null
  | .metrics _, found => .ofList IssueMetrics.document found
  | .valueShares _, found => .ofList ValueShare.document found
  | .tagTotals _, found => .ofList TagCount.document found
  | .issueEvent _, found => .ofOption StoredEvent.details found
  | .listEvents _, found => .ofList StoredEvent.entry found
  | .countEvents _, count => .nat count
  | .groupIds _, ids => .ofList .int ids
  | .perDay _, found => .ofList DayCount.document found
  | .perHour _, found => .ofList HourCount.document found
  | .popularTags _, found => .ofList TagCount.document found
  | .tagValues _, found => .ofList ValueCount.document found
  | .suggestedFilters _, found => .ofList Tag.document found
  | .tableSizes, found => .ofList Diagnostics.TableSize.document found
  | .slowStatements, found => .ofList Diagnostics.Statement.document found
  | .errorCounts _, found => .ofList Diagnostics.ErrorCount.document found

end Triage
