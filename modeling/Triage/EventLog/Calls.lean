import Triage.EventLog.Queries
import Triage.Failure

/-!
# Event log calls

Everything that can be asked of the event log, with the type of each reply.  A log whose tables are
gone fails every call that needs them; a query about no projects or no issues does not.
-/

namespace Triage

/-- A question or a command to the event log. -/
inductive EventLogCall where
  | append (record : EventRecord)
  | metrics (c : IssuesCriteria)
  | valueShares (c : IssueCriteria)
  | tagTotals (c : IssueCriteria)
  | issueEvent (c : IssueCriteria)
  | listEvents (c : EventsCriteria)
  | countEvents (c : EventsCriteria)
  | groupIds (c : SearchCriteria)
  | perDay (c : IssueCriteria)
  | perHour (c : ProjectsCriteria)
  | popularTags (c : ProjectsCriteria)
  | tagValues (c : TagCriteria)
  | suggestedFilters (c : ProjectsCriteria)
  | tableSizes
  | slowStatements
  | errorCounts (since : Instant)

namespace EventLogCall

/-- What a call replies. -/
def Reply : EventLogCall → Type
  | .append _ => Unit
  | .metrics _ => List IssueMetrics
  | .valueShares _ => List ValueShare
  | .tagTotals _ => List TagCount
  | .issueEvent _ => Option StoredEvent
  | .listEvents _ => List StoredEvent
  | .countEvents _ => Nat
  | .groupIds _ => List Int
  | .perDay _ => List DayCount
  | .perHour _ => List HourCount
  | .popularTags _ => List TagCount
  | .tagValues _ => List ValueCount
  | .suggestedFilters _ => List Tag
  | .tableSizes => List Diagnostics.TableSize
  | .slowStatements => List Diagnostics.Statement
  | .errorCounts _ => List Diagnostics.ErrorCount

/-- The name by which failures refer to a call. -/
def operation : EventLogCall → String
  | .append _ => "store_event"
  | .metrics _ => "list_issue_metrics"
  | .valueShares _ => "count_fields"
  | .tagTotals _ => "calculate_fields"
  | .issueEvent _ => "get_issue_event"
  | .listEvents _ => "list_events"
  | .countEvents _ => "count_events"
  | .groupIds _ => "get_filtered_group_ids"
  | .perDay _ => "calculate_events_per_day"
  | .perHour _ => "calculate_events"
  | .popularTags _ => "list_popular_tags"
  | .tagValues _ => "list_tag_values"
  | .suggestedFilters _ => "list_field_filters"
  | .tableSizes => "list_schemas"
  | .slowStatements => "list_slow_queries"
  | .errorCounts _ => "list_errors"

/-- Whether a call needs the tables. -/
def needsTables : EventLogCall → Bool
  | .metrics c => !c.groupIds.isEmpty && !c.projectIds.isEmpty
  | .groupIds c => !c.projectIds.isEmpty
  | .perHour c => !c.projectIds.isEmpty
  | .popularTags c => !c.projectIds.isEmpty
  | .tagValues c => !c.projects.projectIds.isEmpty
  | .suggestedFilters c => !c.projectIds.isEmpty
  | .tableSizes => false
  | .slowStatements => false
  | .errorCounts _ => false
  | _ => true

end EventLogCall

namespace EventLog

/-- What a call does to the log, and its reply.  An embedded log has no statistics of its own. -/
def apply (log : EventLog) : (call : EventLogCall) → call.Reply × EventLog
  | .append record => ((), log.append record)
  | .metrics c => (log.metrics c, log)
  | .valueShares c => (log.valueShares c, log)
  | .tagTotals c => (log.tagTotals c, log)
  | .issueEvent c => (log.issueEvent c, log)
  | .listEvents c => (log.listEvents c, log)
  | .countEvents c => (log.countEvents c, log)
  | .groupIds c => (log.groupIds c, log)
  | .perDay c => (log.perDay c, log)
  | .perHour c => (log.perHour c, log)
  | .popularTags c => (log.popularTags c, log)
  | .tagValues c => (log.tagValues c, log)
  | .suggestedFilters c => (log.suggestedFilters c, log)
  | .tableSizes => (log.tableSizes, log)
  | .slowStatements => ([], log)
  | .errorCounts _ => ([], log)

/-- What a call does, and its reply. -/
def run (log : EventLog) (call : EventLogCall) : Except Failure call.Reply × EventLog :=
  if log.dropped && call.needsTables then (.error (.eventLog call.operation), log)
  else
    let (reply, log) := log.apply call
    (.ok reply, log)

end EventLog
end Triage
