import Triage.Diagnostics
import Triage.EventLog.Criteria
import Triage.EventLog.Rows
import Triage.Registry.Tables
import Triage.Text.Wildcard

/-!
# Queries of the event log

Every query sees the events that are not deleted, and bounds its answer.  Counts go by groups: the
number of events, or of tags of events, that share a key.  Groups with equal counts are in the order
of their keys.

What a storage engine may bound is unbounded here: how many projects and issues a query names, how
long the text is that it looks for, and the size of integers.
-/

namespace Triage

/-- At most this many values are given of one tag. -/
def topValues : Nat := 4

/-- At most this many rows are given about tags. -/
def maxTagRows : Nat := 1000

/-- At most this many rows are given about hours. -/
def maxHourRows : Nat := 5000

/-- How often an issue was seen, by how many users, and when. -/
structure IssueMetrics where
  groupId : Int
  timesSeen : Nat
  userCount : Nat
  firstSeen : Instant
  lastSeen : Instant
deriving DecidableEq, Repr

/-- How often a tag occurs. -/
structure TagCount where
  key : String
  count : Nat
deriving DecidableEq, Repr

/-- How often a tag has a value, when, and its share of the tag in percent. -/
structure ValueShare where
  key : String
  value : String
  count : Nat
  firstSeen : Instant
  lastSeen : Instant
  percent : Float

/-- How often a value occurs. -/
structure ValueCount where
  value : String
  count : Nat
deriving DecidableEq, Repr

/-- Events of an issue on a day. -/
structure DayCount where
  day : Instant
  groupId : Int
  count : Nat
deriving DecidableEq, Repr

/-- Events of a project in an hour. -/
structure HourCount where
  hour : Instant
  projectId : Int
  count : Nat
deriving DecidableEq, Repr

/-- The distinct keys of a list with the number of times each occurs, in order of first occurrence.
-/
def tally [BEq κ] (keys : List κ) : List (κ × Nat) :=
  keys.eraseDups.map fun key => (key, keys.count key)

/-- The earliest of some instants and another one. -/
def earliest (first : Instant) (times : List Instant) : Instant :=
  times.foldl (fun a b => if b < a then b else a) first

/-- The latest of some instants and another one. -/
def latest (first : Instant) (times : List Instant) : Instant :=
  times.foldl (fun a b => if a < b then b else a) first

/-- The start of the UTC day of an instant. -/
def Instant.startOfDay (t : Instant) : Instant := ⟨t.micros - t.micros.fmod Instant.dayMicros⟩

namespace StoredEvent

/-- When an event happened. -/
def createdAt (e : StoredEvent) : Instant := e.record.createdAt

/-- Whether an event carries a tag with the hash of the given one. -/
def hasTag (e : StoredEvent) (tag : Tag) : Bool := e.tags.any fun t => t.hash = tag.hash

/-- Whether an event meets a tag filter. -/
def meets (e : StoredEvent) (f : Search.TagFilter) : Bool := e.hasTag f.tag != f.negated

/-- Whether an event fits a token: text is found in its message or title. -/
def fits (e : StoredEvent) : Search.Token → Bool
  | .text value =>
    Text.isFoundIn value e.record.message || Text.isFoundIn value e.record.title
  | .filter tag negated => e.meets ⟨tag, negated⟩

/-- The value of the first tag with a key, or nothing at all. -/
def tagValue (e : StoredEvent) (key : String) : String :=
  ((e.tags.find? fun t => t.tag.key = key).map fun t => t.tag.value).getD ""

end StoredEvent

namespace EventLog

/-- The events that are not deleted. -/
def visible (log : EventLog) : List StoredEvent := log.events.filter fun e => !e.deleted

/-- Appends a record. -/
def append (log : EventLog) (r : EventRecord) : EventLog :=
  { log with events := log.events ++ [r.stored (nextId (log.events.map StoredEvent.id))] }

/-- Marks every event with an identifier as deleted. -/
def markDeleted (log : EventLog) (eventId : String) : EventLog :=
  { log with events := log.events.map fun e =>
      if e.record.eventId = eventId then { e with deleted := true } else e }

/-- The metrics of the events of one issue, of which there is at least one. -/
def metricsOf (groupId : Int) (first : StoredEvent) (rest : List StoredEvent) : IssueMetrics :=
  let events := first :: rest
  let users := (events.map fun e => e.record.user).filter fun u => !u.isEmpty
  ⟨groupId, events.length, users.eraseDups.length,
    earliest first.createdAt (rest.map StoredEvent.createdAt),
    latest first.createdAt (rest.map StoredEvent.createdAt)⟩

/-- The metrics of each issue with events in the closed window. -/
def metrics (log : EventLog) (c : IssuesCriteria) : List IssueMetrics :=
  let found := log.visible.filter fun e => c.groupIds.contains e.record.groupId
    && c.window.covers e.createdAt && c.projectIds.contains e.record.projectId
  ((found.map fun e => e.record.groupId).eraseDups.mergeSort fun a b => decide (a ≤ b)).filterMap
    fun groupId =>
      match found.filter fun e => e.record.groupId = groupId with
      | [] => none
      | first :: rest => some (metricsOf groupId first rest)

/-- The events of an issue in the window without its end. -/
def ofIssue (log : EventLog) (c : IssueCriteria) : List StoredEvent :=
  log.visible.filter fun e => e.record.groupId = c.groupId && e.record.projectId = c.projectId
    && c.window.opens e.createdAt

/-- The events of some projects in a window, with or without its end. -/
def ofProjects (log : EventLog) (c : ProjectsCriteria) (isInside : Window → Instant → Bool) :
    List StoredEvent :=
  log.visible.filter fun e => c.projectIds.contains e.record.projectId
    && isInside c.window e.createdAt

/-- Every tag of some events. -/
def tagsOf (events : List StoredEvent) : List Tag :=
  events.flatMap fun e => e.tags.map StoredTag.tag

/-- Counted keys, the largest counts first and then in the order of the keys. -/
def mostFrequent (before : κ → κ → Bool) (counts : List (κ × Nat)) : List (κ × Nat) :=
  counts.mergeSort fun a b => decide (b.2 < a.2) || (a.2 == b.2 && before a.1 b.1)

/-- The order of texts. -/
def textBefore (a b : String) : Bool := decide (a ≤ b)

/-- The order of tags: by key, then by value. -/
def tagBefore (a b : Tag) : Bool :=
  decide (a.key < b.key) || (a.key == b.key && textBefore a.value b.value)

/-- The values of each tag of an issue, at most four of one tag, the most frequent first. -/
def valueShares (log : EventLog) (c : IssueCriteria) : List ValueShare :=
  let events := log.ofIssue c
  let counts := mostFrequent tagBefore (tally (tagsOf events))
  let top := counts.filter fun (tag, count) =>
    (counts.countP fun (other, n) => other.key == tag.key
      && (decide (count < n) || (n == count && decide (other.value < tag.value)))) < topValues
  (top.take maxTagRows).map fun (tag, count) =>
    let times := (events.filter fun e => e.tags.any fun t => t.tag = tag).map StoredEvent.createdAt
    let first := times.headD ⟨0⟩
    ⟨tag.key, tag.value, count, earliest first times, latest first times, 0⟩

/-- Tag keys with their counts, the most frequent first. -/
def keyCounts (events : List StoredEvent) : List TagCount :=
  (mostFrequent textBefore (tally ((tagsOf events).map Tag.key))).map fun (key, count) =>
    ⟨key, count⟩

/-- How often each tag occurs in an issue. -/
def tagTotals (log : EventLog) (c : IssueCriteria) : List TagCount :=
  (keyCounts (log.ofIssue c)).take maxTagRows

/-- One event of an issue: the one with an identifier, in which hyphens do not count, or else the
earliest in the window. -/
def issueEvent (log : EventLog) (c : IssueCriteria) : Option StoredEvent :=
  let found :=
    if c.eventId.isEmpty then log.ofIssue c
    else
      let plainId := String.ofList (c.eventId.toList.filter (· != '-'))
      log.visible.filter fun e => e.record.groupId = c.groupId && e.record.projectId = c.projectId
        && e.record.eventId = plainId
  (oldestFirst StoredEvent.createdAt StoredEvent.id found).head?

/-- The events that meet the criteria. -/
def matching (log : EventLog) (c : EventsCriteria) : List StoredEvent :=
  log.visible.filter fun e => e.record.groupId = c.groupId && c.window.opens e.createdAt
    && (c.message.isEmpty || Text.isFoundIn c.message e.record.message)
    && c.filters.all e.meets && c.projectIds.contains e.record.projectId

/-- A page of the events that meet the criteria, the newest first. -/
def listEvents (log : EventLog) (c : EventsCriteria) : List StoredEvent :=
  page c.offset c.limit (newestFirst StoredEvent.createdAt StoredEvent.id (log.matching c))

/-- The number of events that meet the criteria. -/
def countEvents (log : EventLog) (c : EventsCriteria) : Nat := (log.matching c).length

/-- The issues with an event in the closed window that fits every token. -/
def groupIds (log : EventLog) (c : SearchCriteria) : List Int :=
  let found := log.visible.filter fun e => c.projectIds.contains e.record.projectId
    && c.window.covers e.createdAt && c.tokens.all e.fits
  (found.map fun e => e.record.groupId).eraseDups.mergeSort fun a b => decide (a ≤ b)

/-- The events of an issue by day, the newest day first. -/
def perDay (log : EventLog) (c : IssueCriteria) : List DayCount :=
  let days := (log.ofIssue c).map fun e => e.createdAt.startOfDay
  ((tally days).mergeSort fun a b => decide (b.1 ≤ a.1)).map fun (day, count) =>
    ⟨day, c.groupId, count⟩

/-- The events of projects by hour, the oldest hour first. -/
def perHour (log : EventLog) (c : ProjectsCriteria) : List HourCount :=
  let keys := (log.ofProjects c Window.opens).map fun e =>
    (e.createdAt.startOfHour, e.record.projectId)
  let sorted := (tally keys).mergeSort fun a b =>
    decide (a.1.1 < b.1.1) || (decide (a.1.1 = b.1.1) && decide (a.1.2 ≤ b.1.2))
  (sorted.take maxHourRows).map fun ((hour, projectId), count) => ⟨hour, projectId, count⟩

/-- The most frequent tag keys of projects in the closed window. -/
def popularTags (log : EventLog) (c : ProjectsCriteria) : List TagCount :=
  page 0 c.limit (keyCounts (log.ofProjects c Window.covers))

/-- The most frequent values of a tag key in the closed window. -/
def tagValues (log : EventLog) (c : TagCriteria) : List ValueCount :=
  let tags := (tagsOf (log.ofProjects c.projects Window.covers)).filter fun t => t.key = c.key
  page 0 c.projects.limit
    ((mostFrequent textBefore (tally (tags.map Tag.value))).map fun (value, count) =>
      ⟨value, count⟩)

/-- Tags of projects, the most frequent first, to suggest as filters. -/
def suggestedFilters (log : EventLog) (c : ProjectsCriteria) : List Tag :=
  page 0 (min c.limit maxTagRows)
    ((mostFrequent tagBefore (tally (tagsOf (log.ofProjects c Window.opens)))).map Prod.fst)

/-- The tables that an embedded log keeps, the one with more rows first. -/
def tableSizes (log : EventLog) : List Diagnostics.TableSize :=
  if log.dropped then []
  else
    let size (name : String) (rows : Nat) : Diagnostics.TableSize :=
      ⟨name, (readableSize? 0).getD "", 0, rows, "sqlite", ""⟩
    [size "event_tags" (tagsOf log.events).length, size "events" log.events.length].mergeSort
      fun a b => decide (b.totalRows ≤ a.totalRows)

end EventLog
end Triage
