import Triage.Schema.Checked
import Triage.Search.Query

/-!
# Criteria

What a query of the event log is about: projects, issues and a window of time, and what else narrows
it.
-/

namespace Triage

open Schema

/-- A span of time. -/
structure Window where
  start : Instant
  stop : Instant
deriving DecidableEq, Repr

/-- The window with both its ends. -/
def Window.covers (w : Window) (t : Instant) : Bool := decide (w.start ≤ t) && decide (t ≤ w.stop)

/-- The window without its end. -/
def Window.opens (w : Window) (t : Instant) : Bool := decide (w.start ≤ t) && decide (t < w.stop)

/-- Some issues of some projects. -/
structure IssuesCriteria where
  projectIds : List Int
  groupIds : List Int
  window : Window

/-- One issue of one project; an event identifier narrows it to one event. -/
structure IssueCriteria where
  projectId : Int
  groupId : Int
  window : Window
  eventId : String

/-- Events of one issue with a text in the message and with and without tags; a page of them. -/
structure EventsCriteria where
  projectIds : List Int
  groupId : Int
  window : Window
  message : String
  filters : List Search.TagFilter
  limit : Int
  offset : Int

/-- Some projects. -/
structure ProjectsCriteria where
  projectIds : List Int
  window : Window
  limit : Int

/-- One tag key in some projects. -/
structure TagCriteria where
  projects : ProjectsCriteria
  key : String

/-- Issues of some projects with an event that fits every token. -/
structure SearchCriteria where
  projectIds : List Int
  window : Window
  tokens : List Search.Token

/-- Reads a window. -/
def Window.read (j : Json) : Checked Window :=
  Window.mk <$> required "start" timestamp j <*> required "end" timestamp j

/-- Reads criteria about some issues. -/
def IssuesCriteria.read : Reader IssuesCriteria := record fun j =>
  IssuesCriteria.mk <$> required "project_ids" (list whole) j
    <*> required "group_ids" (list whole) j <*> Window.read j

/-- Reads criteria about one issue. -/
def IssueCriteria.read : Reader IssueCriteria := record fun j =>
  IssueCriteria.mk <$> required "project_id" whole j <*> required "group_id" whole j
    <*> Window.read j <*> withDefault "event_id" "" text j

/-- Reads a tag filter. -/
def readTagFilter : Reader Search.TagFilter := record fun j =>
  (fun key value negated => ⟨⟨key, value⟩, negated⟩) <$> required "key" text j
    <*> required "value" text j <*> withDefault "negated" false truth j

/-- Reads criteria about the events of an issue. -/
def EventsCriteria.read : Reader EventsCriteria := record fun j =>
  EventsCriteria.mk <$> required "project_ids" (list whole) j <*> required "group_id" whole j
    <*> Window.read j <*> withDefault "message" "" text j
    <*> withDefault "predicates" [] (list readTagFilter) j <*> withDefault "limit" 50 whole j
    <*> withDefault "offset" 0 whole j

/-- Reads criteria about some projects. -/
def ProjectsCriteria.read : Reader ProjectsCriteria := record fun j =>
  ProjectsCriteria.mk <$> required "project_ids" (list whole) j <*> Window.read j
    <*> withDefault "limit" 1000 whole j

/-- Reads criteria about a tag key. -/
def TagCriteria.read : Reader TagCriteria := record fun j =>
  TagCriteria.mk <$> ProjectsCriteria.read j <*> required "tag" text j

/-- The operator of a token that must not be there. -/
def negatedOperator : String := "is not"

/-- Reads a token, which says itself whether it is text. -/
def readToken : Reader Search.Token := record fun j =>
  (fun key value operator isText =>
    if isText then .text value else .filter ⟨key, value⟩ (operator == negatedOperator))
  <$> withDefault "key" "" text j <*> withDefault "value" "" text j
    <*> withDefault "operator" "is" text j <*> withDefault "is_raw_text" false truth j

end Triage
