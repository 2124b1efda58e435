import Triage.Schema.Checked
import Triage.Search.Tag

/-!
# Stored events

The event log only grows.  An entry is a record, ready to be appended, under the next number; its
tags keep their order and carry their hashes.  The one later change is that an event can be marked
as deleted.
-/

namespace Triage

open Schema

/-- An event, ready to be appended. -/
structure EventRecord where
  eventId : String
  projectId : Int
  groupId : Int
  createdAt : Instant
  retentionDays : Int
  platform : String
  level : String
  env : String
  release : String
  user : String
  userEmail : String
  userName : String
  userUsername : String
  message : String
  title : String
  primaryHash : String
  sdkName : String
  sdkVersion : String
  exception : List Json
  tags : List Tag

/-- A tag of a stored event. -/
structure StoredTag where
  tag : Tag
  hash : Int
deriving DecidableEq, Repr

/-- A stored event. -/
structure StoredEvent where
  id : Int
  record : EventRecord
  tags : List StoredTag
  deleted : Bool

/-- The event log. -/
structure EventLog where
  events : List StoredEvent
  dropped : Bool

/-- A log without events. -/
def EventLog.empty : EventLog := ⟨[], false⟩

/-- How long an event is kept unless something else is asked for. -/
def defaultRetentionDays : Int := 90

/-- A tag as it is stored. -/
def Tag.stored (t : Tag) : StoredTag := ⟨t, t.hash⟩

/-- A record as the event of a number. -/
def EventRecord.stored (r : EventRecord) (id : Int) : StoredEvent :=
  ⟨id, r, r.tags.map Tag.stored, false⟩

/-- Reads a tag, written as a pair. -/
def Tag.read : Reader Tag := fun j => (fun (key, value) => ⟨key, value⟩) <$> textPair j

/-- Reads a record. -/
def EventRecord.read : Reader EventRecord := record fun j =>
  let plain (key : String) : Checked String := withDefault key "" text j
  EventRecord.mk <$> required "event_id" text j <*> required "project_id" whole j
    <*> required "group_id" whole j <*> required "created_at" timestamp j
    <*> withDefault "retention_days" defaultRetentionDays whole j <*> plain "platform"
    <*> withDefault "level" "error" text j <*> plain "env" <*> plain "release" <*> plain "user"
    <*> plain "user_email" <*> plain "user_name" <*> plain "user_username" <*> plain "message"
    <*> plain "title" <*> plain "primary_hash" <*> plain "sdk_name" <*> plain "sdk_version"
    <*> withDefault "exception" [] (list anyObject) j <*> withDefault "tags" [] (list Tag.read) j

/-- A stored event as a document with every column. -/
def StoredEvent.document (e : StoredEvent) : Json :=
  let r := e.record
  .obj [
    ("id", .int e.id), ("event_id", .str r.eventId), ("project_id", .int r.projectId),
    ("group_id", .int r.groupId), ("created_at", .str r.createdAt.stamp),
    ("deleted", .bool e.deleted), ("retention_days", .int r.retentionDays),
    ("platform", .str r.platform), ("level", .str r.level), ("env", .str r.env),
    ("release", .str r.release), ("user", .str r.user), ("user_email", .str r.userEmail),
    ("user_name", .str r.userName), ("user_username", .str r.userUsername),
    ("message", .str r.message), ("title", .str r.title), ("primary_hash", .str r.primaryHash),
    ("sdk_name", .str r.sdkName), ("sdk_version", .str r.sdkVersion),
    ("exception", if r.exception.isEmpty then .null else .arr r.exception),
    ("tags", .arr (e.tags.zipIdx.map fun (t, position) => .arr [
      .nat position, .str t.tag.key, .str t.tag.value, .str (Text.intText t.hash)]))]

end Triage
