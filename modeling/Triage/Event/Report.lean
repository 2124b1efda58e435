import Triage.Schema.Checked

/-!
# Error reports

A report is one error event as a client submits it: what was thrown, with stack frames, and where it
happened.  `Report.read` checks a document, `Report.document` writes one with every field.
-/

namespace Triage

open Schema

/-- One stack frame.  Frames are ordered with the oldest call first. -/
structure Frame where
  function : String
  module : String
  filename : String
  absPath : String
  line : Int
  column : Int
  inApp : Bool
  contextLine : String
  preContext : List String
  postContext : List String
deriving DecidableEq, Repr

/-- One thrown error with its stack. -/
structure Thrown where
  kind : String
  value : String
  module : String
  frames : List Frame
deriving DecidableEq, Repr

/-- The user a report is about. -/
structure ReportUser where
  id : String
  email : String
  username : String
  name : String
  ipAddress : String
deriving DecidableEq, Repr

/-- The client library that sent a report. -/
structure Client where
  name : String
  version : String
deriving DecidableEq, Repr

/-- An error report.  Thrown errors are ordered with the innermost first. -/
structure Report where
  eventId : String
  timestamp : Instant
  message : String
  level : String
  platform : String
  release : String
  environment : String
  serverName : String
  tags : List (String × String)
  user : ReportUser
  client : Client
  thrown : List Thrown
  osName : Option String
deriving DecidableEq, Repr

/-- A text member that is empty when absent. -/
def optionalText (key : String) : Reader String := withDefault key "" text

/-- Reads a stack frame. -/
def Frame.read : Reader Frame := record fun j =>
  Frame.mk <$> optionalText "function" j <*> optionalText "module" j <*> optionalText "filename" j
    <*> optionalText "abs_path" j <*> withDefault "lineno" 0 whole j
    <*> withDefault "colno" 0 whole j <*> withDefault "in_app" false truth j
    <*> optionalText "context_line" j <*> withDefault "pre_context" [] (list text) j
    <*> withDefault "post_context" [] (list text) j

/-- Reads a stack: an object that holds the frames. -/
def readStack : Reader (List Frame) := record (withDefault "frames" [] (list Frame.read))

/-- Reads a thrown error. -/
def Thrown.read : Reader Thrown := record fun j =>
  Thrown.mk <$> optionalText "type" j <*> optionalText "value" j <*> optionalText "module" j
    <*> withDefault "stacktrace" [] readStack j

/-- A user of whom nothing is known. -/
def ReportUser.unknown : ReportUser := ⟨"", "", "", "", ""⟩

/-- Reads the user of a report. -/
def ReportUser.read : Reader ReportUser := record fun j =>
  ReportUser.mk <$> optionalText "id" j <*> optionalText "email" j <*> optionalText "username" j
    <*> optionalText "name" j <*> optionalText "ip_address" j

/-- Reads the client of a report. -/
def Client.read : Reader Client := record fun j =>
  Client.mk <$> optionalText "name" j <*> optionalText "version" j

/-- Reads a report; its timestamp is the current time when it has none. -/
def Report.read (now : Instant) : Reader Report := record fun j =>
  Report.mk <$> required "event_id" text j <*> withDefault "timestamp" now Schema.timestamp j
    <*> optionalText "message" j <*> withDefault "level" "error" text j
    <*> optionalText "platform" j <*> optionalText "release" j <*> optionalText "environment" j
    <*> optionalText "server_name" j <*> withDefault "tags" [] (dictionary text) j
    <*> withDefault "user" .unknown ReportUser.read j <*> withDefault "sdk" ⟨"", ""⟩ Client.read j
    <*> withDefault "exception" [] (list Thrown.read) j
    <*> withDefault "os_name" none nullableText j

/-- A frame as a document. -/
def Frame.document (f : Frame) : Json := .obj [
  ("function", .str f.function), ("module", .str f.module), ("filename", .str f.filename),
  ("abs_path", .str f.absPath), ("lineno", .int f.line), ("colno", .int f.column),
  ("in_app", .bool f.inApp), ("context_line", .str f.contextLine),
  ("pre_context", .ofList .str f.preContext), ("post_context", .ofList .str f.postContext)]

/-- A thrown error as a document. -/
def Thrown.document (t : Thrown) : Json := .obj [
  ("type", .str t.kind), ("value", .str t.value), ("module", .str t.module),
  ("stacktrace", .obj [("frames", .ofList Frame.document t.frames)])]

/-- A report as a document with every field. -/
def Report.document (r : Report) : Json := .obj [
  ("event_id", .str r.eventId), ("timestamp", .str r.timestamp.stamp),
  ("message", .str r.message), ("level", .str r.level), ("platform", .str r.platform),
  ("release", .str r.release), ("environment", .str r.environment),
  ("server_name", .str r.serverName),
  ("tags", .obj (r.tags.map fun t => (t.1, .str t.2))),
  ("user", .obj [("id", .str r.user.id), ("email", .str r.user.email),
    ("username", .str r.user.username), ("name", .str r.user.name),
    ("ip_address", .str r.user.ipAddress)]),
  ("sdk", .obj [("name", .str r.client.name), ("version", .str r.client.version)]),
  ("exception", .ofList Thrown.document r.thrown),
  ("os_name", .ofOption .str r.osName)]

end Triage
