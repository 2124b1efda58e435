import Triage.Event.Report
import Triage.Message.Normal
import Triage.Digest.Md5

/-!
# Grouping of reports

Two reports belong to the same issue when their grouping texts have the same MD5 digest.  A report
whose first thrown error has stack frames is grouped by the shape of its stacks, any other by its
normalised message, level and platform.  The module also derives what an issue shows: value and kind
of the outermost error, and the place it came from.
-/

namespace Triage

/-- Lines within one bucket of this size are not told apart. -/
def lineBucket : Int := 10

/-- The first line of the bucket of a line. -/
def bucketStart (line : Int) : Int := line.fdiv lineBucket * lineBucket

/-- The frames of a stack that count for grouping: those of the application, or all if none is. -/
def Thrown.selectedFrames (t : Thrown) : List Frame :=
  let own := t.frames.filter (·.inApp)
  if own.isEmpty then t.frames else own

/-- What a frame contributes to the grouping text. -/
def Frame.groupingText (f : Frame) : String :=
  f.module ++ f.function ++ Text.intText (bucketStart f.line)

/-- What a thrown error contributes to the grouping text. -/
def Thrown.groupingText (t : Thrown) : String :=
  t.kind ++ String.join (t.selectedFrames.map Frame.groupingText) ++ Message.normalize t.value

namespace Report

/-- Whether the report is grouped by its stacks. -/
def groupsByStack (r : Report) : Bool :=
  match r.thrown with
  | first :: _ => !first.frames.isEmpty
  | [] => false

/-- The text whose digest is the grouping key. -/
def groupingText (r : Report) : String :=
  if r.groupsByStack then String.join (r.thrown.map Thrown.groupingText)
  else Message.normalize r.message ++ r.level ++ r.platform

/-- The grouping key: 32 hexadecimal digits. -/
def fingerprint (r : Report) : String :=
  Text.hexOfBytes (Digest.md5 (Text.utf8 r.groupingText))

/-- The user as stored with an event: a marked identifier, or nothing. -/
def userMark (r : Report) : String := if r.user.id.isEmpty then "" else "id:" ++ r.user.id

/-- A tag under a fixed key, unless its value is empty. -/
def derivedTag (key value : String) : List (String × String) :=
  if value.isEmpty then [] else [(key, value)]

/-- The tags of an event: derived ones first, then the report's own with a key and a value, in key
order. -/
def eventTags (r : Report) : List (String × String) :=
  derivedTag "env" r.environment ++ derivedTag "level" r.level ++ derivedTag "release" r.release
    ++ derivedTag "server_name" r.serverName ++ derivedTag "user" r.userMark
    ++ derivedTag "os" (r.osName.getD "")
    ++ (r.tags.filter fun t => !t.1.isEmpty && !t.2.isEmpty).mergeSort fun a b => decide (a.1 ≤ b.1)

end Report

/-- The text shown for an error without a message. -/
def defaultMessage : String := "(No error message)"

/-- The kind shown for an error that has a value only. -/
def defaultKind : String := "Error"

/-- Modules whose frames never tell where an error came from. -/
def ignoredModules : List String :=
  ["logging", "sentry_sdk", "sentry_sdk.integrations.logging", "asyncio.events"]

/-- The value of the outermost error. -/
def outermostValue (thrown : List Thrown) (default : String) : String :=
  match thrown.getLast? with
  | some t => t.value
  | none => default

/-- The kind of the outermost error; one with a value only has the default kind. -/
def outermostKind (thrown : List Thrown) (default : String) : String :=
  match thrown.getLast? with
  | some t => if !t.kind.isEmpty then t.kind else if !t.value.isEmpty then defaultKind else default
  | none => default

/-- A frame as a place. -/
def Frame.place (f : Frame) : String := f.module ++ " in " ++ f.function

/-- Where the outermost error came from: its newest frame outside the ignored modules, or else its
oldest frame. -/
def culprit (thrown : List Thrown) : String :=
  match thrown.getLast? with
  | none => ""
  | some t =>
    match t.frames.reverse.find? fun f => !ignoredModules.contains f.module, t.frames with
    | some f, _ => f.place
    | none, f :: _ => f.place
    | none, [] => ""

/-- A frame with its source lines in normal form. -/
def Frame.normalized (f : Frame) : Frame :=
  { f with
    contextLine := Message.normalize f.contextLine
    preContext := f.preContext.map Message.normalize
    postContext := f.postContext.map Message.normalize }

/-- A thrown error with its value and the source lines of its frames in normal form. -/
def Thrown.normalized (t : Thrown) : Thrown :=
  { t with value := Message.normalize t.value, frames := t.frames.map Frame.normalized }

end Triage
