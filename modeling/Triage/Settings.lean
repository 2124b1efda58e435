import Triage.EventLog.Documents
import Triage.Number.Reader

/-!
# Settings

The settings of a deployment, read from environment variables whose names are taken in any case.
-/

namespace Triage

open Schema

/-- The settings of a deployment. -/
structure Settings where
  appEnv : String
  logLevel : String
  databaseUrl : String
  databasePoolSize : Int
  databaseMaxOverflow : Int
  analyticsDatabaseUrl : String
  analyticsAsyncInsertWait : Bool
  connectTimeoutSeconds : Int
  encryptionKey : String
  alertWorkerIntervalSeconds : Int
  alertLockSeconds : Int
  alertWorkerInstanceId : String
  webhookTimeoutSeconds : Float
  sentryDsn : String

namespace Settings

/-- Reads a binary64 number from its text; blanks around it do not count. -/
def float : Reader Float
  | .str s =>
    match Number.readFloat? (trimmed s) with
    | some value => .good value
    | none => .fault "float_parsing"
  | _ => .fault "float_type"

/-- An environment with its variable names in lower case. -/
def lowered (environment : Json) : Json :=
  .obj (environment.members.map fun (name, value) =>
    (String.ofList (name.toList.map Text.lowerForAscii), value))

/-- Reads the settings from an environment. -/
def read (environment : Json) : Checked Settings :=
  let env := lowered environment
  Settings.mk <$> withDefault "app_env" "development" text env
    <*> withDefault "log_level" "INFO" text env
    <*> required "database_url" text env
    <*> withDefault "database_pool_size" 20 whole env
    <*> withDefault "database_max_overflow" 10 whole env
    <*> withDefault "analytics_database_url" "" text env
    <*> withDefault "analytics_async_insert_wait" true truth env
    <*> withDefault "connect_timeout_seconds" 30 whole env
    <*> withDefault "encryption_key" "" text env
    <*> withDefault "alert_worker_interval_seconds" 60 whole env
    <*> withDefault "alert_lock_seconds" 300 whole env
    <*> withDefault "alert_worker_instance_id" "" text env
    <*> withDefault "webhook_timeout_seconds" 10 float env
    <*> withDefault "sentry_dsn" "" text env

/-- Where the event log is: in the registry's database unless it has its own. -/
def eventLogUrl (s : Settings) : String :=
  if s.analyticsDatabaseUrl.isEmpty then s.databaseUrl else s.analyticsDatabaseUrl

/-- Whether statements are echoed: when debugging in development. -/
def echoes (s : Settings) : Bool :=
  s.appEnv = "development"
    && String.ofList (s.logLevel.toList.flatMap Text.upperForAscii) = "DEBUG"

/-- Whether the connections to a database are pooled: to any but an embedded one. -/
def isPooled (url : String) : Bool := !Text.startsWith url "sqlite"

/-- Whether secrets can be stored. -/
def hasCipher (s : Settings) : Bool := !s.encryptionKey.isEmpty

/-- The identifier of this instance, if one is configured. -/
def instanceId? (s : Settings) : Option String :=
  if s.alertWorkerInstanceId.isEmpty then none else some s.alertWorkerInstanceId

/-- The longest span of time, in days. -/
def maxSpanDays : Nat := 999999999

/-- The length of a lease in microseconds, which must be a span of time. -/
def leaseMicros (s : Settings) : Except Failure Int :=
  let days := s.alertLockSeconds.fdiv 86400
  if maxSpanDays < days.natAbs then .error (.spanTooLong days)
  else .ok (s.alertLockSeconds * Instant.second)

/-- The settings as a document. -/
def document (s : Settings) : List (String × Json) := [
  ("app_env", .str s.appEnv), ("log_level", .str s.logLevel), ("database_url", .str s.databaseUrl),
  ("database_pool_size", .int s.databasePoolSize),
  ("database_max_overflow", .int s.databaseMaxOverflow),
  ("analytics_database_url", .str s.analyticsDatabaseUrl),
  ("analytics_async_insert_wait", .bool s.analyticsAsyncInsertWait),
  ("connect_timeout_seconds", .int s.connectTimeoutSeconds),
  ("encryption_key", .str s.encryptionKey),
  ("alert_worker_interval_seconds", .int s.alertWorkerIntervalSeconds),
  ("alert_lock_seconds", .int s.alertLockSeconds),
  ("alert_worker_instance_id", .str s.alertWorkerInstanceId),
  ("webhook_timeout_seconds", bitsDocument s.webhookTimeoutSeconds),
  ("sentry_dsn", .str s.sentryDsn)]

/-- The options of the connections to a database as a document. -/
def connectionDocument (s : Settings) (url : String) : Json := .obj (
  ("echo", .bool s.echoes) ::
    if isPooled url then [
      ("pool_size", .int s.databasePoolSize), ("max_overflow", .int s.databaseMaxOverflow),
      ("pool_pre_ping", .bool true)]
    else [])

end Settings
end Triage
