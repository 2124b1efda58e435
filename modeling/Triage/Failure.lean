import Triage.Alert.Rule
import Triage.Cipher.SecretCipher
import Triage.Schema.Checked
import Triage.Time.Iso

/-!
# Failures

Every way in which an operation of the library can fail, as a cause.  `Failure.message` words a
cause and `Failure.kind` sorts causes into the kinds that callers tell apart; a failure that is
staged from outside has a kind and a text of its own.
-/

namespace Triage

/-- The kinds of failures that callers tell apart. -/
inductive FailureKind where
  | notFound
  | duplicate
  | noAccess
  | invalid
  | invalidQuery
  | registry
  | eventLog
  | connection
  | unverifiedWebhook
  | unsupportedChannel
  | undelivered
  | undecipherable
  | notText
  | document
  | badValue
  | badType
  | unknownCode
  | outOfRange
  | unsupported
  | unitBroken
  | foreign (name : String)
deriving DecidableEq, Repr

/-- Something that was looked for and is not there. -/
inductive Missing where
  | alert (id : Option Int)
  | issue (id : Option Int)
  | issueOf (projectId : Option Int) (fingerprint : Option String)
  | channel (id : Option Int)
  | webhook (channelId : Option Int)
  | delivery (id : Option Int)
  | webhookChannel (teamId : Int)
  | webhookUrl (teamId : Int)
deriving DecidableEq, Repr

/-- A constraint of a table that a write would break. -/
inductive Clash where
  | missingValue (table column : String)
  | taken (table : String) (columns : List String)
deriving DecidableEq, Repr

/-- A failure, by its cause. -/
inductive Failure where
  | notFound (missing : Missing)
  | clash (operation : String) (clash : Clash)
  | noAccessToAlert (id : Int)
  | noAccessToTeam (id : Int)
  | badRule (flaw : Rule.Flaw)
  | badQuery (query : String)
  | registry (operation : String)
  | eventLog (operation : String)
  | unitBroken
  | gaveUp (message : String)
  | webhookMissing (channelId : Option Int)
  | webhookUnverified
  | unsupportedChannel (kind : Option String)
  | notSent (text : String)
  | refused (status : Int) (body : String)
  | noCipher
  | badSecret (fault : Cipher.SecretFault)
  | badSecretOnSending (cause : Failure)
  | document (faults : List Fault)
  | timestamp (error : Time.IsoError)
  | dateOutOfRange
  | emptyKeyMaterial
  | signatureNotAscii
  | unknownCode (code : Int)
  | integerTooLarge
  | badTemplate (isTypeFault : Bool) (message : String)
  | unsupportedLocks (dialect : String)
  | spanTooLong (days : Int)
  | staged (kind : FailureKind) (text : String)

/-- A number that may be missing, as shown in a message. -/
def shownNumber : Option Int → String
  | some n => Text.intText n
  | none => "None"

/-- A text that may be missing, as shown in a message. -/
def shownText : Option String → String
  | some s => s
  | none => "None"

/-- The wording for what is missing. -/
def Missing.message : Missing → String
  | .alert id => "alert " ++ shownNumber id ++ " not found"
  | .issue id => "issue " ++ shownNumber id ++ " not found"
  | .issueOf projectId fingerprint =>
    "issue " ++ shownText fingerprint ++ " not found in project " ++ shownNumber projectId
  | .channel id => "notification channel " ++ shownNumber id ++ " not found"
  | .webhook channelId => "webhook config for channel " ++ shownNumber channelId ++ " not found"
  | .delivery id => "alert notification " ++ shownNumber id ++ " not found"
  | .webhookChannel teamId => "no webhook channel for team " ++ Text.intText teamId
  | .webhookUrl teamId => "no webhook url configured for team " ++ Text.intText teamId

/-- The wording for a broken constraint. -/
def Clash.message : Clash → String
  | .missingValue table column => "NOT NULL constraint failed: " ++ table ++ "." ++ column
  | .taken table columns =>
    "UNIQUE constraint failed: " ++ ", ".intercalate (columns.map fun c => table ++ "." ++ c)

/-- The wording for a secret that cannot be read. -/
def Cipher.SecretFault.message : Cipher.SecretFault → String
  | .notBase64 => "secret is not valid base64"
  | .tooShort => "ciphertext too short"
  | .unauthentic => "secret failed authentication"
  | .notText => "secret is not text"

namespace Failure

/-- The kind of a failure. -/
def kind : Failure → FailureKind
  | .notFound _ => .notFound
  | .clash .. => .duplicate
  | .noAccessToAlert _ => .noAccess
  | .noAccessToTeam _ => .noAccess
  | .badRule _ => .invalid
  | .badQuery _ => .invalidQuery
  | .registry _ => .registry
  | .eventLog _ => .eventLog
  | .unitBroken => .unitBroken
  | .gaveUp _ => .connection
  | .webhookMissing _ => .unverifiedWebhook
  | .webhookUnverified => .unverifiedWebhook
  | .unsupportedChannel _ => .unsupportedChannel
  | .notSent _ => .undelivered
  | .refused .. => .undelivered
  | .noCipher => .undecipherable
  | .badSecret .notText => .notText
  | .badSecret _ => .undecipherable
  | .badSecretOnSending _ => .undecipherable
  | .document _ => .document
  | .timestamp .instantOutOfRange => .outOfRange
  | .timestamp _ => .badValue
  | .dateOutOfRange => .outOfRange
  | .emptyKeyMaterial => .badValue
  | .signatureNotAscii => .badType
  | .unknownCode _ => .unknownCode
  | .integerTooLarge => .outOfRange
  | .badTemplate isTypeFault _ => if isTypeFault then .badType else .badValue
  | .unsupportedLocks _ => .unsupported
  | .spanTooLong _ => .outOfRange
  | .staged kind _ => kind

/-- The wording of a failure. -/
def message : Failure → String
  | .notFound missing => missing.message
  | .clash operation broken => operation ++ ": " ++ broken.message
  | .noAccessToAlert id => "no access to alert " ++ Text.intText id
  | .noAccessToTeam id => "no access to team " ++ Text.intText id
  | .badRule flaw => flaw.message
  | .badQuery query => "invalid query: " ++ query
  | .registry operation => "registry " ++ operation
  | .eventLog operation => "analytics store " ++ operation
  | .unitBroken =>
    "This Session's transaction has been rolled back due to a previous exception during flush."
  | .gaveUp message => message
  | .webhookMissing channelId => "webhook not configured for channel " ++ shownNumber channelId
  | .webhookUnverified => "webhook not verified"
  | .unsupportedChannel kind => "unsupported channel type: " ++ shownText kind
  | .notSent text => "webhook notifier: send request: " ++ text
  | .refused status body =>
    "webhook notifier: webhook returned non-2xx status: " ++ Text.intText status ++ ", body: "
      ++ body
  | .noCipher => "encryption key not configured"
  | .badSecret fault => fault.message
  | .badSecretOnSending cause => "webhook notifier: decrypt secret: " ++ cause.message
  | .document faults => ", ".intercalate (faults.map fun f => f.place ++ ": " ++ f.rule)
  | .timestamp error => error.message
  | .dateOutOfRange => "date value out of range"
  | .emptyKeyMaterial => "encryption key material must not be empty"
  | .signatureNotAscii => "comparing strings with non-ASCII characters is not supported"
  | .unknownCode code => Text.intText code
  | .integerTooLarge => "int too large to convert to float"
  | .badTemplate _ message => message
  | .unsupportedLocks dialect => "alert locks are not supported on " ++ dialect
  | .spanTooLong days => "days=" ++ Text.intText days ++ "; must have magnitude <= 999999999"
  | .staged _ text => text

end Failure
end Triage
