import Triage.Alert.Management
import Triage.Alert.Rule
import Triage.Alert.Worker
import Triage.Cipher.Aes256
import Triage.Cipher.Galois
import Triage.Cipher.SecretCipher
import Triage.Connect.Incident
import Triage.Connect.Retry
import Triage.Deployment.Interleaving
import Triage.Deployment.Lemmas
import Triage.Deployment.Program
import Triage.Deployment.Request
import Triage.Deployment.Shutdown
import Triage.Deployment.State
import Triage.Diagnostics
import Triage.Digest.Blake2b
import Triage.Digest.Blocks
import Triage.Digest.Md5
import Triage.Digest.Sha256
import Triage.Event.Grouping
import Triage.Event.Ingestion
import Triage.Event.IssueCache
import Triage.Event.Report
import Triage.EventLog.Calls
import Triage.EventLog.Criteria
import Triage.EventLog.Documents
import Triage.EventLog.Queries
import Triage.EventLog.Rows
import Triage.Failure
import Triage.Json.Reader
import Triage.Json.Value
import Triage.Json.Writer
import Triage.Log.Correlation
import Triage.Log.Entry
import Triage.Log.Line
import Triage.Log.Severity
import Triage.Log.Template
import Triage.Message.Normal
import Triage.Message.Volatile
import Triage.Number.Binary64
import Triage.Number.ReadableSize
import Triage.Number.Reader
import Triage.Pattern.Basic
import Triage.Proofs.Alert.Announcing
import Triage.Proofs.Alert.Checks
import Triage.Proofs.Alert.Coverage
import Triage.Proofs.Alert.Decision
import Triage.Proofs.Alert.Edits
import Triage.Proofs.Alert.Halves
import Triage.Proofs.Alert.Hitches
import Triage.Proofs.Alert.Isolation
import Triage.Proofs.Alert.Listing
import Triage.Proofs.Alert.Managing
import Triage.Proofs.Alert.Posting
import Triage.Proofs.Alert.Reading
import Triage.Proofs.Alert.Refusals
import Triage.Proofs.Alert.SecondTick
import Triage.Proofs.Alert.SoundRules
import Triage.Proofs.Alert.Soundness
import Triage.Proofs.Alert.TickConduct
import Triage.Proofs.Alert.Transitions
import Triage.Proofs.Alert.Treatment
import Triage.Proofs.Alert.Trials
import Triage.Proofs.Alert.Turns
import Triage.Proofs.Alert.Undisturbed
import Triage.Proofs.Alert.Watch
import Triage.Proofs.Cipher.Blocks
import Triage.Proofs.Cipher.RoundTrip
import Triage.Proofs.Connect.Retrying
import Triage.Proofs.Connect.WayBack
import Triage.Proofs.Deployment.Additions
import Triage.Proofs.Deployment.Adversity
import Triage.Proofs.Deployment.CleanFailure
import Triage.Proofs.Deployment.Conduct
import Triage.Proofs.Deployment.Effects
import Triage.Proofs.Deployment.Requests
import Triage.Proofs.Deployment.Responsive
import Triage.Proofs.Deployment.Running
import Triage.Proofs.Deployment.Schedules
import Triage.Proofs.Deployment.Units
import Triage.Proofs.Digest.Blocks
import Triage.Proofs.Event.Aftermath
import Triage.Proofs.Event.Answers
import Triage.Proofs.Event.Errands
import Triage.Proofs.Event.Filing
import Triage.Proofs.Event.Grouping
import Triage.Proofs.Event.LastSeen
import Triage.Proofs.Event.Marking
import Triage.Proofs.Event.Pages
import Triage.Proofs.Event.Remembering
import Triage.Proofs.Event.Retouching
import Triage.Proofs.Event.RolledBack
import Triage.Proofs.Event.Searching
import Triage.Proofs.Event.Shapes
import Triage.Proofs.Event.Shares
import Triage.Proofs.Event.Tallies
import Triage.Proofs.Event.Upkeep
import Triage.Proofs.EventLog.AppendOrder
import Triage.Proofs.EventLog.Counting
import Triage.Proofs.EventLog.Lookup
import Triage.Proofs.EventLog.Matching
import Triage.Proofs.EventLog.Metrics
import Triage.Proofs.EventLog.Tally
import Triage.Proofs.EventLog.TopRows
import Triage.Proofs.Json.Decimals
import Triage.Proofs.Json.Printable
import Triage.Proofs.Json.Reading
import Triage.Proofs.Json.Spelling
import Triage.Proofs.Json.Written
import Triage.Proofs.Log.Lines
import Triage.Proofs.Message.Crossing
import Triage.Proofs.Message.Interchange
import Triage.Proofs.Message.Rewriting
import Triage.Proofs.Message.Rounds
import Triage.Proofs.Message.Settled
import Triage.Proofs.Message.Settling
import Triage.Proofs.Message.Shapes
import Triage.Proofs.Message.Weight
import Triage.Proofs.Number.Bits
import Triage.Proofs.Number.Rounding
import Triage.Proofs.Number.Shortest
import Triage.Proofs.Pattern.Carrying
import Triage.Proofs.Pattern.Exact
import Triage.Proofs.Pattern.Occurrence
import Triage.Proofs.Pattern.Reading
import Triage.Proofs.Pattern.Swaps
import Triage.Proofs.Ranking
import Triage.Proofs.Registry.AlertRows
import Triage.Proofs.Registry.Footprint
import Triage.Proofs.Registry.Issues
import Triage.Proofs.Registry.Keys
import Triage.Proofs.Registry.Leases
import Triage.Proofs.Registry.Paging
import Triage.Proofs.Registry.Webhooks
import Triage.Proofs.Search.FieldQueries
import Triage.Proofs.Search.Joining
import Triage.Proofs.Search.TagText
import Triage.Proofs.Search.Writing
import Triage.Proofs.Text.Alphabets
import Triage.Proofs.Text.Base64
import Triage.Proofs.Text.Containment
import Triage.Proofs.Text.Finding
import Triage.Proofs.Text.Numerals
import Triage.Proofs.Text.Utf8
import Triage.Proofs.Time.Calendar
import Triage.Proofs.Time.Rfc3339
import Triage.Proofs.Webhook.Body
import Triage.Proofs.Webhook.Checking
import Triage.Proofs.Webhook.Clearing
import Triage.Proofs.Webhook.Deliveries
import Triage.Proofs.Webhook.FailedSaves
import Triage.Proofs.Webhook.FirstSaves
import Triage.Proofs.Webhook.Footing
import Triage.Proofs.Webhook.SaveHistory
import Triage.Proofs.Webhook.Sending
import Triage.Proofs.Webhook.Settings
import Triage.Proofs.Webhook.Signing
import Triage.Registry.Calls
import Triage.Registry.Documents
import Triage.Registry.Drafts
import Triage.Registry.Rows
import Triage.Registry.Tables
import Triage.Schema.Checked
import Triage.Search.Fields
import Triage.Search.Query
import Triage.Search.Tag
import Triage.Settings
import Triage.Text.Base64
import Triage.Text.Classes
import Triage.Text.Numeral
import Triage.Text.Quoted
import Triage.Text.Search
import Triage.Text.Utf8
import Triage.Text.Wildcard
import Triage.Time.Calendar
import Triage.Time.Document
import Triage.Time.Instant
import Triage.Time.Iso
import Triage.Webhook.Http
import Triage.Webhook.Notifier
import Triage.Webhook.Payload
import Triage.Webhook.Signature
import Triage.Webhook.TeamSettings
