import Triage.Number.ReadableSize
import Triage.Schema.Checked

/-!
# Database diagnostics

What a database server reports about itself: sizes of its tables, its heaviest statements with their
share of all bytes read, and its error counters since a time.
-/

namespace Triage.Diagnostics

open Schema

/-- A table and its size. -/
structure TableSize where
  name : String
  readableBytes : String
  totalBytes : Int
  totalRows : Int
  engine : String
  partitionKey : String
deriving DecidableEq, Repr

/-- A statement and what it costs. -/
structure Statement where
  text : String
  averageDuration : Float
  averageRows : Float
  calls : Int
  readBytes : Int
  readableBytes : String
  runtimePercent : Float
  digest : String
  readPercent : Float

/-- An error counter. -/
structure ErrorCount where
  name : String
  count : Int
  lastSeen : Option Instant
deriving DecidableEq, Repr

/-- A whole number reported by a server, where nothing counts as zero. -/
def reportedWhole : Json → Int
  | .int n => n
  | .bool b => if b then 1 else 0
  | .decimal d => Binary64.wholePart d
  | _ => 0

/-- A number reported by a server, where nothing counts as zero. -/
def reportedFloat : Json → Float
  | .decimal d => Binary64.ofDecimal d
  | j => (Binary64.ofRatio? (reportedWhole j) 1).getD 0

/-- A text reported by a server, where nothing counts as empty. -/
def reportedText : Reader String
  | .null => .good ""
  | j => text j

/-- The sizes of the tables of a server that keeps rows in heaps. -/
def tableSizes (rows : List Json) : Checked (List TableSize) :=
  .each (rows.map fun row =>
    TableSize.mk <$> (text (row.getD "name")).under "name"
      <*> (text (row.getD "readable_bytes")).under "readable_bytes"
      <*> pure (reportedWhole (row.getD "total_bytes"))
      <*> pure (reportedWhole (row.getD "total_rows")) <*> pure "heap" <*> pure "")

/-- The share of a part in a total, in percent; there is none of a total of zero. -/
def percentOf (part total : Int) : Float :=
  if total = 0 then 0
  else
    let signed := if total < 0 then -part else part
    ((Binary64.ofRatio? signed total.natAbs).getD 0) * 100

/-- The statement of a row, before its share of all bytes is known. -/
def statement (row : Json) : Checked Statement :=
  let readBytes := reportedWhole (row.getD "read_bytes")
  let build (text digest : String) : Statement := {
    text
    averageDuration := reportedFloat (row.getD "avg_duration")
    averageRows := reportedFloat (row.getD "avg_result_rows")
    calls := reportedWhole (row.getD "total_calls")
    readBytes
    readableBytes := (readableSize? readBytes).getD ""
    runtimePercent := reportedFloat (row.getD "percentage_runtime")
    digest
    readPercent := 0 }
  build <$> (text (row.getD "normalized_query")).under "normalized_query"
    <*> (reportedText (row.getD "normalized_query_hash")).under "normalized_query_hash"

/-- The heaviest statements with their shares. -/
def statements (rows : List Json) : Checked (List Statement) :=
  (fun found =>
    let total := (found.map Statement.readBytes).foldr (· + ·) 0
    found.map fun s => { s with readPercent := percentOf s.readBytes total })
  <$> .each (rows.map statement)

/-- The error counters of a server that are not zero and, as far as known, moved after a time; the
largest first. -/
def errorCounts (row : Json) (checksumFailure statsReset : Option Instant) (since : Instant) :
    List ErrorCount :=
  let lastSeen := checksumFailure <|> statsReset
  let counters : List ErrorCount := [
    ⟨"checksum_failures", reportedWhole (row.getD "checksum_failures"), checksumFailure⟩,
    ⟨"deadlocks", reportedWhole (row.getD "deadlocks"), lastSeen⟩,
    ⟨"conflicts", reportedWhole (row.getD "conflicts"), lastSeen⟩,
    ⟨"xact_rollback", reportedWhole (row.getD "xact_rollback"), lastSeen⟩]
  (counters.filter fun c =>
    c.count != 0 && (c.lastSeen.map fun t => decide (since < t)).getD true).mergeSort
      fun a b => decide (b.count ≤ a.count)

end Triage.Diagnostics
