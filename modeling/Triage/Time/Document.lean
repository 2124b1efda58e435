import Triage.Number.Binary64
import Triage.Time.Iso

/-!
# Timestamps of documents

The narrower timestamp form that documents carry: a calendar date, alone or with a time of at least
hours and minutes, an optional fraction, and an optional zone.  A number is a count of seconds since
1970, or of milliseconds when it is too large for that.
-/

namespace Triage.Time

/-- Hours and minutes of a zone offset, with or without a colon. -/
def readZoneMinutes? (text : List Char) : Option Int := do
  let (hours, rest) ← takeNumber? 2 text
  let rest :=
    match rest with
    | ':' :: rest => rest
    | _ => rest
  let (minutes, rest) ← takeNumber? 2 rest
  if !rest.isEmpty || 23 < hours || 59 < minutes then none
  else return (hours * 60 + minutes : Nat)

/-- A zone: a `Z`, or a signed offset; nothing means UTC.  The offset is in microseconds. -/
def readZone? : List Char → Option Int
  | [] => some 0
  | ['Z'] => some 0
  | ['z'] => some 0
  | '+' :: rest => (readZoneMinutes? rest).map (· * 60 * Instant.second)
  | '-' :: rest => (readZoneMinutes? rest).map (- · * 60 * Instant.second)
  | '\u2212' :: rest => (readZoneMinutes? rest).map (- · * 60 * Instant.second)
  | _ => none

/-- A time of day at the front of a text, and the text after it. -/
def readDocumentClock? (text : List Char) : Option (ClockFields × List Char) := do
  let (hour, rest) ← takeNumber? 2 text
  let ':' :: rest := rest | none
  let (minute, rest) ← takeNumber? 2 rest
  if 23 < hour || 59 < minute then none
  match rest with
  | ':' :: rest =>
    let (second, rest) ← takeNumber? 2 rest
    if 59 < second then none
    match rest with
    | c :: tail =>
      if c = '.' || c = ',' then
        let digits := tail.takeWhile Text.isAsciiDigit
        return (⟨hour, minute, second, ← readFraction? digits⟩, tail.drop digits.length)
      else return (⟨hour, minute, second, 0⟩, rest)
    | [] => return (⟨hour, minute, second, 0⟩, rest)
  | _ => return (⟨hour, minute, 0, 0⟩, rest)

/-- The instant of a count of seconds, or of milliseconds when the count exceeds 2·10¹⁰. -/
def ofUnixCount? (count : Decimal) : Option Instant :=
  let seconds := count.truncate
  let exponent := if 20000000000 < seconds.natAbs then count.exponent + 3 else count.exponent + 6
  let instant := Instant.unixEpoch.shift (Decimal.truncate { count with exponent })
  if instant.representable then some instant else none

/-- A text that is a plain decimal number. -/
def readCount? (text : List Char) : Option Decimal := do
  let (negative, rest) :=
    match text with
    | '-' :: rest => (true, rest)
    | '+' :: rest => (false, rest)
    | _ => (false, text)
  let whole := rest.takeWhile Text.isAsciiDigit
  let fraction ←
    match rest.drop whole.length with
    | [] => some []
    | '.' :: digits => some digits
    | _ => none
  return ⟨negative, ← Text.readNat? (whole ++ fraction), -(fraction.length : Int)⟩

/-- The instant of a document's timestamp text. -/
def readDocument? (text : String) : Option Instant := do
  let chars := text.toList
  let calendar : Option Instant := do
    let (year, rest) ← takeNumber? 4 chars
    let '-' :: rest := rest | none
    let (month, rest) ← takeNumber? 2 rest
    let '-' :: rest := rest | none
    let (day, rest) ← takeNumber? 2 rest
    let .ok date := (DateFields.calendar year month day).resolve? text | none
    match rest with
    | [] => return Instant.ofDate date 0 0 0 0
    | c :: rest =>
      if !(c = 'T' || c = 't' || c = ' ' || c = '_') then none
      let (clock, rest) ← readDocumentClock? rest
      let offset ← readZone? rest
      let instant := Instant.ofDate date clock.hour clock.minute clock.second clock.micro
      return instant.shift (-offset)
  calendar <|> (readCount? chars).bind ofUnixCount?

end Triage.Time
