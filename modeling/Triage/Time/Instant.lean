import Triage.Time.Calendar
import Triage.Text.Numeral

/-!
# Instants

A point on the UTC time line, counted in microseconds from the start of year 1.  Instants of the
years 1 to 9999 are the representable ones.  Written forms: the full stamp with six fraction digits,
and the RFC 3339 form without a fraction.
-/

namespace Triage

open Triage.Time

/-- Microseconds since the start of year 1, UTC. -/
structure Instant where
  micros : Int
deriving DecidableEq, Repr, Inhabited

namespace Instant

/-- Microseconds in a second. -/
def second : Int := 1000000

/-- Microseconds in a day. -/
def dayMicros : Int := 86400 * second

/-- The first instant of year 10000. -/
def limit : Int := (daysBeforeYear (maxYear + 1) : Int) * dayMicros

/-- Whether the instant falls in the years 1 to 9999. -/
def representable (t : Instant) : Bool := 0 <= t.micros && t.micros < limit

/-- The instant later by a number of microseconds. -/
def shift (t : Instant) (by_ : Int) : Instant := ⟨t.micros + by_⟩

/-- The instant of a date and a time of day. -/
def ofDate (d : Date) (hour minute sec micro : Nat) : Instant :=
  ⟨((d.ordinal : Int) - 1) * dayMicros
    + (((hour : Int) * 60 + minute) * 60 + sec) * second + micro⟩

/-- The UTC date of an instant. -/
def date (t : Instant) : Date := Date.ofOrdinal ((t.micros.fdiv dayMicros).toNat + 1)

/-- Microseconds since UTC midnight. -/
def timeOfDay (t : Instant) : Nat := (t.micros.fmod dayMicros).toNat

/-- The start of the UTC hour of an instant. -/
def startOfHour (t : Instant) : Instant := ⟨t.micros - t.micros.fmod (3600 * second)⟩

/-- The instant with its fraction of a second dropped. -/
def wholeSeconds (t : Instant) : Instant := ⟨t.micros - t.micros.fmod second⟩

/-- The instant of Unix time zero. -/
def unixEpoch : Instant := ofDate ⟨1970, 1, 1⟩ 0 0 0 0

instance : LE Instant := ⟨fun a b => a.micros ≤ b.micros⟩
instance : LT Instant := ⟨fun a b => a.micros < b.micros⟩
instance (a b : Instant) : Decidable (a ≤ b) := inferInstanceAs (Decidable (a.micros ≤ b.micros))
instance (a b : Instant) : Decidable (a < b) := inferInstanceAs (Decidable (a.micros < b.micros))
instance : Ord Instant := ⟨fun a b => compare a.micros b.micros⟩

theorem le_iff {a b : Instant} : a ≤ b ↔ a.micros ≤ b.micros := Iff.rfl

theorem lt_iff {a b : Instant} : a < b ↔ a.micros < b.micros := Iff.rfl

@[simp] theorem not_lt {a b : Instant} : ¬a < b ↔ b ≤ a := Int.not_lt

@[simp] theorem not_le {a b : Instant} : ¬a ≤ b ↔ b < a := Int.not_le

/-- Hours, minutes and seconds of the UTC day, colons between them. -/
def clockDigits (t : Instant) : List Char :=
  let secs := t.timeOfDay / 1000000
  Text.paddedDigits 2 (secs / 3600) ++ ':' :: Text.paddedDigits 2 (secs / 60 % 60)
    ++ ':' :: Text.paddedDigits 2 (secs % 60)

/-- A date with a year of at least `yearWidth` digits. -/
def dateDigits (yearWidth : Nat) (d : Date) : List Char :=
  Text.paddedDigits yearWidth d.year ++ '-' :: Text.paddedDigits 2 d.month
    ++ '-' :: Text.paddedDigits 2 d.day

/-- Six fraction digits. -/
def fractionDigits (t : Instant) : List Char := Text.paddedDigits 6 (t.timeOfDay % 1000000)

/-- The full stamp: four-digit year, six fraction digits, and a `Z`. -/
def stamp (t : Instant) : String :=
  String.ofList (dateDigits 4 t.date ++ 'T' :: clockDigits t ++ '.' :: fractionDigits t ++ ['Z'])

/-- The stamp of a log line: as the full stamp, with no zeros before the year. -/
def lineStamp (t : Instant) : String :=
  String.ofList (dateDigits 1 t.date ++ 'T' :: clockDigits t ++ '.' :: fractionDigits t ++ ['Z'])

/-- The RFC 3339 form with a `Z` and no fraction; there are no zeros before the year. -/
def rfc3339 (t : Instant) : String :=
  String.ofList (dateDigits 1 t.date ++ 'T' :: clockDigits t ++ ['Z'])

/-- The UTC date as year, month and day. -/
def dateText (t : Instant) : String := String.ofList (dateDigits 4 t.date)

end Instant
end Triage
