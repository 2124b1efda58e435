/-!
# The Gregorian calendar

Dates of the proleptic Gregorian calendar and their ordinals: the day number that counts 1 January
of year 1 as day 1.
-/

namespace Triage.Time

/-- A calendar date. -/
structure Date where
  year : Nat
  month : Nat
  day : Nat
deriving DecidableEq, Repr

/-- Whether February has 29 days. -/
def isLeap (year : Nat) : Bool := year % 4 = 0 && (year % 100 != 0 || year % 400 = 0)

/-- Days in a month of a year. -/
def daysInMonth (year month : Nat) : Nat :=
  match month with
  | 2 => if isLeap year then 29 else 28
  | 4 | 6 | 9 | 11 => 30
  | _ => 31

/-- Days of all years before a year, counted from year 1. -/
def daysBeforeYear (year : Nat) : Nat :=
  let y := year - 1
  y * 365 + y / 4 - y / 100 + y / 400

/-- Days of a year before the first of a month. -/
def daysBeforeMonth (year : Nat) : Nat → Nat
  | 0 => 0
  | 1 => 0
  | month + 1 => daysBeforeMonth year month + daysInMonth year month

/-- The ordinal of a date. -/
def Date.ordinal (d : Date) : Nat :=
  daysBeforeYear d.year + daysBeforeMonth d.year d.month + d.day

/-- Finds the month of a day of the year, counted from zero, by taking whole months off the front.
-/
def monthAndDay (year : Nat) : Nat → Nat → Nat → Nat × Nat
  | 0, month, rest => (month, rest + 1)
  | fuel + 1, month, rest =>
    if rest < daysInMonth year month then (month, rest + 1)
    else monthAndDay year fuel (month + 1) (rest - daysInMonth year month)

/-- The date of an ordinal: whole cycles of 400, 100, 4 and 1 years are taken off first. -/
def Date.ofOrdinal (ordinal : Nat) : Date :=
  let n := ordinal - 1
  let (n400, n) := (n / 146097, n % 146097)
  let (n100, n) := (n / 36524, n % 36524)
  let (n4, n) := (n / 1461, n % 1461)
  let (n1, n) := (n / 365, n % 365)
  let year := n400 * 400 + n100 * 100 + n4 * 4 + n1 + 1
  if n1 = 4 || n100 = 4 then ⟨year - 1, 12, 31⟩
  else
    let (month, day) := monthAndDay year 11 1 n
    ⟨year, month, day⟩

/-- The largest year of a date. -/
def maxYear : Nat := 9999

/-- The day of the week of an ordinal, Monday being 0. -/
def weekday (ordinal : Nat) : Nat := (ordinal + 6) % 7

/-- The ordinal of the Monday of week 1 of a year: the week that holds its first Thursday. -/
def firstMonday (year : Nat) : Nat :=
  let first := daysBeforeYear year + 1
  let monday := first - weekday first
  if weekday first > 3 then monday + 7 else monday

/-- Whether a year has a week 53. -/
def hasLongWeekYear (year : Nat) : Bool :=
  let first := weekday (daysBeforeYear year + 1)
  first = 3 || (first = 2 && isLeap year)

end Triage.Time
