import Triage.Time.Instant
import Triage.Text.Quoted

/-!
# Reading ISO 8601 timestamps

The reader accepts calendar dates and week dates, basic and extended, any one character between date
and time, times to the hour, minute, second or fraction, and zone offsets.  A text without an offset
is in UTC.  Errors are told apart: a text of the wrong form, a field out of its range, an offset of
a day or more, and an instant outside the years 1 to 9999.
-/

namespace Triage.Time

/-- What is wrong with the text of a timestamp. -/
inductive IsoError where
  | malformed (text : String)
  | yearOutOfRange (year : Nat)
  | monthOutOfRange
  | dayOutOfRange
  | hourOutOfRange
  | minuteOutOfRange
  | secondOutOfRange
  | offsetTooLarge (micros : Int)
  | instantOutOfRange
deriving DecidableEq, Repr

/-- A span of time in days, seconds and microseconds; only the days can be negative, and parts that
are zero are left out. -/
def spanText (micros : Int) : String :=
  let days := micros.fdiv Instant.dayMicros
  let rest := (micros.fmod Instant.dayMicros).toNat
  let part (name : String) (n : Int) : List String :=
    if n = 0 then [] else [name ++ "=" ++ Text.intText n]
  let parts := part "days" days ++ part "seconds" (rest / 1000000)
    ++ part "microseconds" (rest % 1000000)
  "datetime.timedelta(" ++ (if parts.isEmpty then "0" else ", ".intercalate parts) ++ ")"

/-- The wording of an error. -/
def IsoError.message : IsoError → String
  | .malformed text => "Invalid isoformat string: " ++ Text.quoted text
  | .yearOutOfRange year => "year " ++ Text.natText year ++ " is out of range"
  | .monthOutOfRange => "month must be in 1..12"
  | .dayOutOfRange => "day is out of range for month"
  | .hourOutOfRange => "hour must be in 0..23"
  | .minuteOutOfRange => "minute must be in 0..59"
  | .secondOutOfRange => "second must be in 0..59"
  | .offsetTooLarge micros =>
    "offset must be a timedelta strictly between -timedelta(hours=24) and timedelta(hours=24), not "
      ++ spanText micros ++ "."
  | .instantOutOfRange => "date value out of range"

/-- A fixed number of ASCII digits at the front of a text. -/
def takeNumber? : Nat → List Char → Option (Nat × List Char)
  | 0, text => some (0, text)
  | n + 1, text => do
    let (high, rest) ← takeNumber? n text
    match rest with
    | c :: rest => return (high * 10 + (← Text.digitValue? c), rest)
    | [] => none

/-- Where the date ends, as the shape of the text's first characters tells. -/
def dateLength? (text : List Char) : Option Nat :=
  let size := text.length
  let at? (i : Nat) (c : Char) : Bool := text[i]? = some c
  let digitAt (i : Nat) : Bool := (text[i]?.map Text.isAsciiDigit).getD false
  if size < 7 then none
  else if size = 7 then some 7
  else if at? 4 '-' then
    if at? 5 'W' then
      if at? 8 '-' then
        if size = 9 then none
        else if digitAt 10 then some 8
        else some 10
      else some 8
    else some 10
  else if at? 4 'W' then
    let digits := 7 + ((text.drop 7).takeWhile Text.isAsciiDigit).length
    if digits < 9 then some digits
    else if digits % 2 = 0 then some 7
    else some 8
  else some 8

/-- The fields of a date as they stand in the text, not yet checked against the calendar. -/
inductive DateFields where
  | calendar (year month day : Nat)
  | week (year week day : Nat)

/-- Reads a date of a given length at the front of a text. -/
def readDate? (length : Nat) (text : List Char) : Option DateFields := do
  let (year, rest) ← takeNumber? 4 text
  let (dashed, rest) :=
    match rest with
    | '-' :: rest => (true, rest)
    | _ => (false, rest)
  let dash (rest : List Char) : Option (List Char) :=
    if dashed then
      match rest with
      | '-' :: rest => some rest
      | _ => none
    else some rest
  match rest with
  | 'W' :: rest =>
    let (week, rest) ← takeNumber? 2 rest
    if text.length - rest.length < length then
      let (day, _) ← takeNumber? 1 (← dash rest)
      return .week year week day
    else return .week year week 1
  | _ =>
    let (month, rest) ← takeNumber? 2 rest
    let (day, _) ← takeNumber? 2 (← dash rest)
    return .calendar year month day

/-- A time of day or an offset as it stands in the text. -/
structure ClockFields where
  hour : Nat
  minute : Nat
  second : Nat
  micro : Nat

/-- Reads the fraction digits that end a time; digits after the sixth do not count. -/
def readFraction? (text : List Char) : Option Nat :=
  if text.isEmpty || !text.all Text.isAsciiDigit then none
  else
    let kept := text.take 6
    (Text.readNat? kept).map fun n => n * Nat.pow 10 (6 - kept.length)

/-- What stands after two digits of a time: its end, at which a single character may be left over, a
fraction, or more digits. -/
inductive AfterDigits where
  | ending (isLoose : Bool)
  | fraction (text : List Char)
  | digits (text : List Char)

/-- Looks at what stands after two digits of a time with or without colons. -/
def afterDigits? (colons : Bool) : List Char → Option AfterDigits
  | [] => some (.ending false)
  | c :: tail =>
    if tail.isEmpty && c.val < 128 then some (.ending true)
    else if colons && c = ':' then some (.digits tail)
    else if c = '.' || c = ',' then some (.fraction tail)
    else if colons then none else some (.digits (c :: tail))

/-- Reads a fraction, and whether anything but digits follows its first six. -/
def readLooseFraction? (text : List Char) : Option (Nat × Bool) := do
  return (← readFraction? (text.take 6), !(text.drop 6).all Text.isAsciiDigit)

/-- Reads a time: hours, then minutes and seconds if present, with colons everywhere or nowhere,
then a fraction if present.  After seconds the fraction may also follow a third colon, or, when
there are no colons, follow at once if it has two digits or more.  Also tells whether the time has a
loose end, something that was not read. -/
def readClock? (text : List Char) : Option (ClockFields × Bool) := do
  let (hour, rest) ← takeNumber? 2 text
  let colons := rest.head? = some ':'
  match ← afterDigits? colons rest with
  | .ending isLoose => return (⟨hour, 0, 0, 0⟩, isLoose)
  | .fraction rest =>
    let (micro, isLoose) ← readLooseFraction? rest
    return (⟨hour, 0, 0, micro⟩, isLoose)
  | .digits rest =>
    let (minute, rest) ← takeNumber? 2 rest
    match ← afterDigits? colons rest with
    | .ending isLoose => return (⟨hour, minute, 0, 0⟩, isLoose)
    | .fraction rest =>
      let (micro, isLoose) ← readLooseFraction? rest
      return (⟨hour, minute, 0, micro⟩, isLoose)
    | .digits rest =>
      let (second, rest) ← takeNumber? 2 rest
      match ← afterDigits? colons rest with
      | .ending isLoose => return (⟨hour, minute, second, 0⟩, isLoose)
      | .fraction rest =>
        let (micro, isLoose) ← readLooseFraction? rest
        return (⟨hour, minute, second, micro⟩, isLoose)
      | .digits rest =>
        let (micro, isLoose) ← readLooseFraction? rest
        return (⟨hour, minute, second, micro⟩, isLoose)

/-- The date that checked fields name. -/
def DateFields.resolve? (text : String) : DateFields → Except IsoError Date
  | .calendar year month day =>
    if year = 0 || maxYear < year then throw (.yearOutOfRange year)
    else if month = 0 || 12 < month then throw .monthOutOfRange
    else if day = 0 || daysInMonth year month < day then throw .dayOutOfRange
    else return ⟨year, month, day⟩
  | .week year number day =>
    let lastWeek := if hasLongWeekYear year then 53 else 52
    if number = 0 || lastWeek < number then throw (.malformed text)
    else if day = 0 || 7 < day then throw (.malformed text)
    else if year = 0 then throw .monthOutOfRange
    else
      let date := Date.ofOrdinal (firstMonday year + (number - 1) * 7 + (day - 1))
      if maxYear < date.year then throw (.yearOutOfRange date.year) else return date

/-- A zone offset in microseconds; an offset of no whole second is none at all. -/
def ClockFields.offset (f : ClockFields) (negative : Bool) : Int :=
  let seconds : Int := (f.hour * 60 + f.minute) * 60 + f.second
  if seconds = 0 then 0
  else
    let micros := seconds * Instant.second + f.micro
    if negative then -micros else micros

/-- A date and a time of day as they are told somewhere, with the offset from UTC that holds there, in
microseconds.  Without an offset they are in UTC. -/
structure LocalTime where
  date : Date
  clock : ClockFields
  offset? : Option Int

/-- The instant of a local time, which has to fall in the years 1 to 9999. -/
def LocalTime.toUtc (t : LocalTime) : Except IsoError Instant :=
  let told := Instant.ofDate t.date t.clock.hour t.clock.minute t.clock.second t.clock.micro
  let instant := told.shift (-t.offset?.getD 0)
  if instant.representable then .ok instant else .error .instantOutOfRange

/-- Splits a time from its zone: the offset in microseconds, if there is one.  Only in front of a
zone can a time have a loose end. -/
def readTimeAndZone? (text : List Char) : Option (ClockFields × Option Int) := do
  let clock := text.takeWhile fun c => c != '+' && c != '-' && c != 'Z'
  let (fields, isLoose) ← readClock? clock
  match text.drop clock.length with
  | [] => if isLoose then none else return (fields, none)
  | ['Z'] => return (fields, some 0)
  | sign :: rest =>
    if sign = 'Z' then none
    let (offset, isLoose) ← readClock? rest
    if isLoose then none
    return (fields, some (offset.offset (sign = '-')))

/-- The instant of an ISO 8601 text, in UTC when it names no zone. -/
def readIso (text : String) : Except IsoError Instant := do
  let chars := text.toList
  let malformed : Except IsoError Unit := throw (.malformed text)
  let some length := dateLength? chars | do malformed; return ⟨0⟩
  let some date := readDate? length chars | do malformed; return ⟨0⟩
  let rest := (chars.drop length).drop 1
  let (clock, zone) ←
    match rest with
    | [] =>
      if chars.length = length + 1 then throw (.malformed text)
      else pure (⟨0, 0, 0, 0⟩, none)
    | _ =>
      match readTimeAndZone? rest with
      | some r => pure r
      | none => throw (.malformed text)
  -- A week date is turned into a calendar date before the zone is looked at.
  let weekDate ←
    match date with
    | .week .. =>
      match date.resolve? text with
      | .error (.malformed t) => throw (.malformed t)
      | r => pure (some r)
    | .calendar .. => pure none
  let offset := zone.getD 0
  if Instant.dayMicros <= offset.natAbs then throw (.offsetTooLarge offset)
  let date ← (weekDate.getD (date.resolve? text))
  if 23 < clock.hour then throw .hourOutOfRange
  if 59 < clock.minute then throw .minuteOutOfRange
  if 59 < clock.second then throw .secondOutOfRange
  LocalTime.toUtc ⟨date, clock, zone⟩

end Triage.Time
