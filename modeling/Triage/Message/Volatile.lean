import Triage.Pattern.Basic

/-!
# Volatile pieces of error messages

The patterns of text that changes from one occurrence of an error to the next: timestamps, UUIDs,
paths, addresses, e-mail addresses, versions, identifiers and long numbers.  `rules` lists them in
the order in which they are applied, each with the placeholder that takes its place.
-/

namespace Triage.Message

open Triage.Pattern
open Triage.Text (isDigit isBlank isHexDigit isAsciiDigit isAsciiLetter isAsciiAlnum)

/-- A pattern of volatile text and what is written in its place. -/
structure Rule where
  pattern : Pattern
  placeholder : String

/-- Exactly `n` decimal digits. -/
def digits (n : Nat) : Pattern := exactly n isDigit

/-- One decimal digit or more. -/
def someDigits : Pattern := atLeast 1 isDigit

/-- A zone offset: a sign, hours and minutes. -/
def zoneOffset : Pattern :=
  inOrder [one fun c => c = '+' || c = '-', digits 2, char ':', digits 2]

/-- A calendar date, year first. -/
def calendarDate : Pattern := inOrder [digits 4, char '-', digits 2, char '-', digits 2]

/-- A time of day with seconds. -/
def clockTime : Pattern := inOrder [digits 2, char ':', digits 2, char ':', digits 2]

/-- A fraction: a point and digits. -/
def fraction : Pattern := inOrder [char '.', someDigits]

/-- Timestamps, dates and times of day. -/
def timestampPatterns : List Pattern := [
  inOrder [calendarDate, char 'T', clockTime, optional fraction, .orElse (char 'Z') zoneOffset],
  inOrder [calendarDate, char 'T', clockTime, char 'Z'],
  inOrder [.wordEdge, digits 10, .wordEdge],
  calendarDate,
  inOrder [digits 2, char '/', digits 2, char '/', digits 4],
  inOrder [digits 2, char '-', digits 2, char '-', digits 4],
  clockTime,
  inOrder [.run isDigit 1 (some 2), char ':', digits 2, atLeast 0 isBlank,
    .orElse (text "AM") (text "PM")]]

/-- A UUID in its usual five groups. -/
def uuidPattern : Pattern :=
  inOrder [.wordEdge, exactly 8 isHexDigit, char '-', exactly 4 isHexDigit, char '-',
    exactly 4 isHexDigit, char '-', exactly 4 isHexDigit, char '-', exactly 12 isHexDigit,
    .wordEdge]

/-- A character that can stand inside a segment of a slash-separated path. -/
def inSegment (c : Char) : Bool := c != '/' && !isBlank c

/-- A character that can stand inside a segment of a drive path. -/
def inDriveSegment (c : Char) : Bool := !("\\/:*?\"<>|\r\n".toList.contains c)

/-- URLs, slash-separated paths and drive paths. -/
def pathPatterns : List Pattern := [
  inOrder [text "http", optional (char 's'), text "://", atLeast 1 (fun c => !isBlank c)],
  inOrder [onceOrMore (inOrder [char '/', atLeast 1 inSegment]), char '/', atLeast 0 inSegment],
  inOrder [one isAsciiLetter, char ':', char '\\',
    .many (inOrder [atLeast 1 inDriveSegment, char '\\']), atLeast 0 inDriveSegment]]

/-- Network addresses of four decimal or eight hexadecimal groups. -/
def addressPatterns : List Pattern := [
  inOrder [.wordEdge, times 3 (inOrder [.run isDigit 1 (some 3), char '.']),
    .run isDigit 1 (some 3), .wordEdge],
  inOrder [.wordEdge, times 7 (inOrder [.run isHexDigit 1 (some 4), char ':']),
    .run isHexDigit 1 (some 4), .wordEdge]]

/-- E-mail addresses. -/
def emailPattern : Pattern :=
  inOrder [.wordEdge, atLeast 1 (fun c => isAsciiAlnum c || "._%+-".toList.contains c), char '@',
    atLeast 1 (fun c => isAsciiAlnum c || c = '.' || c = '-'), char '.', atLeast 2 isAsciiLetter,
    .wordEdge]

/-- Version numbers of two or three parts, with an optional `v` and an optional tag. -/
def versionPattern : Pattern :=
  inOrder [.wordEdge, optional (char 'v'), someDigits, char '.', someDigits, optional fraction,
    optional (inOrder [char '-', atLeast 1 isAsciiAlnum]), .wordEdge]

/-- A key, an equals sign or a colon, blanks, and a value of a class of characters. -/
def keyed (key : String) (value : Char → Bool) : Pattern :=
  inOrder [.wordEdge, text key, one (fun c => c = '=' || c = ':'), atLeast 0 isBlank,
    atLeast 1 value, .wordEdge]

/-- Identifiers given after a key, with the key. -/
def identifierPatterns : List (String × Pattern) := [
  ("id", keyed "id" isDigit),
  ("userid", keyed "userid" isDigit),
  ("user_id", keyed "user_id" isDigit),
  ("session", keyed "session" isAsciiAlnum),
  ("token", keyed "token" isAsciiAlnum)]

/-- Long numbers, decimal fractions and hexadecimal words. -/
def numberPatterns : List Pattern := [
  inOrder [.wordEdge, atLeast 6 isDigit, .wordEdge],
  inOrder [.wordEdge, someDigits, char '.', someDigits, .wordEdge],
  inOrder [.wordEdge, text "0x", atLeast 1 isHexDigit, .wordEdge],
  inOrder [.wordEdge, atLeast 8 isHexDigit, .wordEdge]]

/-- All rules in the order in which they are applied. -/
def rules : List Rule :=
  timestampPatterns.map (⟨·, "<timestamp>"⟩) ++
  [⟨uuidPattern, "<uuid>"⟩] ++
  pathPatterns.map (⟨·, "<path>"⟩) ++
  addressPatterns.map (⟨·, "<ip>"⟩) ++
  [⟨emailPattern, "<email>"⟩, ⟨versionPattern, "<version>"⟩] ++
  identifierPatterns.map (fun entry => ⟨entry.2, entry.1 ++ "=<id>"⟩) ++
  numberPatterns.map (⟨·, "<number>"⟩)

end Triage.Message
