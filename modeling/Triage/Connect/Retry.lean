import Triage.Log.Severity
import Triage.Text.Numeral

/-!
# Connecting with retries

An attempt to connect is repeated at a fixed interval while it fails in a way that may go away and
the next attempt still starts before the deadline.  Time is any ordered number type, and only the
pauses between attempts move it.
-/

namespace Triage.Connect

/-- How a series of attempts ends. -/
inductive Ending (ε : Type) where
  | connected
  | refused (error : ε)
  | gaveUp (error : ε)

/-- A pause between two attempts: the error that led to it, and when it begins and ends. -/
structure Pause (ε τ : Type) where
  error : ε
  start : τ
  finish : τ

/-- A finished series: the pauses after which an attempt was repeated, and the ending. -/
structure Series (ε τ : Type) where
  repeated : List (Pause ε τ)
  ending : Ending ε

/-- Attempts made. -/
def Series.attempts (s : Series ε τ) : Nat := s.repeated.length + 1

/-- Pauses between attempts. -/
def Series.pauses (s : Series ε τ) : Nat := s.repeated.length

/-- A series from attempt number `n` at a time, with at most `fuel` attempts.  The outcome of an
attempt is an error or success. -/
def attemptFrom [Add τ] [LT τ] [DecidableLT τ] (retryable : ε → Bool) (outcome : Nat → Option ε)
    (deadline interval : τ) : Nat → Nat → τ → Option (Series ε τ)
  | 0, _, _ => none
  | fuel + 1, n, time =>
    match outcome n with
    | none => some ⟨[], .connected⟩
    | some error =>
      if !retryable error then some ⟨[], .refused error⟩
      else if deadline < time + interval then some ⟨[], .gaveUp error⟩
      else
        (attemptFrom retryable outcome deadline interval fuel (n + 1) (time + interval)).map
          fun later => { later with repeated := ⟨error, time, time + interval⟩ :: later.repeated }

/-- How many attempts fit into a span of binary64 seconds, with some to spare for rounding. -/
def attemptBound (timeout interval : Float) : Nat := (timeout / interval).toUInt64.toNat + 4

/-- The outcome of each attempt of a script, whose last outcome repeats. -/
def scripted (outcomes : List (Option ε)) (n : Nat) : Option ε :=
  (outcomes[min n (outcomes.length - 1)]?).join

/-- A series over a script of outcomes, timed in binary64 seconds from zero. -/
def attemptScript (retryable : ε → Bool) (outcomes : List (Option ε)) (timeout interval : Float) :
    Option (Series ε Float) :=
  attemptFrom retryable (scripted outcomes) timeout interval
    (attemptBound timeout interval + outcomes.length) 0 0

/-- What is logged during a series about the database of a name. -/
def Series.records (s : Series ε τ) (name : String) (text : ε → String) :
    List (Log.Severity × String) :=
  let repetitions := s.repeated.zipIdx.map fun (pause, i) =>
    (Log.Severity.warning, "Connecting to " ++ name ++ " failed (attempt " ++ Text.natText (i + 1)
      ++ "), retrying: " ++ text pause.error)
  let last :=
    match s.ending with
    | .connected =>
      if s.repeated.isEmpty then []
      else [(Log.Severity.info,
        "Connected to " ++ name ++ " after " ++ Text.natText s.attempts ++ " attempts")]
    | .refused error =>
      [(Log.Severity.error, "Permanent " ++ name ++ " connection error: " ++ text error)]
    | .gaveUp _ => []
  repetitions ++ last

/-- The wording when a series is given up. -/
def gaveUpMessage (name timeout text : String) : String :=
  "could not connect to " ++ name ++ " within " ++ timeout ++ "s: " ++ text

/-- What a message calls the database by default. -/
def defaultName : String := "database"

/-- The pause between attempts by default, in seconds. -/
def defaultInterval : Float := 1

end Triage.Connect
