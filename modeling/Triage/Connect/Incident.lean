import Triage.Text.Search

/-!
# Incidents

An incident is an error from outside with what led to it: a cause that was named, or else the
context in which it arose.  Incidents may refer to each other in cycles, so a group of them is a
list in which they refer to each other by place.  An incident is worth a retry when nothing on the
way back from it is permanent and something there is transient.
-/

namespace Triage.Connect

/-- An error from outside.  Causes and contexts are places in the list of its group. -/
structure Incident where
  kind : String
  text : String
  isConnectionLoss : Bool
  cause : Option Nat
  context : Option Nat
deriving DecidableEq, Repr

/-- What marks an error that a retry cannot mend. -/
def permanentMarkers : List String := [
  "password authentication failed", "authentication failed", "access denied", "permission denied",
  "invalidpassworderror", "invalidcatalognameerror", "does not exist", "unknown database",
  "no such table", "undefinedtableerror", "insufficientprivilegeerror"]

/-- What marks an error that may go away. -/
def transientMarkers : List String := [
  "connection refused", "connection reset", "connection was closed", "timed out", "timeout",
  "could not connect", "cannot connect", "temporarily unavailable",
  "the database system is starting up", "too many connections"]

namespace Incident

/-- Where the way back goes on from an incident. -/
def origin? (i : Incident) : Option Nat := i.cause <|> i.context

/-- Kind and text in lower case, in which markers are looked for. -/
def evidence (i : Incident) : List Char :=
  (i.kind ++ " " ++ i.text).toList.map Text.lowerForAscii

/-- Whether one of the markers occurs in an incident. -/
def carries (markers : List String) (i : Incident) : Bool :=
  markers.any fun marker => Text.contains marker.toList i.evidence

/-- Whether an incident says that a retry is useless. -/
def isPermanent (i : Incident) : Bool := i.carries permanentMarkers

/-- Whether an incident says that a retry may help. -/
def isTransient (i : Incident) : Bool := i.isConnectionLoss || i.carries transientMarkers

end Incident

/-- The places of a group that have not been passed yet. -/
def ahead (group : List Incident) (seen : List Nat) : List Nat :=
  (List.range group.length).filter fun place => place ∉ seen

/-- Passing a place of the group leaves fewer places ahead. -/
theorem length_ahead_lt {group : List Incident} {seen : List Nat} {place : Nat}
    (hNew : place ∉ seen) (hHere : place < group.length) :
    (ahead group (place :: seen)).length < (ahead group seen).length := by
  have hLess : ahead group (place :: seen) = (ahead group seen).filter fun p => p ≠ place := by
    simp [ahead, List.filter_filter]
  rw [hLess, List.length_filter_lt_length_iff_exists]
  exact ⟨place, by simp [ahead, hNew, hHere], by simp⟩

/-- The places on the way back from a place, each once; `seen` are the places already passed.  A way
that leads round in a circle ends where it would come to a place again. -/
def placesFrom (group : List Incident) (seen : List Nat) (start : Option Nat) : List Nat :=
  match start with
  | none => []
  | some place =>
    if h : place ∉ seen ∧ place < group.length then
      place :: placesFrom group (place :: seen) group[place].origin?
    else []
termination_by (ahead group seen).length
decreasing_by exact length_ahead_lt h.1 h.2

/-- The incidents on the way back from the first one of a group. -/
def wayBack (group : List Incident) : List Incident :=
  (placesFrom group [] (some 0)).filterMap fun place => group[place]?

/-- Whether the first incident of a group is worth a retry. -/
def isRetryable (group : List Incident) : Bool :=
  let way := wayBack group
  !way.any Incident.isPermanent && way.any Incident.isTransient

end Triage.Connect
