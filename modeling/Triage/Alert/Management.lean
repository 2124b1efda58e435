import Triage.Deployment.Program

/-!
# Managing alert rules

Users see and change the alerts of their own teams only.  A new alert starts active; an edit changes
the rule and its description, and leaves the state that the worker keeps.  Listing goes by pages of
at most 100 alerts.
-/

namespace Triage.Alerts

open Program

/-- The most alerts on a page. -/
def maxPageSize : Int := 100

/-- The alerts on a page unless asked otherwise. -/
def defaultPageSize : Int := 20

/-- A new rule. -/
structure NewRule where
  teamId : Int
  projectId : Int
  name : String
  threshold : Int
  condition : Int := Condition.occurrences.code
  timeframe : Int := Timeframe.hour.code
  highPriority : Bool := false

/-- What an edit changes. -/
structure RuleEdit where
  name : Option String := none
  projectId : Option Int := none
  threshold : Option Int := none
  condition : Option Int := none
  timeframe : Option Int := none
  highPriority : Option Bool := none

/-- Fails unless a rule has no flaw. -/
def requireSound (name : String) (threshold condition timeframe : Int) : Program Unit :=
  match Rule.flaw? name threshold condition timeframe with
  | some flaw => throw (.badRule flaw)
  | none => return ()

/-- The description of a rule whose codes are known. -/
def describe (threshold condition timeframe : Int) : Program String :=
  settle ((Rule.describe threshold condition timeframe).mapError fun e => .unknownCode e.code)

/-- One page of the alerts of some teams, counted from 1, and how many alerts there are. -/
def list (teamIds : List Int) (projectName : String) (pageNumber pageSize : Int) :
    Program (List Alert × Nat) :=
  if teamIds.isEmpty then return ([], 0)
  else
    let size := min (max pageSize 1) maxPageSize
    registry (.listAlerts ⟨teamIds, projectName, (max pageNumber 1 - 1) * size, size⟩)

/-- An alert of one of the teams. -/
def get (id : Int) (teamIds : List Int) : Program Alert := do
  let alert : Alert ← registry (.getAlert id)
  if teamIds.contains alert.teamId then return alert else throw (.noAccessToAlert alert.id)

/-- Creates an alert. -/
def create (teamIds : List Int) (rule : NewRule) : Program Alert := do
  if !teamIds.contains rule.teamId then throw (.noAccessToTeam rule.teamId)
  requireSound rule.name rule.threshold rule.condition rule.timeframe
  let time ← now
  let description ← describe rule.threshold rule.condition rule.timeframe
  let alert : Alert ← registry (.createAlert {
    teamId := rule.teamId
    projectId := rule.projectId
    ruleName := some (Rule.strippedName rule.name)
    description
    status := some Alert.active
    threshold := rule.threshold
    condition := rule.condition
    timeframe := rule.timeframe
    highPriority := rule.highPriority
    createdAt := some time
    updatedAt := some time })
  report .info .alerts ("Alert " ++ Text.intText alert.id ++ " created")
    [("alert_id", .int alert.id), ("project_id", .int rule.projectId)] none
  return alert

/-- An alert with an edit applied, before its description is brought up to date. -/
def RuleEdit.applyTo (edit : RuleEdit) (a : Alert) : Alert :=
  { a with
    ruleName := (edit.name.map Rule.strippedName).getD a.ruleName
    projectId := edit.projectId.getD a.projectId
    threshold := edit.threshold.getD a.threshold
    condition := edit.condition.getD a.condition
    timeframe := edit.timeframe.getD a.timeframe
    highPriority := edit.highPriority.getD a.highPriority }

/-- Edits the rule of an alert. -/
def update (id : Int) (teamIds : List Int) (edit : RuleEdit) : Program Alert := do
  let edited := edit.applyTo (← get id teamIds)
  request (.noteChange (.alert edited))
  requireSound edited.ruleName edited.threshold edited.condition edited.timeframe
  let description ← describe edited.threshold edited.condition edited.timeframe
  let alert := { edited with description := some description, updatedAt := ← now }
  request (.noteChange (.alert alert))
  registry (.updateAlert alert.draft)
  return alert

/-- Deletes an alert. -/
def delete (id : Int) (teamIds : List Int) : Program Unit := do
  let _ ← get id teamIds
  registry (.deleteAlert id)
  report .info .alerts ("Alert " ++ Text.intText id ++ " deleted") [("alert_id", .int id)] none

end Triage.Alerts
