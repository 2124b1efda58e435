import Triage.Proofs.Alert.SoundRules
import Triage.Proofs.Deployment.Responsive
import Triage.Proofs.Registry.AlertRows

/-!
# Managing alerts

What a lookup and an edit of an alert do where nothing stands in the way of a registry call, be it in
a unit of work or not.  An edit reads the alert as its user is shown it (`run_get`), and puts its
values into what it has read before it checks them (`run_update_flaw`).  If they pass, it writes the
alert over the row that is there by then (`run_update_granted`).
-/

namespace Triage

open Program

/-- What is wrong with the rule of an alert. -/
def Alert.flaw? (a : Alert) : Option Rule.Flaw :=
  Rule.flaw? a.ruleName a.threshold a.condition a.timeframe

/-- A rule without a flaw can be described. -/
theorem Rule.exists_describe {name : String} {threshold condition timeframe : Int}
    (hSound : Rule.flaw? name threshold condition timeframe = none) :
    ∃ text, Rule.describe threshold condition timeframe = .ok text := by
  obtain ⟨-, -, -, hCondition, hTimeframe⟩ := Rule.flaw?_eq_none.mp hSound
  obtain ⟨c, hc⟩ := Option.isSome_iff_exists.mp hCondition
  obtain ⟨t, ht⟩ := Option.isSome_iff_exists.mp hTimeframe
  exact ⟨_, by rw [Rule.describe, hc, ht]⟩

namespace Registry

variable {r : Registry} {id : Int} {teamIds : List Int} {row : Alert}

/-- What a user of some teams is shown for the identifier of an alert. -/
def shown (r : Registry) (id : Int) (teamIds : List Int) : Except Failure Alert :=
  match r.alert? id with
  | none => .error (.notFound (.alert id))
  | some row => if teamIds.contains row.teamId then .ok row else .error (.noAccessToAlert row.id)

/-- What is shown is an alert of one of the teams. -/
theorem shown_eq_ok :
    r.shown id teamIds = .ok row ↔ r.alert? id = some row ∧ row.teamId ∈ teamIds := by
  unfold shown
  cases r.alert? id with
  | none => simp
  | some found =>
      by_cases hTeam : found.teamId ∈ teamIds
      · simp only [List.contains_eq_mem, hTeam, decide_true, if_true, Except.ok.injEq,
          Option.some.injEq]
        exact ⟨fun h => ⟨h, h ▸ hTeam⟩, And.left⟩
      · simp only [List.contains_eq_mem, hTeam, decide_false, Bool.false_eq_true, if_false,
          reduceCtorEq, Option.some.injEq, false_iff]
        rintro ⟨rfl, h⟩
        exact hTeam h

theorem alert?_id (hRow : r.alert? id = some row) : row.id = id := by
  simpa [alert?] using List.find?_some hRow

theorem isSome_alert?_iff : (r.alert? id).isSome ↔ id ∈ r.alerts.map Alert.id := by
  simp [alert?, List.find?_isSome]

/-- Writing a row over the alerts with its identifier. -/
def writeOver (r : Registry) (row : Alert) : Registry :=
  { r with alerts := r.alerts.map fun a => if a.id = row.id then row else a }

theorem writeOver_ids (r : Registry) (row : Alert) :
    (r.writeOver row).alerts.map Alert.id = r.alerts.map Alert.id := by
  rw [writeOver, List.map_map]
  refine List.map_congr_left fun a _ => ?_
  rw [Function.comp_apply]
  split
  next hId => exact hId.symm
  next => rfl

theorem alert?_writeOver {other : Alert} (hRow : r.alert? other.id = some row) (id : Int) :
    (r.writeOver other).alert? id = if id = other.id then some other else r.alert? id :=
  find?_key_update hRow id

end Registry

namespace Deployment

variable {d : Deployment}

/-- Inside a unit of work that is not broken, a change to an alert is written through. -/
theorem noteChange_alert {u : UnitOfWork} (hOpen : d.openUnit = some u) (hWhole : u.broken = false)
    (row : Alert) :
    d.noteChange (.alert row) = { d with registry := d.registry.writeOver row } := by
  simp only [noteChange, hOpen, hWhole, Registry.writeOver]
  rfl

theorem noteChange_alert_ids (d : Deployment) (row : Alert) :
    (d.noteChange (.alert row)).registry.alerts.map Alert.id = d.registry.alerts.map Alert.id := by
  unfold noteChange
  split
  · rfl
  · split
    · rfl
    · exact d.registry.writeOver_ids row

theorem Responsive.noteChange (h : d.Responsive) (row : Alert) :
    (d.noteChange (.alert row)).Responsive := by
  obtain hUnit | ⟨u, hOpen⟩ := Option.eq_none_or_eq_some d.openUnit
  · rwa [noteChange_eq hUnit]
  · rw [noteChange_alert hOpen (h.whole u hOpen)]
    exact ⟨h.staged, h.there, h.whole⟩

end Deployment

namespace Alerts

variable {d : Deployment} {id : Int} {teamIds : List Int} {edit : RuleEdit} {row : Alert}

/-! The checks of a rule are given by equations, because a goal about them would make the unifier
run them. -/

theorem requireSound_sound {name : String} {threshold condition timeframe : Int}
    (hSound : Rule.flaw? name threshold condition timeframe = none) :
    requireSound name threshold condition timeframe = pure () := by
  rw [requireSound, hSound]

theorem requireSound_flaw {name : String} {threshold condition timeframe : Int} {flaw : Rule.Flaw}
    (hFlaw : Rule.flaw? name threshold condition timeframe = some flaw) :
    requireSound name threshold condition timeframe = throw (.badRule flaw) := by
  rw [requireSound, hFlaw]

theorem describe_ok {threshold condition timeframe : Int} {text : String}
    (hText : Rule.describe threshold condition timeframe = .ok text) :
    describe threshold condition timeframe = pure text := by
  rw [describe, hText]
  rfl

/-- A lookup leaves everything as it is. -/
theorem run_get (h : d.Responsive) {outcome : Except Failure Alert}
    (hShown : d.registry.shown id teamIds = outcome) : d.run (get id teamIds) = (outcome, d) := by
  have hFound : d.run (registry (.getAlert id)) =
      (foundRow (fun a => a.id = id) (.alert id) d.registry.alerts, d) := h.run_read rfl rfl rfl
  rw [get, ← hShown, Registry.shown, Registry.alert?]
  unfold foundRow at hFound
  cases hRow : d.registry.alerts.find? fun a => decide (a.id = id) with
  | none =>
      rw [hRow] at hFound
      exact run_bind_error hFound
  | some row =>
      rw [hRow] at hFound
      refine (run_bind hFound).trans ?_
      dsimp only
      split <;> rfl

/-- An edit of an alert that is not shown fails as a lookup does. -/
theorem run_update_unseen (h : d.Responsive) {e : Failure}
    (hShown : d.registry.shown id teamIds = .error e) :
    d.run (update id teamIds edit) = (.error e, d) :=
  run_bind_error (run_get h hShown)

/-- A flaw is found after the edit has been put into the alert. -/
theorem run_update_flaw (h : d.Responsive) (hShown : d.registry.shown id teamIds = .ok row)
    {flaw : Rule.Flaw} (hFlaw : (edit.applyTo row).flaw? = some flaw) :
    d.run (update id teamIds edit) =
      (.error (.badRule flaw), d.noteChange (.alert (edit.applyTo row))) := by
  refine (run_bind (run_get h hShown)).trans ((run_bind (d.run_noteChange _)).trans
    (run_bind_error ?_))
  rw [requireSound_flaw hFlaw]
  rfl

@[simp] theorem RuleEdit.applyTo_id (edit : RuleEdit) (row : Alert) :
    (edit.applyTo row).id = row.id := rfl

/-- What a successful edit makes of an alert. -/
def RuleEdit.result (edit : RuleEdit) (row : Alert) (text : String) (time : Instant) : Alert :=
  { edit.applyTo row with description := some text, updatedAt := time }

@[simp] theorem RuleEdit.result_id (edit : RuleEdit) (row : Alert) (text : String)
    (time : Instant) : (edit.result row text time).id = row.id := rfl

/-- An edit that passes the check goes on to write the alert over its row. -/
theorem run_update_sound (h : d.Responsive) (hShown : d.registry.shown id teamIds = .ok row)
    (hSound : (edit.applyTo row).flaw? = none) {text : String}
    (hText : Rule.describe (edit.applyTo row).threshold (edit.applyTo row).condition
      (edit.applyTo row).timeframe = .ok text) :
    let a := edit.result row text d.now
    d.run (update id teamIds edit) =
      ((d.noteChange (.alert (edit.applyTo row))).noteChange (.alert a)).run
        (registry (.updateAlert a.draft) >>= fun _ => pure a) := by
  let noted := d.noteChange (.alert (edit.applyTo row))
  have hNow : noted.run now = (.ok d.now, noted) := by
    obtain ⟨registry, hNote⟩ := d.noteChange_frame (.alert (edit.applyTo row))
    rw [noted.run_now, show noted = _ from hNote]
  have hChecked : noted.run (requireSound (edit.applyTo row).ruleName (edit.applyTo row).threshold
      (edit.applyTo row).condition (edit.applyTo row).timeframe) = (.ok (), noted) := by
    rw [requireSound_sound hSound]
    rfl
  have hDescribed : noted.run (describe (edit.applyTo row).threshold (edit.applyTo row).condition
      (edit.applyTo row).timeframe) = (.ok text, noted) := by
    rw [describe_ok hText]
    rfl
  exact (run_bind (run_get h hShown)).trans ((run_bind (d.run_noteChange _)).trans
    ((run_bind hChecked).trans ((run_bind hDescribed).trans ((run_bind hNow).trans
      (run_bind (noted.run_noteChange _))))))

/-- The deployment in which a successful edit of an alert writes its row. -/
def RuleEdit.noted (edit : RuleEdit) (row : Alert) (text : String) (d : Deployment) : Deployment :=
  (d.noteChange (.alert (edit.applyTo row))).noteChange (.alert (edit.result row text d.now))

/-- An edit that passes the check succeeds, and writes the alert over the row that it finds then. -/
theorem run_update_granted (h : d.Responsive) (hShown : d.registry.shown id teamIds = .ok row)
    (hSound : (edit.applyTo row).flaw? = none) :
    ∃ text held after, Rule.describe (edit.applyTo row).threshold (edit.applyTo row).condition
        (edit.applyTo row).timeframe = .ok text ∧
      d.run (update id teamIds edit) = (.ok (edit.result row text d.now), after) ∧
      (edit.noted row text d).registry.alert? id = some held ∧
      after.registry.alert? id = some ((edit.result row text d.now).over held) := by
  obtain ⟨text, hText⟩ := Rule.exists_describe hSound
  let a := edit.result row text d.now
  let noted := edit.noted row text d
  obtain ⟨hRow, -⟩ := Registry.shown_eq_ok.mp hShown
  have hId : a.id = id := (edit.result_id ..).trans (Registry.alert?_id hRow)
  have hNoted : noted.Responsive := (h.noteChange _).noteChange _
  have hIds : noted.registry.alerts.map Alert.id = d.registry.alerts.map Alert.id :=
    (Deployment.noteChange_alert_ids ..).trans (d.noteChange_alert_ids _)
  obtain ⟨held, hHeld⟩ : ∃ held, noted.registry.alert? id = some held := by
    rw [← Option.isSome_iff_exists, Registry.isSome_alert?_iff, hIds,
      ← Registry.isSome_alert?_iff, hRow]
    rfl
  obtain ⟨s, hWritten⟩ :=
    Registry.updateAlert_ok hNoted.there noted.now noted.nextUuid (a := a) (hId ▸ hHeld)
  obtain ⟨found, hFound, hRows⟩ := Registry.updateAlert_rows hWritten
  rw [hId, hHeld] at hFound
  obtain rfl := Option.some.inj hFound
  rw [Registry.run_eq_apply hNoted.there] at hWritten
  have hRun := run_update_sound h hShown hSound hText
  exact ⟨text, held, _, hText, hRun.trans (run_bind (hNoted.run_call hWritten)), hHeld,
    (hRows id).trans (if_pos hId.symm)⟩

/-- An alert of team 1 in project 1 that asks for more than 10 occurrences. -/
def spikeAlert : Alert :=
  ⟨1, 1, 1, "Spike", none, Alert.triggered, 10, 1, 4, false, some ⟨2000⟩, none, ⟨1000⟩, ⟨1000⟩⟩

/-- A deployment with that alert. -/
def storedAlert : Deployment :=
  { Deployment.initial ⟨10000000000000000⟩ false with
    registry := { Registry.empty with alerts := [spikeAlert] } }

end Alerts
end Triage
