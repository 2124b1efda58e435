import Triage.Proofs.Alert.Managing

/-!
# Refused changes of alerts

Where nothing stands in the way of a registry call, a change that a user asks for is refused for one
of a few reasons, and granted otherwise (`Change.run_refused`, `Change.run_granted`).  By itself a
refused change leaves everything as it was.  In a unit of work whose body catches the failure the
unit is kept, and with it what an edit has put into the alert before its check
(`Change.caught_refused`).  So refused changes leave no trace in the table of alerts except for the
edits of alerts that their user may see and that hold something else than the edit says
(`refused_changes_leave_iff`).
-/

namespace Triage

namespace Registry

variable {r : Registry} {row : Alert}

/-- A complete draft without an identifier can be added. -/
theorem createAlert_ok (r : Registry) (now : Instant) (freshUuid : String) {d : AlertDraft}
    (hId : d.id = none) (hComplete : ∀ id, ∃ a, d.complete id now = .ok a) :
    ∃ a s, r.apply now freshUuid (.createAlert d) = (.ok a, s) := by
  obtain ⟨a, ha⟩ := hComplete (nextId (r.alerts.map Alert.id))
  have hAdded : addedRow (RegistryCall.operation (.createAlert d)) "alerts" d.id
      (r.alerts.map Alert.id) (d.complete · now) (fun _ => none) = .ok a := by
    rw [addedRow_eq_ok, hId]
    exact ⟨ha, nextId_notMem _, rfl⟩
  exact ⟨a, _, changed_ok hAdded _⟩

/-- An alert that is there can be deleted. -/
theorem deleteAlert_ok (now : Instant) (freshUuid : String) {id : Int}
    (hRow : r.alert? id = some row) :
    ∃ s, r.apply now freshUuid (.deleteAlert id) = (.ok (), s) := by
  have hAny : r.alerts.any (fun a => decide (a.id = id)) = true := by
    rw [List.any_eq_true]
    exact ⟨row, List.mem_of_find?_eq_some hRow, by simp [alert?_id hRow]⟩
  simp only [apply, deleted, hAny, if_true]
  exact ⟨_, rfl⟩

/-- Writing a row over its alert changes something exactly if the row is another one. -/
theorem Keyed.writeOver_alerts_iff (h : r.Keyed) {written : Alert}
    (hRow : r.alert? written.id = some row) :
    (r.writeOver written).alerts = r.alerts ↔ written = row := by
  have hFound : (r.writeOver written).alert? written.id = some written := by
    rw [alert?_writeOver hRow, if_pos rfl]
  constructor
  · intro hSame
    rw [alert?_congr hSame, hRow] at hFound
    exact (Option.some.inj hFound).symm
  · rintro rfl
    rw [writeOver]
    refine (List.map_congr_left fun a ha => ?_).trans (List.map_id _)
    split
    next hId => exact (eq_of_find?_key h.alerts hRow ha hId).symm
    next => rfl

end Registry

namespace Alerts

open Program

/-- What a user can ask for to be done to alerts. -/
inductive Change where
  | create (teamIds : List Int) (rule : NewRule)
  | edit (id : Int) (teamIds : List Int) (fields : RuleEdit)
  | delete (id : Int) (teamIds : List Int)

/-- Does what is asked for. -/
def Change.program : Change → Program Unit
  | .create teamIds rule => do let _ ← Alerts.create teamIds rule
  | .edit id teamIds fields => do let _ ← update id teamIds fields
  | .delete id teamIds => Alerts.delete id teamIds

/-- Why a change is refused: the user must be of the team of the alert, and the rule without a flaw.
-/
def Change.refusal? (r : Registry) : Change → Option Failure
  | .create teamIds rule =>
    if teamIds.contains rule.teamId then
      (Rule.flaw? rule.name rule.threshold rule.condition rule.timeframe).map .badRule
    else some (.noAccessToTeam rule.teamId)
  | .edit id teamIds fields =>
    match r.shown id teamIds with
    | .error e => some e
    | .ok row => (fields.applyTo row).flaw?.map .badRule
  | .delete id teamIds =>
    match r.shown id teamIds with
    | .error e => some e
    | .ok _ => none

/-- The alert that an edit has put its values into before it is checked. -/
def Change.noted? (r : Registry) : Change → Option Alert
  | .edit id teamIds fields =>
    match r.shown id teamIds with
    | .error _ => none
    | .ok row => some (fields.applyTo row)
  | .create .. | .delete .. => none

namespace Change

variable {d : Deployment} {c : Change} {e : Failure}

/-- The deployment with what a change has put into an alert. -/
def traced (c : Change) (d : Deployment) : Deployment :=
  match c.noted? d.registry with
  | none => d
  | some a => d.noteChange (.alert a)

/-- A change that is to be refused fails, and all that is left of it is what it has put into an
alert. -/
theorem run_refused (h : d.Responsive) (hRefusal : c.refusal? d.registry = some e) :
    d.run c.program = (.error e, c.traced d) := by
  cases c with
  | create teamIds rule =>
      simp only [refusal?] at hRefusal
      split at hRefusal
      next hTeam =>
        obtain ⟨flaw, hFlaw, rfl⟩ := Option.map_eq_some_iff.mp hRefusal
        rw [program, Alerts.create, hTeam]
        refine run_bind_error (run_bind_error ?_)
        rw [requireSound_flaw hFlaw]
        rfl
      next hTeam =>
        obtain rfl := Option.some.inj hRefusal
        rw [program, Alerts.create, (Bool.not_eq_true _).mp hTeam]
        rfl
  | edit id teamIds fields =>
      simp only [refusal?, traced, noted?] at hRefusal ⊢
      cases hShown : d.registry.shown id teamIds with
      | error cause =>
          rw [hShown] at hRefusal
          obtain rfl := Option.some.inj hRefusal
          exact run_bind_error (run_update_unseen h hShown)
      | ok row =>
          rw [hShown] at hRefusal
          obtain ⟨flaw, hFlaw, rfl⟩ := Option.map_eq_some_iff.mp hRefusal
          exact run_bind_error (run_update_flaw h hShown hFlaw)
  | delete id teamIds =>
      simp only [refusal?] at hRefusal
      cases hShown : d.registry.shown id teamIds with
      | error cause =>
          rw [hShown] at hRefusal
          obtain rfl := Option.some.inj hRefusal
          exact run_bind_error (run_get h hShown)
      | ok row => rw [hShown] at hRefusal; cases hRefusal

/-- A change that is not to be refused is made. -/
theorem run_granted (h : d.Responsive) (hGranted : c.refusal? d.registry = none) :
    ∃ after, d.run c.program = (.ok (), after) := by
  cases c with
  | create teamIds rule =>
      simp only [refusal?] at hGranted
      split at hGranted
      next hTeam =>
        have hSound := Option.map_eq_none_iff.mp hGranted
        obtain ⟨text, hText⟩ := Rule.exists_describe hSound
        have hChecked :
            d.run (requireSound rule.name rule.threshold rule.condition rule.timeframe) =
              (.ok (), d) := by
          rw [requireSound_sound hSound]
          rfl
        have hDescribed : d.run (describe rule.threshold rule.condition rule.timeframe) =
            (.ok text, d) := by
          rw [describe_ok hText]
          rfl
        obtain ⟨a, s, hCreate⟩ := d.registry.createAlert_ok d.now d.nextUuid
          (d := { teamId := rule.teamId, projectId := rule.projectId,
                  ruleName := some (Rule.strippedName rule.name), description := text,
                  status := some Alert.active, threshold := rule.threshold,
                  condition := rule.condition, timeframe := rule.timeframe,
                  highPriority := rule.highPriority, createdAt := some d.now,
                  updatedAt := some d.now }) rfl fun id => ⟨_, rfl⟩
        rw [program, Alerts.create, hTeam]
        -- What is left to do after the row has been added only writes to the log.
        exact ⟨_, run_bind ((run_bind hChecked).trans ((run_bind d.run_now).trans
          ((run_bind hDescribed).trans (run_bind (h.run_call hCreate)))))⟩
      next => cases hGranted
  | edit id teamIds fields =>
      simp only [refusal?] at hGranted
      cases hShown : d.registry.shown id teamIds with
      | error cause => rw [hShown] at hGranted; cases hGranted
      | ok row =>
          rw [hShown] at hGranted
          obtain ⟨_, _, after, -, hRun, -⟩ :=
            run_update_granted h hShown (Option.map_eq_none_iff.mp hGranted)
          exact ⟨after, run_bind hRun⟩
  | delete id teamIds =>
      simp only [refusal?] at hGranted
      cases hShown : d.registry.shown id teamIds with
      | error cause => rw [hShown] at hGranted; cases hGranted
      | ok row =>
          obtain ⟨s, hDelete⟩ :=
            Registry.deleteAlert_ok d.now d.nextUuid (Registry.shown_eq_ok.mp hShown).1
          exact ⟨_, (run_bind (run_get h hShown)).trans (run_bind (h.run_call hDelete))⟩

/-- What is left in the tables when the failure of a refused change is caught in a unit of work: the
unit is kept, with what the change has put into an alert. -/
theorem caught_refused (h : d.Responsive) (hRefusal : c.refusal? d.registry = some e) :
    (d.caught c.program).1 = .ok (.error e) ∧
      (d.caught c.program).2.registry =
        ((c.noted? d.registry).map d.registry.writeOver).getD d.registry := by
  obtain ⟨u, hOpen⟩ := Option.isSome_iff_exists.mp d.entered_openUnit
  have hWhole := h.entered.whole u hOpen
  have hRun := run_refused h.entered (by rwa [Deployment.entered_registry])
  cases hNoted : c.noted? d.registry with
  | none =>
      have hTraced : c.traced d.entered = d.entered := by
        rw [traced, Deployment.entered_registry, hNoted]
      rw [hTraced] at hRun
      simpa using Deployment.caught_of_run hRun hOpen hWhole
  | some a =>
      have hTraced : c.traced d.entered =
          { d.entered with registry := d.registry.writeOver a } := by
        rw [traced, Deployment.entered_registry, hNoted]
        exact (Deployment.noteChange_alert hOpen hWhole a).trans
          (by rw [Deployment.entered_registry])
      rw [hTraced] at hRun
      simpa using Deployment.caught_of_run hRun hOpen hWhole

/-- An edit of an alert that its user may see, and that holds something else than the edit says. -/
def Spoils (c : Change) (r : Registry) : Prop :=
  ∃ id teamIds fields row, c = .edit id teamIds fields ∧ r.shown id teamIds = .ok row ∧
    fields.applyTo row ≠ row

theorem refusal?_kind {r : Registry} (hRefusal : c.refusal? r = some e) :
    e.kind = .notFound ∨ e.kind = .noAccess ∨ e.kind = .invalid := by
  have hShown {id : Int} {teamIds : List Int} (h : r.shown id teamIds = .error e) :
      e.kind = .notFound ∨ e.kind = .noAccess := by
    unfold Registry.shown at h
    split at h
    · cases h; exact .inl rfl
    · split at h
      · cases h
      · cases h; exact .inr rfl
  cases c with
  | create teamIds rule =>
      simp only [refusal?] at hRefusal
      split at hRefusal
      · obtain ⟨flaw, -, rfl⟩ := Option.map_eq_some_iff.mp hRefusal
        exact .inr (.inr rfl)
      · cases hRefusal
        exact .inr (.inl rfl)
  | edit id teamIds fields =>
      simp only [refusal?] at hRefusal
      split at hRefusal
      next cause hError =>
        obtain rfl := Option.some.inj hRefusal
        exact (hShown hError).imp_right .inl
      next =>
        obtain ⟨flaw, -, rfl⟩ := Option.map_eq_some_iff.mp hRefusal
        exact .inr (.inr rfl)
  | delete id teamIds =>
      simp only [refusal?] at hRefusal
      split at hRefusal
      next cause hError =>
        obtain rfl := Option.some.inj hRefusal
        exact (hShown hError).imp_right .inl
      next => cases hRefusal

theorem noted?_eq_some {r : Registry} {a : Alert} :
    c.noted? r = some a ↔ ∃ id teamIds fields row, c = .edit id teamIds fields ∧
      r.shown id teamIds = .ok row ∧ fields.applyTo row = a := by
  cases c with
  | edit id teamIds fields =>
      simp only [noted?]
      cases hShown : r.shown id teamIds with
      | error e => simp [hShown]
      | ok row => simp [hShown]
  | _ => simp [noted?]

/-- What an edit has put into an alert changes the table exactly if it spoils something. -/
theorem noted_alerts_iff {r : Registry} (hKeyed : r.Keyed) :
    (((c.noted? r).map r.writeOver).getD r).alerts = r.alerts ↔ ¬c.Spoils r := by
  cases hNoted : c.noted? r with
  | none =>
      refine iff_of_true rfl ?_
      rintro ⟨id, teamIds, fields, row, hEdit, hShown, -⟩
      cases hNoted.symm.trans (noted?_eq_some.mpr ⟨id, teamIds, fields, row, hEdit, hShown, rfl⟩)
  | some a =>
      obtain ⟨id, teamIds, fields, row, rfl, hShown, rfl⟩ := noted?_eq_some.mp hNoted
      have hRow := (Registry.shown_eq_ok.mp hShown).1
      have hId := (fields.applyTo_id row).trans (Registry.alert?_id hRow)
      rw [Option.map_some, Option.getD_some, hKeyed.writeOver_alerts_iff (hId ▸ hRow)]
      constructor
      · rintro hSame ⟨id', teamIds', fields', row', hEdit, hShown', hSpoils⟩
        cases hEdit
        obtain rfl := Except.ok.inj (hShown.symm.trans hShown')
        exact hSpoils hSame
      · intro hSpares
        by_contra hOther
        exact hSpares ⟨id, teamIds, fields, row, rfl, hShown, hOther⟩

end Change

variable {d : Deployment} {c : Change} {e : Failure}

/-- A change fails because its alert is not there, its user has no access or its rule has a flaw.
By itself it then leaves everything as it was.  If its failure is caught in a unit of work, the unit
ends well, and the table of alerts is as it was before unless the change is an edit that spoils an
alert. -/
theorem refused_changes_leave_iff (h : d.Responsive) (hKeyed : d.registry.Keyed)
    (hFailed : (d.run c.program).1 = .error e) :
    (e.kind = .notFound ∨ e.kind = .noAccess ∨ e.kind = .invalid) ∧
      (d.openUnit = none → (d.run c.program).2 = d) ∧
      (d.caught c.program).1 = .ok (.error e) ∧
      ((d.caught c.program).2.registry.alerts = d.registry.alerts ↔ ¬c.Spoils d.registry) := by
  have hRefusal : c.refusal? d.registry = some e := by
    cases hRefusal : c.refusal? d.registry with
    | none =>
        obtain ⟨after, hRun⟩ := Change.run_granted h hRefusal
        rw [hRun] at hFailed
        cases hFailed
    | some cause =>
        rw [Change.run_refused h hRefusal] at hFailed
        exact congrArg some (Except.error.inj hFailed)
  obtain ⟨hCaught, hTables⟩ := Change.caught_refused h hRefusal
  refine ⟨Change.refusal?_kind hRefusal, fun hUnit => ?_, hCaught, ?_⟩
  · rw [Change.run_refused h hRefusal, Change.traced]
    cases c.noted? d.registry with
    | none => rfl
    | some a => exact Deployment.noteChange_eq hUnit (.alert a)
  · rw [hTables]
    exact Change.noted_alerts_iff hKeyed

/-- A user of another team cannot edit the alert, and leaves no trace in a unit of work. -/
theorem stranger_leaves_no_trace :
    let c : Change := .edit 1 [2] { threshold := some (-1) }
    (storedAlert.run c.program).1 = .error (.noAccessToAlert 1) ∧
      (storedAlert.caught c.program).2.registry.alerts = storedAlert.registry.alerts := by
  intro c
  have hQuiet : storedAlert.Quiet := ⟨rfl, rfl, rfl⟩
  have hFailed : (storedAlert.run c.program).1 = .error (.noAccessToAlert 1) := rfl
  refine ⟨hFailed, ?_⟩
  obtain ⟨-, -, -, hAlerts⟩ := refused_changes_leave_iff hQuiet.responsive
    ⟨by decide, by decide, by decide⟩ hFailed
  refine hAlerts.mpr ?_
  rintro ⟨id, teamIds, fields, row, hEdit, hShown, -⟩
  obtain ⟨rfl, rfl, rfl⟩ := Change.edit.inj hEdit
  cases hShown

/-- The threshold of -1 is refused, and stored as soon as the unit of work in which the failure was
caught is kept. -/
theorem refused_threshold_stored :
    let c : Change := .edit 1 [1] { threshold := some (-1) }
    (storedAlert.run c.program).1.isOk = false ∧
      (storedAlert.caught c.program).1.isOk = true ∧
      (storedAlert.caught c.program).2.registry.alerts.map Alert.threshold = [-1] ∧
      storedAlert.registry.alerts.map Alert.threshold = [10] := by
  decide +kernel

end Alerts
end Triage
