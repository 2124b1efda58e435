import Triage.Proofs.Alert.Managing

/-!
# What an edit stores

An edit by itself returns the alert as it should be from then on.  What a lookup finds afterwards is
this alert, with the state that the worker keeps as it was, but still in the project in which it was
before (`edit_stored_iff`): the project is none of the columns that writing an alert writes
(`Alert.over`).  So the alert that is returned is the one that is stored exactly if the edit moves
it to no other project.
-/

namespace Triage.Alerts

open Program

variable {d after : Deployment} {id : Int} {teamIds : List Int} {edit : RuleEdit} {row a : Alert}

/-- A lookup after an edit finds the alert that the edit has returned, in the project in which it
was before. -/
theorem edit_stored_iff (h : d.Quiet) (hEdited : d.run (update id teamIds edit) = (.ok a, after)) :
    ∃ row text stored, d.registry.alert? id = some row ∧ row.teamId ∈ teamIds ∧
      a = edit.result row text d.now ∧
      Rule.describe a.threshold a.condition a.timeframe = .ok text ∧
      (∀ others, row.teamId ∈ others → after.run (get id others) = (.ok stored, after)) ∧
      stored = { a with projectId := row.projectId } ∧
      (stored.status = row.status ∧ stored.createdAt = row.createdAt ∧
        stored.lastTriggeredAt = row.lastTriggeredAt ∧ stored.resolvedAt = row.resolvedAt) ∧
      (stored = a ↔ ∀ p, edit.projectId = some p → p = row.projectId) := by
  cases hShown : d.registry.shown id teamIds with
  | error e => rw [run_update_unseen h.responsive hShown] at hEdited; cases hEdited
  | ok row =>
  cases hFlaw : (edit.applyTo row).flaw? with
  | some flaw => rw [run_update_flaw h.responsive hShown hFlaw] at hEdited; cases hEdited
  | none =>
  obtain ⟨text, held, after', hText, hRun, hHeld, hStored⟩ :=
    run_update_granted h.responsive hShown hFlaw
  obtain ⟨hOk, rfl⟩ := Prod.mk.inj (hRun.symm.trans hEdited)
  obtain rfl := Except.ok.inj hOk
  obtain ⟨hRow, hTeam⟩ := Registry.shown_eq_ok.mp hShown
  have hAfter : after'.Quiet := h.of_run hEdited
  -- By itself the edit is written over the row that was there before.
  rw [RuleEdit.noted, Deployment.noteChange_eq h.unit, Deployment.noteChange_eq h.unit,
    hRow] at hHeld
  obtain rfl := Option.some.inj hHeld
  refine ⟨row, text, _, hRow, hTeam, rfl, hText, fun others hOther => ?_, rfl,
    ⟨rfl, rfl, rfl, rfl⟩, ?_⟩
  · exact run_get hAfter.responsive (Registry.shown_eq_ok.mpr ⟨hStored, hOther⟩)
  · have hProject :
        (edit.result row text d.now).projectId = edit.projectId.getD row.projectId := rfl
    constructor
    · intro hSame p hMoved
      have hKept := congrArg Alert.projectId hSame
      rw [hProject, hMoved] at hKept
      exact hKept.symm
    · intro hStay
      have hKept : edit.projectId.getD row.projectId = row.projectId := by
        cases hMoved : edit.projectId with
        | none => rfl
        | some p => exact hStay p hMoved
      rw [← hKept]
      rfl

/-- Raising the threshold of an alert in the same project is stored as it is returned. -/
theorem raised_threshold_stored :
    ∃ a after, storedAlert.run (update 1 [1] { threshold := some 20 }) = (.ok a, after) ∧
      a.threshold = 20 ∧ after.run (get 1 [1]) = (.ok a, after) := by
  have hQuiet : storedAlert.Quiet := ⟨rfl, rfl, rfl⟩
  let raise : RuleEdit := { threshold := some 20 }
  have hShown : storedAlert.registry.shown 1 [1] = .ok spikeAlert := rfl
  have hSound : (raise.applyTo spikeAlert).flaw? = none := by decide +kernel
  obtain ⟨text, _, after, -, hRun, -⟩ := run_update_granted hQuiet.responsive hShown hSound
  obtain ⟨row, _, stored, hRow, -, ha, -, hGet, -, -, hSame⟩ := edit_stored_iff hQuiet hRun
  obtain rfl := Option.some.inj (hRow.symm.trans rfl)
  refine ⟨_, after, hRun, rfl, ?_⟩
  rw [hGet [1] (by decide), hSame.mpr fun p hp => by cases hp]

/-- Moving the alert to project 2 returns it in project 2, and it stays in project 1. -/
theorem move_not_stored :
    let edited := storedAlert.run (update 1 [1] { projectId := some 2 })
    edited.1.toOption.map Alert.projectId = some 2 ∧
      (edited.2.run (get 1 [1])).1.toOption.map Alert.projectId = some 1 := by
  decide +kernel

end Triage.Alerts
