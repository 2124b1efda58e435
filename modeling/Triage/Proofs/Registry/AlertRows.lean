import Triage.Proofs.Registry.Keys
import Triage.Proofs.Registry.Paging

/-!
# Rows of alerts

The row of an alert and what the calls of the registry read and write of it.  Listings reply rows
as they are, each alert once (`Keyed.listAlerts`).  Writing a draft over an alert changes the row of
that alert and no other (`updateAlert_rows`); all of the row is then what the draft says, except for
identity, team, project and time of creation (`onto_draft`).  So an update changes no stamp, and the
order of a listing is read from the stamps (`updateAlert_stamps`, `newestFirst_stamps`).
-/

namespace Triage

/-- An alert written over a row: identity, team, project and time of creation are those of the row. -/
def Alert.over (a row : Alert) : Alert :=
  { a with id := row.id, projectId := row.projectId, teamId := row.teamId,
           createdAt := row.createdAt }

@[simp] theorem Alert.over_id (a row : Alert) : (a.over row).id = row.id := rfl

/-- A draft that names every column can always be written. -/
theorem Alert.onto_draft (a row : Alert) : a.draft.onto row = .ok (a.over row) := rfl

/-- What the order of a listing is read from. -/
def Alert.stamp (a : Alert) : Instant × Int := (a.createdAt, a.id)

namespace Registry

/-- The row of an alert. -/
def alert? (r : Registry) (id : Int) : Option Alert := r.alerts.find? fun a => a.id = id

/-- A row is the row of its alert. -/
theorem Keyed.alert?_eq {r : Registry} (h : r.Keyed) {row : Alert} (hMem : row ∈ r.alerts) :
    r.alert? row.id = some row :=
  find?_key_eq_some h.alerts hMem

theorem alert?_congr {r s : Registry} (h : s.alerts = r.alerts) (id : Int) :
    s.alert? id = r.alert? id := by
  rw [alert?, alert?, h]

/-- A listing holds rows of the registry. -/
theorem mem_of_listAlerts {r s : Registry} {now : Instant} {freshUuid : String} {p : AlertPage}
    {listed : List Alert × Nat} (hRun : r.run now freshUuid (.listAlerts p) = (.ok listed, s)) :
    ∀ row ∈ listed.1, row ∈ r.alerts := by
  unfold Registry.run at hRun
  split at hRun
  · cases hRun
  · have hPerm := newestFirst_perm Alert.createdAt Alert.id (r.alerts.filter (r.isListed p))
    obtain ⟨hListed, rfl⟩ := Prod.mk.inj hRun
    obtain rfl := Except.ok.inj hListed
    intro row hRow
    exact List.mem_of_mem_filter (hPerm.mem_iff.mp ((page_sublist ..).subset hRow))

/-- The alert of a lookup is a row of the registry. -/
theorem mem_of_getAlert {r s : Registry} {now : Instant} {freshUuid : String} {id : Int}
    {row : Alert} (hRun : r.run now freshUuid (.getAlert id) = (.ok row, s)) : row ∈ r.alerts := by
  unfold Registry.run at hRun
  split at hRun
  · cases hRun
  · simp only [apply, foundRow] at hRun
    split at hRun
    · cases hRun
    next found hFind =>
      obtain ⟨hFound, -⟩ := Prod.mk.inj hRun
      obtain rfl := Except.ok.inj hFound
      exact List.mem_of_find?_eq_some hFind

/-- A row of the alerts after a call was there before, or is the new one that the call has added, or
one that the call has written over a row. -/
theorem mem_alerts_run {r s : Registry} {now : Instant} {freshUuid : String} {call : RegistryCall}
    {reply : Except Failure call.Reply} (hRun : r.run now freshUuid call = (reply, s)) {a : Alert}
    (h : a ∈ s.alerts) :
    a ∈ r.alerts ∨ (∃ d id, call = .createAlert d ∧ d.complete id now = .ok a) ∨
      ∃ d row, call = .updateAlert d ∧ d.onto row = .ok a := by
  have hAfter : a ∈ (r.run now freshUuid call).2.alerts := by rwa [hRun]
  cases call with
  | createAlert d =>
      unfold run at hAfter
      split at hAfter
      · exact .inl hAfter
      simp only [apply, changed] at hAfter
      split at hAfter
      next new hAdded =>
        rcases List.mem_append.mp hAfter with hOld | hNew
        · exact .inl hOld
        · obtain rfl := List.mem_singleton.mp hNew
          exact .inr (.inl ⟨d, _, rfl, (addedRow_eq_ok.mp hAdded).1⟩)
      · exact .inl hAfter
  | updateAlert d =>
      unfold run at hAfter
      split at hAfter
      · exact .inl hAfter
      simp only [apply, written] at hAfter
      split at hAfter
      next rows hUpdated =>
        obtain ⟨row, new, -, hOnto, rfl⟩ := updatedRows_eq_ok.mp hUpdated
        obtain ⟨old, hOld, rfl⟩ := List.mem_map.mp hAfter
        split
        · exact .inr (.inr ⟨d, row, rfl, hOnto⟩)
        · exact .inl hOld
      · exact .inl hAfter
  | deleteAlert id =>
      unfold run at hAfter
      split at hAfter
      · exact .inl hAfter
      simp only [apply, deleted] at hAfter
      split at hAfter
      · exact .inl (List.mem_of_mem_filter hAfter)
      · exact .inl hAfter
  | _ =>
      rw [r.run_sameRows (t := .alerts) now freshUuid _ (by simp [RegistryCall.writes])] at hAfter
      exact .inl hAfter

/-- A listing holds rows of the registry, no alert twice. -/
theorem Keyed.listAlerts {r s : Registry} (h : r.Keyed) {now : Instant} {freshUuid : String}
    {p : AlertPage} {listed : List Alert × Nat}
    (hRun : r.run now freshUuid (.listAlerts p) = (.ok listed, s)) :
    s = r ∧ (listed.1.map Alert.id).Nodup ∧ ∀ row ∈ listed.1, row ∈ r.alerts := by
  have hRows := mem_of_listAlerts hRun
  unfold Registry.run at hRun
  split at hRun
  · cases hRun
  · have hPerm := newestFirst_perm Alert.createdAt Alert.id (r.alerts.filter (r.isListed p))
    have hKeys : ((r.alerts.filter (r.isListed p)).map Alert.id).Nodup :=
      h.alerts.sublist (List.filter_sublist.map _)
    obtain ⟨hListed, rfl⟩ := Prod.mk.inj hRun
    obtain rfl := Except.ok.inj hListed
    refine ⟨rfl, ?_, hRows⟩
    exact ((hPerm.map Alert.id).nodup_iff.mpr hKeys).sublist ((page_sublist ..).map _)

/-- A listing that names no team and no project is one of all alerts. -/
theorem listAlerts_all (r : Registry) (now : Instant) (freshUuid : String) (limit : Int) :
    r.apply now freshUuid (.listAlerts ⟨[], "", 0, limit⟩) =
      (.ok (page 0 limit (newestFirst Alert.createdAt Alert.id r.alerts),
        (newestFirst Alert.createdAt Alert.id r.alerts).length), r) := by
  have hEvery : r.alerts.filter (r.isListed ⟨[], "", 0, limit⟩) = r.alerts :=
    List.filter_eq_self.mpr fun a _ => rfl
  simp only [apply, hEvery]

/-- Writing over rows under one key finds the written row under this key, and under every other key
what was there. -/
theorem find?_key_update [DecidableEq κ] {key : α → κ} {rows : List α} {written row : α}
    (hFind : rows.find? (fun r => decide (key r = key written)) = some row) (k : κ) :
    (rows.map fun r => if key r = key written then written else r).find? (fun r => decide (key r = k))
      = if k = key written then some written else rows.find? fun r => decide (key r = k) := by
  have hKey : ∀ r, key (if key r = key written then written else r) = key r := fun r => by
    split
    next h => exact h.symm
    next => rfl
  rw [List.find?_map]
  simp only [Function.comp_def, hKey]
  by_cases hk : k = key written
  · subst hk
    have hRow : key row = key written := by simpa using List.find?_some hFind
    rw [hFind, if_pos rfl, Option.map_some, if_pos hRow]
  · rw [if_neg hk]
    cases hOther : rows.find? fun r => decide (key r = k) with
    | none => rfl
    | some other =>
        have hKeyOther : key other = k := by simpa using List.find?_some hOther
        rw [Option.map_some, if_neg (hKeyOther ▸ hk)]

/-- A draft of an alert can be written as long as the alert has a row. -/
theorem updateAlert_ok {r : Registry} (hThere : r.dropped = false) (now : Instant)
    (freshUuid : String) {a row : Alert} (hRow : r.alert? a.id = some row) :
    ∃ s, r.run now freshUuid (.updateAlert a.draft) = (.ok (), s) := by
  have hMeant : r.alerts.find? (fun b => decide (some b.id = a.draft.id)) = some row := by
    simpa [Alert.draft, alert?] using hRow
  have hUpdated : updatedRows (RegistryCall.updateAlert a.draft).operation
      (fun b => decide (some b.id = a.draft.id)) a.draft.onto (.alert a.draft.id) r.alerts = .ok _ :=
    updatedRows_eq_ok.mpr ⟨row, _, hMeant, a.onto_draft row, rfl⟩
  simp only [run_eq_apply hThere, apply, hUpdated]
  exact ⟨_, rfl⟩

/-- A draft of an alert without a row cannot be written. -/
theorem updateAlert_missing {r : Registry} {a : Alert} (h : r.alert? a.id = none) (now : Instant)
    (freshUuid : String) :
    r.apply now freshUuid (.updateAlert a.draft) = (.error (.notFound (.alert a.draft.id)), r) := by
  have hMeant : r.alerts.find? (fun b => decide (some b.id = a.draft.id)) = none := by
    simpa [Alert.draft, alert?] using h
  have hUpdated : updatedRows (RegistryCall.updateAlert a.draft).operation
      (fun b => decide (some b.id = a.draft.id)) a.draft.onto (.alert a.draft.id) r.alerts =
        .error (.notFound (.alert a.draft.id)) := by
    simp only [updatedRows, hMeant]
  simp only [apply, hUpdated]
  rfl

/-- What a successful update has written. -/
theorem updateAlert_eq {r s : Registry} {now : Instant} {freshUuid : String} {a : Alert}
    (hRun : r.run now freshUuid (.updateAlert a.draft) = (.ok (), s)) :
    ∃ row, r.alert? a.id = some row ∧
      s = { r with alerts := r.alerts.map fun b => if b.id = a.id then a.over row else b } := by
  unfold run at hRun
  split at hRun
  · cases hRun
  simp only [apply, written] at hRun
  split at hRun
  next alerts hUpdated =>
    obtain ⟨row, new, hFind, hOnto, rfl⟩ := updatedRows_eq_ok.mp hUpdated
    obtain rfl := Except.ok.inj (hOnto.symm.trans (a.onto_draft row))
    obtain ⟨-, rfl⟩ := Prod.mk.inj hRun
    simp only [Alert.draft, Option.some.injEq] at hFind
    exact ⟨row, hFind, by simp [Alert.draft]⟩
  · cases hRun

/-- Writing a draft of an alert over its row leaves the rows of all other alerts. -/
theorem updateAlert_rows {r s : Registry} {now : Instant} {freshUuid : String} {a : Alert}
    (hRun : r.run now freshUuid (.updateAlert a.draft) = (.ok (), s)) :
    ∃ row, r.alert? a.id = some row ∧
      ∀ id, s.alert? id = if id = a.id then some (a.over row) else r.alert? id := by
  obtain ⟨row, hFind, rfl⟩ := updateAlert_eq hRun
  have hId : row.id = a.id := by simpa using List.find?_some hFind
  refine ⟨row, hFind, fun id => ?_⟩
  have hMeant : r.alerts.find? (fun b => decide (b.id = (a.over row).id)) = some row := by
    rw [Alert.over_id, hId]
    exact hFind
  simpa [alert?, hId] using find?_key_update hMeant id

/-- Writing a draft of an alert over its row leaves every identifier and time of creation. -/
theorem Keyed.updateAlert_stamps {r s : Registry} (h : r.Keyed) {now : Instant} {freshUuid : String}
    {a : Alert} (hRun : r.run now freshUuid (.updateAlert a.draft) = (.ok (), s)) :
    s.alerts.map Alert.stamp = r.alerts.map Alert.stamp := by
  obtain ⟨row, hFind, rfl⟩ := updateAlert_eq hRun
  rw [List.map_map]
  refine List.map_congr_left fun b hb => ?_
  by_cases hMeant : b.id = a.id
  · -- The row that is written over is the one that was found.
    obtain rfl := eq_of_find?_key h.alerts hFind hb hMeant
    simp [hMeant, Alert.stamp, Alert.over]
  · simp [hMeant]

/-- The order of a listing is read from the stamps. -/
theorem newestFirst_stamps (alerts : List Alert) :
    (newestFirst Alert.createdAt Alert.id alerts).map Alert.stamp =
      newestFirst Prod.fst Prod.snd (alerts.map Alert.stamp) :=
  newestFirst_map_stampOf Alert.createdAt Alert.id alerts

end Registry
end Triage
