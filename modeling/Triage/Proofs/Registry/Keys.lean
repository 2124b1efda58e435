import Mathlib.Data.List.Nodup
import Triage.Proofs.Registry.Footprint

/-!
# Keys

Alerts and issues go by their identifiers and leases by their alerts.  The registry never holds two
rows under one key: no call makes it so (`Keyed.run`), and so no sequence of calls (`Keyed.runAll`).
A row is added only under a free identifier (`addedRow_eq_ok`), and an update keeps the identifiers
(`updatedRows_keys`).
-/

namespace Triage

/-- A registry call, with the clock reading and the fresh identifier that it is made with. -/
structure MadeCall where
  now : Instant
  freshUuid : String
  call : RegistryCall

/-- The registry after some calls, made one after the other. -/
def Registry.runAll (r : Registry) (calls : List MadeCall) : Registry :=
  calls.foldl (fun r c => (r.run c.now c.freshUuid c.call).2) r

theorem le_foldl_max (ids : List Int) (first : Int) :
    first ≤ ids.foldl max first ∧ ∀ id ∈ ids, id ≤ ids.foldl max first := by
  induction ids generalizing first with
  | nil => simp
  | cons id ids ih =>
      obtain ⟨hFirst, hRest⟩ := ih (max first id)
      simp only [List.foldl_cons, List.mem_cons, forall_eq_or_imp]
      exact ⟨by omega, by omega, hRest⟩

/-- The next identifier is larger than every one in use. -/
theorem lt_nextId {ids : List Int} {id : Int} (h : id ∈ ids) : id < nextId ids := by
  cases ids with
  | nil => simp at h
  | cons first rest =>
      have hBound := le_foldl_max rest first
      rw [List.mem_cons] at h
      simp only [nextId]
      rcases h with rfl | h
      · omega
      · have := hBound.2 id h
        omega

theorem nextId_notMem (ids : List Int) : nextId ids ∉ ids := by
  intro h
  have := lt_nextId h
  omega

/-- A row is added exactly when its draft is complete, its identifier is free and no other
constraint is broken. -/
theorem addedRow_eq_ok {operation table : String} {given : Option Int} {ids : List Int}
    {row : Int → Except Clash α} {clash? : α → Option Clash} {a : α} :
    addedRow operation table given ids row clash? = .ok a ↔
      row (given.getD (nextId ids)) = .ok a ∧ given.getD (nextId ids) ∉ ids ∧ clash? a = none := by
  simp only [addedRow]
  cases hRow : row (given.getD (nextId ids)) with
  | error clash => simp
  | ok new =>
      by_cases hTaken : given.getD (nextId ids) ∈ ids
      · simp [hTaken]
      · cases hClash : clash? new with
        | none =>
            simp only [List.contains_eq_mem, hTaken, decide_false, Bool.false_eq_true, if_false,
              hClash, Except.ok.injEq, not_false_eq_true, true_and]
            constructor
            · rintro rfl
              exact ⟨rfl, hClash⟩
            · exact And.left
        | some clash =>
            simp only [List.contains_eq_mem, hTaken, decide_false, Bool.false_eq_true, if_false,
              hClash, reduceCtorEq, Except.ok.injEq, not_false_eq_true, true_and, false_iff, not_and]
            rintro rfl
            simp [hClash]

/-- An update writes over every row that is meant, if there is one and what is written is
complete. -/
theorem updatedRows_eq_ok {operation : String} {isMeant : α → Bool} {revise : α → Except Clash α}
    {missing : Missing} {rows new : List α} :
    updatedRows operation isMeant revise missing rows = .ok new ↔
      ∃ row written, rows.find? isMeant = some row ∧ revise row = .ok written ∧
        new = rows.map fun r => if isMeant r then written else r := by
  unfold updatedRows
  cases hFind : rows.find? isMeant with
  | none => simp
  | some row =>
      cases hRevise : revise row with
      | error clash => simp [hRevise]
      | ok written =>
          simp only [hRevise, Except.ok.injEq, Option.some.injEq, exists_and_left, exists_eq_left']
          exact eq_comm

/-- Rows keep their keys when only rows with the key of what is written are written over. -/
theorem map_key_update {key : α → κ} {isMeant : α → Bool} {rows : List α} {written : α}
    (hMeant : ∀ r, isMeant r = true → key r = key written) :
    (rows.map fun r => if isMeant r then written else r).map key = rows.map key := by
  rw [List.map_map]
  refine List.map_congr_left fun r _ => ?_
  by_cases h : isMeant r = true
  · simp [h, hMeant r h]
  · simp [h]

/-- An update keeps the keys if it means rows of one key only and what is written keeps the key. -/
theorem updatedRows_keys {operation : String} {isMeant : α → Bool} {revise : α → Except Clash α}
    {missing : Missing} {rows new : List α} {key : α → κ}
    (hOne : ∀ r s, isMeant r = true → isMeant s = true → key r = key s)
    (hRevise : ∀ row written, revise row = .ok written → key written = key row)
    (h : updatedRows operation isMeant revise missing rows = .ok new) :
    new.map key = rows.map key := by
  obtain ⟨row, written, hFind, hWritten, rfl⟩ := updatedRows_eq_ok.mp h
  refine map_key_update fun r hMeant => ?_
  have hRow : isMeant row = true := List.find?_some hFind
  rw [hRevise row written hWritten]
  exact hOne r row hMeant hRow

/-- Keys stay distinct when a row is added under a free one. -/
theorem map_key_append {key : α → κ} {rows : List α} {row : α} (h : (rows.map key).Nodup)
    (hFree : key row ∉ rows.map key) : ((rows ++ [row]).map key).Nodup := by
  rw [List.map_append, List.map_singleton, ← List.concat_eq_append]
  exact h.concat hFree

/-- Of rows with distinct keys, a member is the one that is found under its key. -/
theorem find?_key_eq_some [DecidableEq κ] {key : α → κ} {rows : List α}
    (hKeys : (rows.map key).Nodup) {row : α} (h : row ∈ rows) :
    rows.find? (fun r => decide (key r = key row)) = some row := by
  induction rows with
  | nil => simp at h
  | cons first rest ih =>
      rw [List.map_cons, List.nodup_cons] at hKeys
      rw [List.mem_cons] at h
      rcases h with rfl | h
      · simp
      · have hNe : key first ≠ key row := fun hEq =>
          hKeys.1 (hEq ▸ List.mem_map_of_mem h)
        rw [List.find?_cons_of_neg (by simpa using hNe)]
        exact ih hKeys.2 h

/-- Of rows with distinct keys, the one that is found under a key is the only one. -/
theorem eq_of_find?_key [DecidableEq κ] {key : α → κ} {rows : List α} (hKeys : (rows.map key).Nodup)
    {k : κ} {found row : α} (hFind : rows.find? (fun r => decide (key r = k)) = some found)
    (hMem : row ∈ rows) (hKey : key row = k) : row = found := by
  have hSame := find?_key_eq_some hKeys hMem
  rw [hKey, hFind] at hSame
  exact (Option.some.inj hSame).symm

/-- Of rows with distinct keys, exactly one has the key of a member. -/
theorem filter_key_eq_singleton [DecidableEq κ] {key : α → κ} {rows : List α}
    (hKeys : (rows.map key).Nodup) {row : α} (h : row ∈ rows) :
    rows.filter (fun r => decide (key r = key row)) = [row] := by
  induction rows with
  | nil => simp at h
  | cons first rest ih =>
      rw [List.map_cons, List.nodup_cons] at hKeys
      rw [List.mem_cons] at h
      rcases h with rfl | h
      · have hRest : rest.filter (fun r => decide (key r = key row)) = [] := by
          rw [List.filter_eq_nil_iff]
          intro r hr hEq
          exact hKeys.1 (of_decide_eq_true hEq ▸ List.mem_map_of_mem hr)
        rw [List.filter_cons_of_pos (by simp), hRest]
      · have hNe : key first ≠ key row := fun hEq =>
          hKeys.1 (hEq ▸ List.mem_map_of_mem h)
        rw [List.filter_cons_of_neg (by simpa using hNe)]
        exact ih hKeys.2 h

theorem AlertDraft.complete_id {d : AlertDraft} {id : Int} {now : Instant} {a : Alert}
    (h : d.complete id now = .ok a) : a.id = id := by
  simp only [AlertDraft.complete, bind, Except.bind, pure, Except.pure] at h
  repeat' split at h
  all_goals cases h
  rfl

theorem AlertDraft.complete_status {d : AlertDraft} {id : Int} {now : Instant} {a : Alert}
    (h : d.complete id now = .ok a) : a.status = d.status.getD Alert.active := by
  simp only [AlertDraft.complete, bind, Except.bind, pure, Except.pure] at h
  repeat' split at h
  all_goals cases h
  rfl

theorem IssueDraft.complete_id {d : IssueDraft} {id : Int} {now : Instant} {freshUuid : String}
    {i : Issue} (h : d.complete id now freshUuid = .ok i) : i.id = id := by
  simp only [IssueDraft.complete, bind, Except.bind, pure, Except.pure] at h
  repeat' split at h
  all_goals cases h
  rfl

theorem AlertDraft.onto_id {d : AlertDraft} {row a : Alert} (h : d.onto row = .ok a) :
    a.id = row.id := by
  simp only [AlertDraft.onto, bind, Except.bind, pure, Except.pure] at h
  repeat' split at h
  all_goals cases h
  rfl

namespace Registry

/-- A change that succeeds is made. -/
theorem changed_ok {r : Registry} {result : Except Failure α} {a : α} (h : result = .ok a)
    (write : α → Registry) :
    r.changed result write = (.ok a, write a) := by
  rw [h]
  rfl

theorem written_ok {r : Registry} {result : Except Failure α} {a : α} (h : result = .ok a)
    (write : α → Registry) :
    r.written result write = (.ok (), write a) := by
  rw [h]
  rfl

/-- No two alerts, leases or issues under one key. -/
structure Keyed (r : Registry) : Prop where
  alerts : (r.alerts.map Alert.id).Nodup
  leases : (r.leases.map Lease.alertId).Nodup
  issues : (r.issues.map Issue.id).Nodup

theorem keyed_empty : Registry.empty.Keyed :=
  ⟨List.nodup_nil, List.nodup_nil, List.nodup_nil⟩

/-- Granting a lease keeps one row for each alert. -/
theorem acquire_keyed {leases : List Lease} (new : Lease)
    (h : (leases.map Lease.alertId).Nodup) : ((acquire leases new).2.map Lease.alertId).Nodup := by
  unfold acquire
  cases hFind : leases.find? fun l => l.alertId = new.alertId with
  | none =>
      exact map_key_append h (by simpa using List.find?_eq_none.mp hFind)
  | some old =>
      dsimp only
      split
      · have hSame : (leases.map fun l => if decide (l.alertId = new.alertId) then new else l).map
            Lease.alertId = leases.map Lease.alertId :=
          map_key_update fun l hl => of_decide_eq_true hl
        simp only [decide_eq_true_eq] at hSame
        rwa [hSame]
      · exact h

private theorem alerts_keyed {r : Registry} (now : Instant) (freshUuid : String)
    (call : RegistryCall) (h : (r.alerts.map Alert.id).Nodup) :
    ((r.apply now freshUuid call).2.alerts.map Alert.id).Nodup := by
  cases call with
  | createAlert d =>
      simp only [apply, changed]
      split
      next a hAdded =>
        obtain ⟨hRow, hFree, -⟩ := addedRow_eq_ok.mp hAdded
        rw [← AlertDraft.complete_id hRow] at hFree
        exact map_key_append h hFree
      · exact h
  | updateAlert d =>
      simp only [apply, written]
      split
      next alerts hUpdated =>
        rw [updatedRows_keys (fun a b ha hb => ?_) (fun a b => AlertDraft.onto_id) hUpdated]
        · exact h
        · exact Option.some.inj ((of_decide_eq_true ha).trans (of_decide_eq_true hb).symm)
      · exact h
  | deleteAlert id =>
      simp only [apply, deleted]
      split
      · exact h.sublist (List.filter_sublist.map _)
      · exact h
  | _ =>
      rw [show _ = r.alerts from apply_sameRows (t := .alerts) r now freshUuid _
        (by simp [RegistryCall.writes])]
      exact h

private theorem leases_keyed {r : Registry} (now : Instant) (freshUuid : String)
    (call : RegistryCall) (h : (r.leases.map Lease.alertId).Nodup) :
    ((r.apply now freshUuid call).2.leases.map Lease.alertId).Nodup := by
  cases call with
  | acquireLease d =>
      simp only [apply]
      split
      · exact h
      · exact acquire_keyed _ h
  | releaseLease alertId holder => exact h.sublist (List.filter_sublist.map _)
  | cleanUpLeases time => exact h.sublist (List.filter_sublist.map _)
  | _ =>
      rw [show _ = r.leases from apply_sameRows (t := .leases) r now freshUuid _
        (by simp [RegistryCall.writes])]
      exact h

private theorem issues_keyed {r : Registry} (now : Instant) (freshUuid : String)
    (call : RegistryCall) (h : (r.issues.map Issue.id).Nodup) :
    ((r.apply now freshUuid call).2.issues.map Issue.id).Nodup := by
  cases call with
  | storeIssue d =>
      simp only [apply, changed]
      split
      next i hAdded =>
        obtain ⟨hRow, hFree, -⟩ := addedRow_eq_ok.mp hAdded
        rw [← IssueDraft.complete_id hRow] at hFree
        exact map_key_append h hFree
      · exact h
  | updateLastSeen id change =>
      simp only [apply, written]
      split
      next issues hUpdated =>
        rw [updatedRows_keys (fun i j hi hj => ?_) (fun i j hNew => ?_) hUpdated]
        · exact h
        · exact (of_decide_eq_true hi).trans (of_decide_eq_true hj).symm
        · obtain rfl := Except.ok.inj hNew
          rfl
      · exact h
  | _ =>
      rw [show _ = r.issues from apply_sameRows (t := .issues) r now freshUuid _
        (by simp [RegistryCall.writes])]
      exact h

/-- Every call keeps the keys. -/
theorem Keyed.run {r : Registry} (h : r.Keyed) (now : Instant) (freshUuid : String)
    (call : RegistryCall) : (r.run now freshUuid call).2.Keyed := by
  unfold Registry.run
  split
  · exact h
  · exact ⟨alerts_keyed now freshUuid call h.alerts, leases_keyed now freshUuid call h.leases,
      issues_keyed now freshUuid call h.issues⟩

@[simp] theorem runAll_cons (r : Registry) (c : MadeCall) (calls : List MadeCall) :
    r.runAll (c :: calls) = (r.run c.now c.freshUuid c.call).2.runAll calls := rfl

theorem Keyed.runAll {r : Registry} (h : r.Keyed) (calls : List MadeCall) :
    (r.runAll calls).Keyed := by
  induction calls generalizing r with
  | nil => exact h
  | cons c calls ih => exact ih (h.run c.now c.freshUuid c.call)

end Registry
end Triage
