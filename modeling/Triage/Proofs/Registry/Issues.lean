import Triage.Event.Ingestion
import Triage.Proofs.Registry.Keys
import Triage.Proofs.Text.Numerals

/-!
# Identities of issues

An issue keeps its identifiers, its project and its fingerprint for good.  A call either leaves the
identities of all issues as they are, or it stores an issue and adds one, under an identifier and in
a group that were free until then (`run_identities`).  So no project has two issues of one
fingerprint if it had none before (`OnePerGroup.run`).  A group can be read off the key under which
its issue is remembered (`Events.cacheKey_injective`).
-/

namespace Triage

/-- What tells an issue from all others. -/
structure Issue.Identity where
  id : Int
  uuid : String
  projectId : Int
  fingerprint : String
deriving DecidableEq, Repr

namespace Issue

def identity (i : Issue) : Identity := ⟨i.id, i.uuid, i.projectId, i.fingerprint⟩

/-- The project and the fingerprint of the reports that an issue is of. -/
def Identity.group (x : Identity) : Int × String := (x.projectId, x.fingerprint)

end Issue

theorem IssueDraft.complete_identity {d : IssueDraft} {id : Int} {now : Instant} {freshUuid : String}
    {i : Issue} (h : d.complete id now freshUuid = .ok i) :
    i.id = id ∧ i.uuid = d.uuid.getD freshUuid ∧ d.projectId = some i.projectId ∧
      d.fingerprint = some i.fingerprint := by
  refine ⟨complete_id h, ?_⟩
  rcases d with ⟨_, _, _ | projectId, _ | fingerprint⟩
  case some.some =>
    obtain rfl := Except.ok.inj h
    exact ⟨rfl, rfl, rfl⟩
  all_goals cases h

namespace Registry

variable {r s : Registry}

/-- The identities of all issues, the oldest issue first. -/
def identities (r : Registry) : List Issue.Identity := r.issues.map Issue.identity

/-- No project has two issues of one fingerprint. -/
def OnePerGroup (r : Registry) : Prop := (r.identities.map Issue.Identity.group).Nodup

theorem map_id_identities (r : Registry) :
    r.identities.map Issue.Identity.id = r.issues.map Issue.id := by
  simp [identities, Function.comp_def, Issue.identity]

theorem find?_identities (r : Registry) (projectId : Int) (fingerprint : String) :
    r.identities.find? (fun x => decide (x.group = (projectId, fingerprint))) =
      (r.issues.find? fun i => i.projectId = projectId && i.fingerprint = fingerprint).map
        Issue.identity := by
  rw [identities, List.find?_map]
  refine congrArg (fun p => (r.issues.find? p).map Issue.identity) (funext fun i => ?_)
  rw [Bool.eq_iff_iff]
  simp only [Function.comp_apply, Issue.identity, Issue.Identity.group, Prod.mk.injEq,
    Bool.and_eq_true, decide_eq_true_iff]
  exact decide_eq_true_iff

/-- An issue is looked up by its group. -/
theorem getIssue_cases (r : Registry) (now : Instant) (freshUuid : String) (projectId : Int)
    (fingerprint : String) :
    (∃ i : Issue, r.apply now freshUuid (.getIssue projectId fingerprint) = (.ok i, r) ∧
        r.identities.find? (fun x => decide (x.group = (projectId, fingerprint))) = some i.identity) ∨
      r.apply now freshUuid (.getIssue projectId fingerprint) =
          (.error (.notFound (.issueOf projectId fingerprint)), r) ∧
        r.identities.find? (fun x => decide (x.group = (projectId, fingerprint))) = none := by
  rw [find?_identities]
  simp only [apply, foundRow]
  split
  next hFind => exact .inr ⟨rfl, congrArg (Option.map Issue.identity) hFind⟩
  next i hFind => exact .inl ⟨i, rfl, congrArg (Option.map Issue.identity) hFind⟩

/-- An issue is marked as seen if it is there. -/
theorem updateLastSeen_cases (r : Registry) (now : Instant) (freshUuid : String) (id : Int)
    (change : IssueChange) :
    (id ∈ r.identities.map Issue.Identity.id ∧
        (r.apply now freshUuid (.updateLastSeen id change)).1 = .ok ()) ∨
      id ∉ r.identities.map Issue.Identity.id ∧
        r.apply now freshUuid (.updateLastSeen id change) = (.error (.notFound (.issue id)), r) := by
  rw [map_id_identities]
  simp only [apply, written, updatedRows]
  cases hFind : r.issues.find? fun i => decide (i.id = id) with
  | none =>
      refine .inr ⟨fun hMem => ?_, rfl⟩
      obtain ⟨i, hi, rfl⟩ := List.mem_map.mp hMem
      simpa using List.find?_eq_none.mp hFind i hi
  | some row =>
      have hRow : row.id = id := by simpa using List.find?_some hFind
      exact .inl ⟨hRow ▸ List.mem_map_of_mem (List.mem_of_find?_eq_some hFind), rfl⟩

/-- An issue whose group and identifiers are free is stored. -/
theorem storeIssue_free {draft : IssueDraft} {now : Instant} {freshUuid : String} {i : Issue}
    (hRow : draft.complete (nextId (r.issues.map Issue.id)) now freshUuid = .ok i)
    (hId : draft.id = none)
    (hGroup : i.identity.group ∉ r.identities.map Issue.Identity.group)
    (hUuid : i.uuid ∉ r.identities.map Issue.Identity.uuid) :
    r.apply now freshUuid (.storeIssue draft) = (.ok i, { r with issues := r.issues ++ [i] }) := by
  have hClash : r.issueClash? i = none := by
    simp only [identities, List.map_map, List.mem_map, Function.comp_apply, not_exists, not_and,
      Issue.identity, Issue.Identity.group, Prod.mk.injEq] at hGroup hUuid
    unfold issueClash?
    rw [if_neg (by simpa using hGroup), if_neg (by simpa using hUuid)]
  have hAdded : addedRow (RegistryCall.storeIssue draft).operation "issues" draft.id
      (r.issues.map Issue.id) (draft.complete · now freshUuid) r.issueClash? = .ok i := by
    rw [hId]
    exact addedRow_eq_ok.mpr ⟨hRow, nextId_notMem _, hClash⟩
  simp only [apply, changed]
  split
  next row hRow' => rw [Except.ok.inj (hRow'.symm.trans hAdded)]
  next e hFailed => cases hFailed.symm.trans hAdded

/-- What a look-up replies is in the tables. -/
theorem getIssue_eq {now : Instant} {freshUuid : String} {projectId : Int} {fingerprint : String}
    {i : Issue} (hRun : r.run now freshUuid (.getIssue projectId fingerprint) = (.ok i, s)) :
    s = r ∧ i.identity ∈ r.identities ∧ i.identity.group = (projectId, fingerprint) := by
  unfold run at hRun
  split at hRun
  · cases hRun
  obtain ⟨found, hApply, hFind⟩ | ⟨hApply, -⟩ := r.getIssue_cases now freshUuid projectId fingerprint
  · rw [hApply] at hRun
    obtain ⟨hReply, rfl⟩ := Prod.mk.inj hRun
    obtain rfl := Except.ok.inj hReply
    exact ⟨rfl, List.mem_of_find?_eq_some hFind, by simpa using List.find?_some hFind⟩
  · rw [hApply] at hRun
    cases hRun

theorem issueClash?_eq_none {i : Issue} (h : r.issueClash? i = none) :
    i.identity.group ∉ r.identities.map Issue.Identity.group := by
  unfold issueClash? at h
  split at h
  · cases h
  next hFree =>
    simpa [identities, Issue.identity, Issue.Identity.group] using hFree

/-- An issue is stored under an identifier and in a group that are free. -/
theorem storeIssue_eq {now : Instant} {freshUuid : String} {draft : IssueDraft} {i : Issue}
    (hRun : r.run now freshUuid (.storeIssue draft) = (.ok i, s)) :
    s = { r with issues := r.issues ++ [i] } ∧
      draft.complete (draft.id.getD (nextId (r.issues.map Issue.id))) now freshUuid = .ok i ∧
      i.id ∉ r.issues.map Issue.id ∧
      i.identity.group ∉ r.identities.map Issue.Identity.group := by
  unfold run at hRun
  split at hRun
  · cases hRun
  simp only [apply, changed] at hRun
  split at hRun
  next row hAdded =>
    obtain ⟨hRow, hId, hClash⟩ := addedRow_eq_ok.mp hAdded
    obtain ⟨hReply, rfl⟩ := Prod.mk.inj hRun
    obtain rfl := Except.ok.inj hReply
    rw [← IssueDraft.complete_id hRow] at hId
    exact ⟨rfl, hRow, hId, issueClash?_eq_none hClash⟩
  · cases hRun

/-- Marking an issue as seen changes no identity. -/
theorem Keyed.updateLastSeen_identities (h : r.Keyed) (now : Instant) (freshUuid : String) (id : Int)
    (change : IssueChange) :
    (r.run now freshUuid (.updateLastSeen id change)).2.identities = r.identities := by
  unfold Registry.run
  split
  · rfl
  simp only [apply, written]
  split
  next issues hUpdated =>
    obtain ⟨row, new, hFind, hNew, rfl⟩ := updatedRows_eq_ok.mp hUpdated
    obtain rfl := Except.ok.inj hNew
    -- Only the row itself has its identifier, so it is written over by its own identity.
    have hOnly : ∀ i ∈ r.issues, i.id = id → i = row := fun i hi hId =>
      eq_of_find?_key h.issues hFind hi hId
    simp only [identities, List.map_map]
    refine List.map_congr_left fun i hi => ?_
    simp only [Function.comp_apply, decide_eq_true_eq]
    split
    next hId => rw [hOnly i hi hId]; rfl
    next => rfl
  · rfl

/-- What a call does to the identities of the issues. -/
theorem Keyed.run_identities (h : r.Keyed) (now : Instant) (freshUuid : String)
    (call : RegistryCall) :
    (r.run now freshUuid call).2.identities = r.identities ∨
      ∃ (draft : IssueDraft) (i : Issue), call = .storeIssue draft ∧
        r.run now freshUuid (.storeIssue draft) = (.ok i, { r with issues := r.issues ++ [i] }) := by
  cases call with
  | storeIssue draft =>
      cases hRun : r.run now freshUuid (.storeIssue draft) with
      | mk reply s =>
          cases reply with
          | error e =>
              left
              unfold Registry.run at hRun
              split at hRun
              · exact congrArg identities (Prod.mk.inj hRun).2.symm
              simp only [apply, changed] at hRun
              split at hRun
              · cases hRun
              · exact congrArg identities (Prod.mk.inj hRun).2.symm
          | ok i =>
              obtain ⟨rfl, -⟩ := storeIssue_eq hRun
              exact .inr ⟨draft, i, rfl, hRun⟩
  | updateLastSeen id change => exact .inl (h.updateLastSeen_identities now freshUuid id change)
  | _ =>
      refine .inl (congrArg (List.map Issue.identity) ?_)
      exact run_sameRows (t := .issues) r now freshUuid _ (by simp [RegistryCall.writes])

/-- No call makes a second issue of one project and fingerprint. -/
theorem OnePerGroup.run (h : r.OnePerGroup) (hKeyed : r.Keyed) (now : Instant) (freshUuid : String)
    (call : RegistryCall) : (r.run now freshUuid call).2.OnePerGroup := by
  obtain hSame | ⟨draft, i, rfl, hRun⟩ := hKeyed.run_identities now freshUuid call
  · rwa [OnePerGroup, hSame]
  · obtain ⟨-, -, -, hFree⟩ := storeIssue_eq hRun
    rw [hRun]
    simpa [identities, OnePerGroup] using map_key_append h hFree

theorem OnePerGroup.eq (h : r.OnePerGroup) {x y : Issue.Identity} (hx : x ∈ r.identities)
    (hy : y ∈ r.identities) (hGroup : x.group = y.group) : x = y :=
  List.inj_on_of_nodup_map h hx hy hGroup

end Registry

/-- A key stands for one project and fingerprint. -/
theorem Events.cacheKey_injective {projectId projectId' : Int} {fingerprint fingerprint' : String}
    (h : cacheKey projectId fingerprint = cacheKey projectId' fingerprint') :
    projectId = projectId' ∧ fingerprint = fingerprint' := by
  have hProject : projectId = projectId' := Text.intText_colon h
  have hChars := congrArg String.toList h
  simp only [cacheKey, hProject, String.toList_append] at hChars
  exact ⟨hProject, String.toList_inj.mp (List.append_cancel_left hChars)⟩

end Triage
