import Triage.Proofs.Deployment.Additions
import Triage.Proofs.Deployment.Schedules
import Triage.Proofs.Event.Errands

/-!
# Grouping of reports that are taken in at once

However the requests of services interleave, with whatever time passes in between, reports of one
project and fingerprint end up in one issue (`grouping_sound`): there is never a second issue of the
group, every event carries the identifiers of the issue of its own group, and at most one service
has created it.  What is carried along a run is what each task has been told so far (`Gathering`):
identifiers of issues of its group that are in the tables and stay there.
-/

namespace Triage

open Events

/-- The issue of a key has the identifiers. -/
def Registry.Names (r : Registry) (key : String) (issueId : Int) (issueUuid : String) : Prop :=
  ∃ x ∈ r.identities, x.id = issueId ∧ x.uuid = issueUuid ∧
    cacheKey x.projectId x.fingerprint = key

theorem Registry.Names.mono {r s : Registry} {key : String} {issueId : Int} {issueUuid : String}
    (h : r.Names key issueId issueUuid) (hMore : r.identities ⊆ s.identities) :
    s.Names key issueId issueUuid :=
  h.imp fun _ => And.imp_left fun hx => hMore hx

/-- Outside a unit of work, each group has one issue, and caches hold the issues of their keys. -/
structure Deployment.Grouped (d : Deployment) : Prop where
  unit : d.openUnit = none
  keyed : d.registry.Keyed
  onePerGroup : d.registry.OnePerGroup
  cached : ∀ n, ∀ e ∈ (d.caches n).entries, d.registry.Names e.key e.issueId e.issueUuid

namespace Deployment

variable {d : Deployment} {q : Request}

theorem grouped_initial (start : Instant) (appendsWait : Bool) : (initial start appendsWait).Grouped where
  unit := rfl
  keyed := Registry.keyed_empty
  onePerGroup := List.nodup_nil
  cached n e he := by cases he

namespace Grouped

/-- Issues keep their identities. -/
theorem identities_subset (h : d.Grouped) (q : Request) :
    d.registry.identities ⊆ (d.perform q).2.registry.identities := by
  obtain hSame | ⟨call, reply, freshUuid, -, hRun⟩ := perform_cases h.unit q
  · rw [hSame]
    exact List.Subset.refl _
  · have hAfter := h.keyed.run_identities d.now freshUuid call
    rw [hRun] at hAfter
    obtain hSame | ⟨draft, issue, rfl, hStored⟩ := hAfter
    · rw [hSame]
      exact List.Subset.refl _
    · rw [hRun] at hStored
      rw [(Prod.mk.inj hStored).2, Registry.identities, Registry.identities, List.map_append]
      exact List.subset_append_left _ _

theorem perform (h : d.Grouped)
    (hAdded : ∀ service key issueId issueUuid, q = .addCached service key issueId issueUuid →
      d.registry.Names key issueId issueUuid) : (d.perform q).2.Grouped where
  unit := perform_openUnit h.unit q
  keyed := perform_keyed h.unit h.keyed q
  onePerGroup := by
    obtain hSame | ⟨call, reply, freshUuid, -, hRun⟩ := perform_cases h.unit q
    · rw [hSame]
      exact h.onePerGroup
    · have hAfter := h.onePerGroup.run h.keyed d.now freshUuid call
      rwa [hRun] at hAfter
  cached n e he := by
    have hNames : d.registry.Names e.key e.issueId e.issueUuid := by
      rcases (d.perform_adds q).entries n e he with hOld | ⟨service, -, hNew⟩
      · exact h.cached n e hOld
      · exact hAdded _ _ _ _ hNew
    exact hNames.mono (h.identities_subset q)

end Grouped
end Deployment

namespace Events.Errand

variable {e : Errand} {s : Clue} {d : Deployment} {q : Request}

/-- What is told on an errand are the identifiers of an issue of its group. -/
theorem told_note (h : d.Grouped) (hMay : e.mayAsk s q) {t : Int × String}
    (ht : t ∈ (s.note d q (d.perform q).1).told) :
    t ∈ s.told ∨ ∃ x ∈ (d.perform q).2.registry.identities, (x.id, x.uuid) = t ∧
      e.group? = some x.group := by
  rcases Clue.mem_told_note ht with hOld | hTells
  · exact .inl hOld
  right
  generalize hReply : (d.perform q).1 = reply at hTells
  cases q with
  | registry call =>
      obtain ⟨failure, hFailed, -⟩ | ⟨answer, freshUuid, hOk, hRun⟩ := d.perform_call h.unit call
      · rw [hFailed] at hReply
        subst hReply
        cases hTells
      · rw [hOk] at hReply
        subst hReply
        obtain ⟨x, hx, hIs, hGroup, -⟩ := told_by_call hMay hRun hTells
        exact ⟨x, hx, hIs, hGroup⟩
  | findCached service key =>
      obtain ⟨projectId, fingerprint, hGroup, hIsKey⟩ := hMay
      cases hTells with
      | remembered _ _ known =>
          obtain ⟨hMem, hKey⟩ := (IssueCache.find_cases (d.caches service.number) service.policy
            d.elapsed key).2 known (Except.ok.inj hReply)
          obtain ⟨x, hx, hId, hUuid, hIs⟩ := h.cached service.number known hMem
          obtain ⟨hProject, hPrint⟩ := cacheKey_injective (hIs.trans (hKey.trans hIsKey))
          refine ⟨x, h.identities_subset _ hx, by rw [hId, hUuid], ?_⟩
          rw [hGroup, Issue.Identity.group, hProject, hPrint]
  | _ => cases hTells

/-- An issue is only created as the first one of its group. -/
theorem created_note (h : d.Grouped) (hMay : e.mayAsk s q)
    (hCreated : (s.note d q (d.perform q).1).created = true) :
    s.created = true ∨ ∃ x ∈ (d.perform q).2.registry.identities, e.group? = some x.group ∧
      x.group ∉ d.registry.identities.map Issue.Identity.group := by
  cases q with
  | registry call =>
      obtain ⟨failure, hReply, -⟩ | ⟨reply, freshUuid, hReply, hRun⟩ := d.perform_call h.unit call
      · rw [hReply] at hCreated
        cases call <;> exact .inl hCreated
      rw [hReply] at hCreated
      generalize (d.perform (.registry call)).2.registry = after at hRun ⊢
      cases call with
      | storeIssue draft =>
          obtain ⟨rfl, hRow, -, hFree⟩ := Registry.storeIssue_eq hRun
          obtain ⟨-, -, hProject, hPrint⟩ := IssueDraft.complete_identity hRow
          obtain ⟨projectId, fingerprint, hGroup, hProject', hPrint'⟩ := hMay
          obtain rfl := Option.some.inj (hProject'.symm.trans hProject)
          obtain rfl := Option.some.inj (hPrint'.symm.trans hPrint)
          exact .inr ⟨_, List.mem_map_of_mem List.mem_concat_self, hGroup, hFree⟩
      | _ => exact .inl hCreated
  | findCached service key =>
      generalize (d.perform (.findCached service key)).1 = reply at hCreated
      rcases reply with failure | _ | known <;> exact .inl hCreated
  | _ => exact .inl hCreated

end Events.Errand

/-- Tasks on their errands. -/
def Crew.ofErrands {ι : Type} (d : Deployment) (errand : ι → Errand) (correlation : ι → Option String) :
    Crew ι (Option Receipt) :=
  ⟨d, fun i => ⟨(errand i).program, correlation i⟩⟩

/-- The receipt of a task that has ended with one. -/
def Task.receipt? (t : Task (Option Receipt)) : Option Receipt :=
  match t.program with
  | .done receipt => receipt
  | _ => none

theorem Task.receipt?_eq_some {t : Task (Option Receipt)} {receipt : Receipt} :
    t.receipt? = some receipt ↔ t.program = .done (some receipt) := by
  unfold receipt?
  cases t.program <;> simp

/-- Errands on their way: what each task was told are identifiers of an issue of its group, each
group was created by one task at most, and every event that was not there at first carries the
identifiers of the issue of its group. -/
structure Gathering {ι : Type} (errand : ι → Errand) (stored : List EventRecord) (clue : ι → Clue)
    (c : Crew ι (Option Receipt)) : Prop extends c.deployment.Grouped where
  keeps : ∀ i, (errand i).conduct.Keeps (fun outcome s => ∀ receipt, outcome = .ok (some receipt) →
    receipt.createdIssue = true → s.created = true) (clue i) (c.task i).program
  told : ∀ i, ∀ t ∈ (clue i).told, ∃ x ∈ c.deployment.registry.identities, (x.id, x.uuid) = t ∧
    (errand i).group? = some x.group
  created : ∀ i, (clue i).created = true →
    ∃ x ∈ c.deployment.registry.identities, (errand i).group? = some x.group
  once : ∀ i j, (clue i).created = true → (clue j).created = true →
    (errand i).group? = (errand j).group? → i = j
  records : ∀ record ∈ c.deployment.eventRecords, record ∈ stored ∨
    ∃ i, ∃ x ∈ c.deployment.registry.identities, (errand i).group? = some x.group ∧
      (errand i).event? x.id x.uuid = some record

namespace Gathering

variable {ι : Type} {errand : ι → Errand} {stored : List EventRecord} {clue : ι → Clue}
  {c : Crew ι (Option Receipt)} {i : ι} {q : Request}
  {next : Except Failure q.Reply → Program (Option Receipt)}

theorem initial {d : Deployment} (h : d.Grouped) (errand : ι → Errand)
    (correlation : ι → Option String) :
    Gathering errand d.eventRecords (fun _ => .initial) (Crew.ofErrands d errand correlation) where
  toGrouped := h
  keeps i := (errand i).program_keeps
  told i t ht := by cases ht
  created i hCreated := by cases hCreated
  once i j hCreated := by cases hCreated
  records record hRecord := .inl hRecord

theorem advance (h : Gathering errand stored clue c) (micros : Int) :
    Gathering errand stored clue { c with deployment := c.deployment.advance micros } :=
  ⟨⟨h.unit, h.keyed, h.onePerGroup, h.cached⟩, h.keeps, h.told, h.created, h.once, h.records⟩

variable [DecidableEq ι]

/-- A turn of a task. -/
theorem afterRequest (h : Gathering errand stored clue c)
    (hProgram : (c.task i).program = .ask q next) :
    Gathering errand stored (c.noted (fun j => (errand j).conduct) clue i q)
      (c.afterRequest i q next) := by
  have hFound : (c.found i).Grouped := ⟨h.unit, h.keyed, h.onePerGroup, h.cached⟩
  have hMay : (errand i).mayAsk (clue i) q := Crew.allows_of_keeps h.keeps hProgram
  have hStay := hFound.identities_subset q
  have hTold : ∀ j, ∀ t ∈ (c.noted (fun j => (errand j).conduct) clue i q j).told,
      ∃ x ∈ (c.afterRequest i q next).deployment.registry.identities, (x.id, x.uuid) = t ∧
        (errand j).group? = some x.group := fun j t ht => by
    have hBefore : t ∈ (clue j).told → _ := fun ht =>
      (h.told j t ht).imp fun x hx => And.imp_left (@hStay x) hx
    by_cases hj : j = i
    · subst hj
      rw [Crew.noted_self] at ht
      exact (Errand.told_note hFound hMay ht).elim hBefore id
    · rw [Crew.noted_other hj] at ht
      exact hBefore ht
  -- Whoever has created an issue had done so before, or it is this turn that stores the first issue
  -- of a group.
  have hCreated : ∀ j, (c.noted (fun j => (errand j).conduct) clue i q j).created = true →
      (clue j).created = true ∨ j = i ∧
        ∃ x ∈ (c.afterRequest i q next).deployment.registry.identities,
          (errand j).group? = some x.group ∧
            x.group ∉ c.deployment.registry.identities.map Issue.Identity.group := fun j hj => by
    by_cases hSelf : j = i
    · subst hSelf
      rw [Crew.noted_self] at hj
      exact (Errand.created_note hFound hMay hj).imp_right fun hNew => ⟨rfl, hNew⟩
    · rw [Crew.noted_other hSelf] at hj
      exact .inl hj
  -- So nobody had created an issue of that group.
  have hFirst : ∀ j x, (clue j).created = true → (errand j).group? = some (Issue.Identity.group x) →
      x.group ∈ c.deployment.registry.identities.map Issue.Identity.group := fun j x hj hGroup => by
    obtain ⟨y, hy, hGroup'⟩ := h.created j hj
    exact Option.some.inj (hGroup'.symm.trans hGroup) ▸ List.mem_map_of_mem hy
  refine ⟨hFound.perform ?_, Crew.keeps_afterRequest h.keeps hProgram, hTold, ?_, ?_, ?_⟩
  · rintro service key issueId issueUuid rfl
    obtain ⟨ht, -, projectId, fingerprint, hGroup, rfl⟩ := hMay
    obtain ⟨x, hx, hIs, hGroup'⟩ := h.told i _ ht
    obtain ⟨rfl, rfl⟩ := Prod.mk.inj hIs
    obtain ⟨rfl, rfl⟩ := Prod.mk.inj (Option.some.inj (hGroup.symm.trans hGroup'))
    exact ⟨x, hx, rfl, rfl, rfl⟩
  · intro j hj
    rcases hCreated j hj with hOld | ⟨-, x, hx, hGroup, -⟩
    · exact (h.created j hOld).imp fun x hx => And.imp_left (@hStay x) hx
    · exact ⟨x, hx, hGroup⟩
  · intro j k hj hk hSame
    rcases hCreated j hj with hOld | ⟨rfl, x, -, hGroup, hFree⟩ <;>
      rcases hCreated k hk with hOld' | ⟨rfl, y, -, hGroup', hFree'⟩
    · exact h.once j k hOld hOld' hSame
    · exact absurd (hFirst j y hOld (hSame.trans hGroup')) hFree'
    · exact absurd (hFirst k x hOld' (hSame.symm.trans hGroup)) hFree
    · rfl
  · intro record hRecord
    rcases ((c.found i).perform_adds q).records record hRecord with hOld | rfl
    · refine (h.records record hOld).imp_right fun ⟨j, x, hx, hIs⟩ => ⟨j, x, hStay hx, hIs⟩
    · obtain ⟨issueId, issueUuid, ht, hEvent⟩ := hMay
      obtain ⟨x, hx, hIs, hGroup⟩ := h.told i _ ht
      obtain ⟨rfl, rfl⟩ := Prod.mk.inj hIs
      exact .inr ⟨i, x, hStay hx, hGroup, hEvent⟩

theorem run (schedule : List (Move ι)) (h : Gathering errand stored clue c) :
    ∃ clue, Gathering errand stored clue (c.run schedule).2 := by
  refine @Crew.run_keeps ι _ _ c (fun c => ∃ clue, Gathering errand stored clue c) schedule ?_ ?_
    ⟨clue, h⟩
  · exact fun c micros _ ⟨clue, h⟩ => ⟨clue, h.advance micros⟩
  · exact fun hProgram ⟨clue, h⟩ => ⟨_, h.afterRequest hProgram⟩

end Gathering

/-- For every interleaving of the requests of tasks that take in reports, through whichever
services, and of tasks that have appends carried out, with whatever time passes in between and
whatever failures are staged: no project has two issues of one fingerprint; every event that was not
there at first is the event of one of the reports, with the identifiers of the issue of its project
and fingerprint; and of all that took in a report of one project and fingerprint, at most one is
told that it has created the issue. -/
theorem grouping_sound {ι : Type} [DecidableEq ι] {d : Deployment} (h : d.Grouped)
    (errand : ι → Errand) (correlation : ι → Option String) (schedule : List (Move ι)) :
    let c := ((Crew.ofErrands d errand correlation).run schedule).2
    c.deployment.registry.OnePerGroup ∧
      (∀ record ∈ c.deployment.eventRecords, record ∈ d.eventRecords ∨
        ∃ i service projectId r retentionDays,
          errand i = .takeIn service projectId r retentionDays ∧
            ∃ issue ∈ c.deployment.registry.issues, issue.projectId = projectId ∧
              issue.fingerprint = r.fingerprint ∧
                record = eventOf projectId issue.id issue.uuid r retentionDays) ∧
      ∀ i j mine yours, (c.task i).receipt? = some mine → (c.task j).receipt? = some yours →
        (errand i).group? = (errand j).group? →
          mine.createdIssue = true → yours.createdIssue = true → i = j := by
  intro c
  obtain ⟨clue, hGathering⟩ := (Gathering.initial h errand correlation).run schedule
  have hEnded : ∀ i receipt, (c.task i).receipt? = some receipt →
      receipt.createdIssue = true → (clue i).created = true := fun i receipt hDone hCreated => by
    have hKeeps := hGathering.keeps i
    rw [Task.receipt?_eq_some.mp hDone] at hKeeps
    exact hKeeps receipt rfl hCreated
  refine ⟨hGathering.onePerGroup, fun record hRecord => ?_, ?_⟩
  · refine (hGathering.records record hRecord).imp_right fun ⟨i, x, hx, hGroup, hEvent⟩ => ?_
    obtain ⟨issue, hIssue, rfl⟩ := List.mem_map.mp hx
    cases hErrand : errand i with
    | flush => rw [hErrand] at hEvent; cases hEvent
    | takeIn service projectId r retentionDays =>
        rw [hErrand] at hGroup hEvent
        obtain ⟨hProject, hPrint⟩ := Prod.mk.inj (Option.some.inj hGroup)
        exact ⟨i, service, projectId, r, retentionDays, hErrand, issue, hIssue, hProject.symm,
          hPrint.symm, (Option.some.inj hEvent).symm⟩
  · intro i j mine yours hMine hYours hSame hFirst hSecond
    exact hGathering.once i j (hEnded i mine hMine hFirst) (hEnded j yours hYours hSecond) hSame

/-- A report without stack frames. -/
def plainReport : Report :=
  ⟨"e1", ⟨10000000000000000⟩, "boom", "error", "python", "", "", "", [], ⟨"u1", "", "", "", ""⟩,
    ⟨"", ""⟩, [], none⟩

/-- Two services that take in the same report, and a task that has appends carried out. -/
def twoServices : Fin 3 → Errand
  | 0 => .takeIn ⟨0, .usual⟩ 1 plainReport 90
  | 1 => .takeIn ⟨1, .usual⟩ 1 plainReport 90
  | 2 => .flush

/-- Both services look for the issue in vain, and the second one loses the race for creating it. -/
theorem race_for_one_issue :
    let d := Deployment.initial ⟨10000000000000000⟩ true
    let c := ((Crew.ofErrands d twoServices fun _ => none).run
      ((List.replicate 20 [.turn 0, .turn 1]).flatten ++ [.turn 2])).2
    d.Grouped ∧ c.deployment.registry.OnePerGroup ∧
      (c.task 0).receipt? = some ⟨"e1", 1, true⟩ ∧ (c.task 1).receipt? = some ⟨"e1", 1, false⟩ ∧
      c.deployment.events.events.map (fun e => (e.record.groupId, e.record.primaryHash)) =
        [(1, "00000000000000000000000000000001"), (1, "00000000000000000000000000000001")] := by
  have hGrouped := Deployment.grouped_initial ⟨10000000000000000⟩ true
  have hSound := grouping_sound hGrouped twoServices (fun _ => none)
    ((List.replicate 20 [.turn 0, .turn 1]).flatten ++ [.turn 2])
  exact ⟨hGrouped, hSound.1, by decide +kernel, by decide +kernel, by decide +kernel⟩

end Triage
