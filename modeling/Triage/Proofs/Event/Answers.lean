import Triage.Proofs.Deployment.Running
import Triage.Proofs.Event.Grouping

/-!
# What taking in a report answers

In a settled deployment, where neither the stores nor staged failures get in the way, the answer to
a report depends on the identities of the issues and on what the cache of the service holds under
its key, and on nothing else.  A report that nothing is remembered about goes where the tables say
(`Settled.ingest_unremembered`).  One whose issue is remembered goes to the issue of that
identifier, whatever its group is, and fails if there is none (`Settled.ingest_remembered`,
`Settled.ingest_misremembered`).
-/

namespace Triage

open Program Events

namespace Deployment

/-- A quiet deployment whose event log is there and whose rows have keys of their own. -/
structure Settled (d : Deployment) : Prop extends d.Quiet where
  logThere : d.events.dropped = false
  keyed : d.registry.Keyed

/-- The deployment in a correlation scope. -/
def correlated (d : Deployment) : Deployment :=
  { d with correlation := (d.correlation.enter none).2 }

/-- The stores, with what is kept about calls to them. -/
def stores (d : Deployment) : Registry × Option UnitOfWork × List StagedFailure × EventLog ×
    List WaitingAppend × Nat :=
  (d.registry, d.openUnit, d.staged, d.events, d.waiting, d.issuesNamed)

/-- A deployment that is settled as before and has gained some issues and events. -/
structure Gains (d : Deployment) (new : List Issue.Identity) (after : Deployment) : Prop where
  settled : after.Settled
  identities : after.registry.identities = d.registry.identities ++ new
  named : after.issuesNamed = d.issuesNamed + new.length
  records : d.eventRecords ⊆ after.eventRecords
  entries : ∀ n, ∀ e ∈ (after.caches n).entries, e ∈ (d.caches n).entries ∨
    after.registry.Names e.key e.issueId e.issueUuid

/-- Where a report belongs by the tables: the identity of its issue, and whether the issue is still
to be created. -/
def place (d : Deployment) (projectId : Int) (fingerprint : String) : Issue.Identity × Bool :=
  match d.registry.identities.find? fun x => decide (x.group = (projectId, fingerprint)) with
  | some x => (x, false)
  | none =>
    (⟨nextId (d.registry.identities.map Issue.Identity.id), d.nextUuid, projectId, fingerprint⟩,
      true)

/-- The issue that a report adds when it goes where it belongs. -/
def placed (d : Deployment) (projectId : Int) (fingerprint : String) : List Issue.Identity :=
  if (d.place projectId fingerprint).2 then [(d.place projectId fingerprint).1] else []

/-- What a service remembers about a report. -/
def remembered (d : Deployment) (service : Intake) (projectId : Int) (r : Report) :
    Option CachedIssue :=
  ((d.caches service.number).find service.policy d.elapsed (cacheKey projectId r.fingerprint)).1

variable {d mid after : Deployment} {new more : List Issue.Identity}

theorem Gains.identities_subset (h : d.Gains new after) :
    d.registry.identities ⊆ after.registry.identities := by
  rw [h.identities]
  exact List.subset_append_left _ _

theorem Gains.same (h : d.Gains [] after) : after.registry.identities = d.registry.identities := by
  rw [h.identities, List.append_nil]

theorem Gains.nextUuid (h : d.Gains [] after) : after.nextUuid = d.nextUuid := by
  rw [Deployment.nextUuid, Deployment.nextUuid, h.named]
  rfl

theorem Gains.trans (h : d.Gains new mid) (h' : mid.Gains more after) :
    d.Gains (new ++ more) after where
  settled := h'.settled
  identities := by rw [h'.identities, h.identities, List.append_assoc]
  named := by rw [h'.named, h.named, List.length_append, Nat.add_assoc]
  records := List.Subset.trans h.records h'.records
  entries n e he := by
    rcases h'.entries n e he with hMid | hNew
    · exact (h.entries n e hMid).imp_right fun hNames => hNames.mono h'.identities_subset
    · exact .inr hNew

theorem Gains.and_then (h : d.Gains new mid) (h' : mid.Gains [] after) : d.Gains new after := by
  simpa using h.trans h'

theorem Gains.after_all (h : d.Gains [] mid) (h' : mid.Gains new after) : d.Gains new after := by
  simpa using h.trans h'

namespace Settled

variable {service : Intake} {projectId : Int} {r : Report}

/-- A deployment that differs in nothing that matters here, but may have more events. -/
theorem gains_of_same (h : d.Settled) (hRegistry : after.registry = d.registry)
    (hUnit : after.openUnit = d.openUnit) (hStaged : after.staged = d.staged)
    (hThere : after.events.dropped = d.events.dropped) (hNamed : after.issuesNamed = d.issuesNamed)
    (hRecords : d.eventRecords ⊆ after.eventRecords)
    (hEntries : ∀ n, ∀ e ∈ (after.caches n).entries, e ∈ (d.caches n).entries ∨
      d.registry.Names e.key e.issueId e.issueUuid) : d.Gains [] after where
  settled := ⟨⟨hUnit.trans h.unit, hStaged.trans h.staged, hRegistry ▸ h.there⟩,
    hThere.trans h.logThere, hRegistry ▸ h.keyed⟩
  identities := by rw [hRegistry, List.append_nil]
  named := hNamed
  records := hRecords
  entries n e he := (hEntries n e he).imp_right fun hNames => hRegistry ▸ hNames

/-- A registry call that succeeds and adds some issues. -/
theorem run_ok (h : d.Settled) {call : RegistryCall} {reply : call.Reply} {registry : Registry}
    (hApply : d.registry.apply d.now d.nextUuid call = (.ok reply, registry))
    (hNew : registry.identities = d.registry.identities ++ new)
    (hNamed : d.namedAfter call = d.issuesNamed + new.length) :
    ∃ after, d.run (Program.registry call) = (.ok reply, after) ∧ d.Gains new after := by
  have hKeyed := h.keyed.run d.now d.nextUuid call
  have hThere := d.registry.run_dropped d.now d.nextUuid call
  rw [Registry.run_eq_apply h.there, hApply] at hKeyed hThere
  refine ⟨{ d with registry, issuesNamed := d.namedAfter call }, ?_, ?_⟩
  · refine (d.run_request _).trans ?_
    rw [h.perform_eq_apply, hApply]
    rfl
  · exact ⟨⟨⟨h.unit, h.staged, hThere.trans h.there⟩, h.logThere, hKeyed⟩, hNew, hNamed,
      List.Subset.refl _, fun n e => .inl⟩

/-- A registry call that fails. -/
theorem run_error (h : d.Settled) {call : RegistryCall} {e : Failure} {registry : Registry}
    (hApply : d.registry.apply d.now d.nextUuid call = (.error e, registry))
    (hNamed : call.takesUuid = false) :
    ∃ after, d.run (Program.registry call) = (.error e, after) ∧ d.Gains [] after := by
  refine ⟨{ d with issuesNamed := d.namedAfter call }, ?_, ?_⟩
  · refine (d.run_request _).trans ?_
    rw [h.perform_eq_apply, hApply]
    rfl
  · refine h.gains_of_same rfl rfl rfl rfl ?_ (List.Subset.refl _) fun n e => .inl
    rw [namedAfter, hNamed]
    rfl

/-- A request that leaves the stores alone, and adds no other issue to a cache than that of its key.
-/
theorem run_beside (h : d.Settled) {q : Request} {reply : q.Reply}
    (hOk : (d.carryOutRequest q).1 = .ok reply) (hSame : (d.carryOutRequest q).2.stores = d.stores)
    (hAdded : ∀ service key issueId issueUuid, q = .addCached service key issueId issueUuid →
      d.registry.Names key issueId issueUuid) :
    ∃ after, d.run (request q) = (.ok reply, after) ∧ d.Gains [] after := by
  simp only [stores, Prod.mk.injEq] at hSame
  obtain ⟨hRegistry, hUnit, hStaged, hEvents, hWaiting, hNamed⟩ := hSame
  refine ⟨(d.carryOutRequest q).2, ?_, ?_⟩
  · rw [d.run_request, perform_unstaged h.staged]
    exact Prod.ext hOk rfl
  · refine h.gains_of_same hRegistry hUnit hStaged (by rw [hEvents]) hNamed ?_ fun n e he => ?_
    · rw [eventRecords, eventRecords, hEvents, hWaiting]
      exact List.Subset.refl _
    · rcases (d.carryOutRequest_adds q).entries n e he with hOld | ⟨service, -, hNew⟩
      · exact .inl hOld
      · exact .inr (hAdded _ _ _ _ hNew)

theorem run_aside (h : d.Settled) {q : Request} (hAside : Aside q) :
    ∃ reply after, d.run (request q) = (.ok reply, after) ∧ d.Gains [] after := by
  cases hAside <;> exact ⟨_, h.run_beside rfl rfl fun _ _ _ _ hAdds => by cases hAdds⟩

theorem run_report (h : d.Settled) (severity : Log.Severity) (component : Log.Component)
    (message : String) (subjects : List (String × Json)) (failure : Option Failure) :
    ∃ after, d.run (report severity component message subjects failure) = (.ok (), after) ∧
      d.Gains [] after :=
  h.run_beside rfl rfl fun _ _ _ _ hAdds => by cases hAdds

/-- An issue is remembered under its own key. -/
theorem run_addCached (h : d.Settled) (service : Intake) {key : String} {issueId : Int}
    {issueUuid : String} (hNames : d.registry.Names key issueId issueUuid) :
    ∃ after, d.run (request (.addCached service key issueId issueUuid)) = (.ok (), after) ∧
      d.Gains [] after :=
  h.run_beside rfl rfl fun _ _ _ _ hAdds => by cases hAdds; exact hNames

theorem run_findCached (h : d.Settled) (service : Intake) (projectId : Int) (r : Report) :
    ∃ after, d.run (request (.findCached service (cacheKey projectId r.fingerprint))) =
        (.ok (d.remembered service projectId r), after) ∧ d.Gains [] after :=
  h.run_beside rfl rfl fun _ _ _ _ hAdds => by cases hAdds

theorem run_append (h : d.Settled) (record : EventRecord) :
    ∃ after, d.run (eventLog (.append record)) = (.ok (), after) ∧ d.Gains [] after ∧
      record ∈ after.eventRecords := by
  have hPerform : d.perform (.eventLog (.append record)) = d.callEventLog (.append record) := by
    rw [perform_unstaged h.staged]
    rfl
  rw [show d.run (eventLog (.append record)) = _ from d.run_request _, hPerform]
  -- An append that is put off counts as recorded, because it waits with its record.
  cases hWait : d.appendsWait with
  | true =>
      refine ⟨{ d with waiting := d.waiting ++ [⟨record, d.correlation.current⟩] }, ?_, ?_, ?_⟩
      · simp only [callEventLog, hWait]
        rfl
      · refine h.gains_of_same rfl rfl rfl rfl rfl (fun x hx => ?_) fun n e => .inl
        rw [mem_eventRecords] at hx ⊢
        rcases hx with hStored | ⟨w, hw, hIs⟩
        · exact .inl hStored
        · exact .inr ⟨w, List.mem_append_left _ hw, hIs⟩
      · exact mem_eventRecords.mpr (.inr ⟨_, List.mem_concat_self, rfl⟩)
  | false =>
      refine ⟨{ d with events := d.events.append record }, ?_, ?_, ?_⟩
      · simp [callEventLog, hWait, appendEvent, takeStaged_unstaged h.staged, EventLog.run,
          h.logThere, EventLog.apply]
        rfl
      · refine h.gains_of_same rfl rfl rfl rfl rfl (fun x hx => ?_) fun n e => .inl
        rw [mem_eventRecords] at hx ⊢
        rcases hx with ⟨e, he, hIs⟩ | hWaits
        · exact .inl ⟨e, List.mem_append_left _ he, hIs⟩
        · exact .inr hWaits
      · exact mem_eventRecords.mpr (.inl ⟨_, List.mem_concat_self, rfl⟩)

/-- Marking an issue as seen that is there. -/
theorem run_touch (h : d.Settled) (time : Instant) {issueId : Int}
    (hMem : issueId ∈ d.registry.identities.map Issue.Identity.id) :
    ∃ after, d.run (touch issueId time) = (.ok (), after) ∧ d.Gains [] after := by
  obtain ⟨-, hOk⟩ | ⟨hGone, -⟩ :=
    d.registry.updateLastSeen_cases d.now d.nextUuid issueId { lastSeen := time }
  · have hSame := h.keyed.updateLastSeen_identities d.now d.nextUuid issueId { lastSeen := time }
    rw [Registry.run_eq_apply h.there] at hSame
    exact h.run_ok (Prod.ext hOk rfl) (hSame.trans (List.append_nil _).symm) rfl
  · exact absurd hMem hGone

theorem run_touch_gone (h : d.Settled) (time : Instant) {issueId : Int}
    (hGone : issueId ∉ d.registry.identities.map Issue.Identity.id) :
    ∃ after, d.run (touch issueId time) = (.error (.notFound (.issue issueId)), after) ∧
      d.Gains [] after := by
  obtain ⟨hMem, -⟩ | ⟨-, hApply⟩ :=
    d.registry.updateLastSeen_cases d.now d.nextUuid issueId { lastSeen := time }
  · exact absurd hMem hGone
  · exact h.run_error hApply rfl

theorem run_findIssue (h : d.Settled) (projectId : Int) (fingerprint : String) :
    ∃ found after, d.run (findIssue projectId fingerprint) = (.ok found, after) ∧ d.Gains [] after ∧
      found.map Issue.identity =
        d.registry.identities.find? fun x => decide (x.group = (projectId, fingerprint)) := by
  unfold findIssue
  obtain ⟨issue, hApply, hFind⟩ | ⟨hApply, hFind⟩ :=
    d.registry.getIssue_cases d.now d.nextUuid projectId fingerprint
  · obtain ⟨after, hRun, hGains⟩ := h.run_ok hApply (List.append_nil _).symm rfl
    exact ⟨some issue, after, by rw [run_bind (d.run_attempt _), hRun]; rfl, hGains, hFind.symm⟩
  · obtain ⟨after, hRun, hGains⟩ := h.run_error hApply rfl
    exact ⟨none, after, by rw [run_bind (d.run_attempt _), hRun]; rfl, hGains, hFind.symm⟩

/-- A group without an issue gets one with the identifiers that come next. -/
theorem run_storeIssue (h : d.Settled) (time : Instant)
    (hGroup : (projectId, r.fingerprint) ∉ d.registry.identities.map Issue.Identity.group)
    (hUuid : d.nextUuid ∉ d.registry.identities.map Issue.Identity.uuid) :
    ∃ issue after,
      d.run (Program.registry (.storeIssue (newIssue projectId r time))) = (.ok issue, after) ∧
        issue.identity = ⟨nextId (d.registry.identities.map Issue.Identity.id), d.nextUuid,
          projectId, r.fingerprint⟩ ∧ d.Gains [issue.identity] after := by
  rw [Registry.map_id_identities]
  obtain ⟨issue, hRow⟩ : ∃ issue, (newIssue projectId r time).complete
      (nextId (d.registry.issues.map Issue.id)) d.now d.nextUuid = .ok issue := ⟨_, rfl⟩
  obtain ⟨hId, hUuid', hProject, hPrint⟩ := IssueDraft.complete_identity hRow
  have hIdentity : issue.identity =
      ⟨nextId (d.registry.issues.map Issue.id), d.nextUuid, projectId, r.fingerprint⟩ := by
    rw [Issue.identity, hId, hUuid', ← Option.some.inj hProject, ← Option.some.inj hPrint]
    rfl
  have hApply := Registry.storeIssue_free hRow rfl (by rw [hIdentity]; exact hGroup)
    (by rw [hUuid']; exact hUuid)
  have hNew : ({ d.registry with issues := d.registry.issues ++ [issue] } : Registry).identities =
      d.registry.identities ++ [issue.identity] := List.map_append
  obtain ⟨after, hRun, hGains⟩ := h.run_ok hApply hNew rfl
  exact ⟨issue, after, hRun, hIdentity, hGains⟩

end Settled

/-- A group belongs to the one issue that it has, or to the one that comes next. -/
theorem place_cases (d : Deployment) (projectId : Int) (fingerprint : String) :
    (∃ x ∈ d.registry.identities, x.group = (projectId, fingerprint) ∧
        d.registry.identities.find? (fun x => decide (x.group = (projectId, fingerprint))) =
          some x ∧
        d.place projectId fingerprint = (x, false)) ∨
      (projectId, fingerprint) ∉ d.registry.identities.map Issue.Identity.group ∧
        d.registry.identities.find? (fun x => decide (x.group = (projectId, fingerprint))) = none ∧
        d.place projectId fingerprint =
          (⟨nextId (d.registry.identities.map Issue.Identity.id), d.nextUuid, projectId,
            fingerprint⟩, true) := by
  unfold place
  split
  next x hFind =>
    have hGroup : x.group = (projectId, fingerprint) := by simpa using List.find?_some hFind
    exact .inl ⟨x, List.mem_of_find?_eq_some hFind, hGroup, hFind, rfl⟩
  next hFind =>
    refine .inr ⟨fun hMem => ?_, hFind, rfl⟩
    obtain ⟨x, hx, hGroup⟩ := List.mem_map.mp hMem
    simpa [hGroup] using List.find?_eq_none.mp hFind x hx

theorem place_group (d : Deployment) (projectId : Int) (fingerprint : String) :
    (d.place projectId fingerprint).1.group = (projectId, fingerprint) := by
  obtain ⟨x, -, hGroup, -, hPlace⟩ | ⟨-, -, hPlace⟩ := d.place_cases projectId fingerprint <;>
    rw [hPlace]
  · exact hGroup
  · rfl

/-- Where nothing was gained a report belongs where it did before. -/
theorem Gains.place (h : d.Gains [] after) (projectId : Int) (fingerprint : String) :
    after.place projectId fingerprint = d.place projectId fingerprint := by
  rw [Deployment.place, Deployment.place, h.same, h.nextUuid]

theorem Gains.place_mem {projectId : Int} {fingerprint : String}
    (h : d.Gains (d.placed projectId fingerprint) after) :
    (d.place projectId fingerprint).1 ∈ after.registry.identities := by
  rw [h.identities, placed]
  obtain ⟨x, hx, -, -, hPlace⟩ | ⟨-, -, hPlace⟩ := d.place_cases projectId fingerprint <;>
    rw [hPlace]
  · exact List.mem_append_left _ hx
  · exact List.mem_append_right _ List.mem_cons_self

namespace Settled

variable {service : Intake} {projectId : Int} {r : Report} {time : Instant}

/-- A report whose group is remembered about goes where it belongs. -/
theorem run_resolveIssue (h : d.Settled) (projectId : Int) (r : Report) (time : Instant)
    (hUuid : d.nextUuid ∉ d.registry.identities.map Issue.Identity.uuid) :
    ∃ issue after, d.run (resolveIssue projectId r time) =
        (.ok (issue, (d.place projectId r.fingerprint).2), after) ∧
      issue.identity = (d.place projectId r.fingerprint).1 ∧
        d.Gains (d.placed projectId r.fingerprint) after := by
  unfold resolveIssue placed
  obtain ⟨found, mid, hFound, hGains, hIs⟩ := h.run_findIssue projectId r.fingerprint
  rw [run_bind hFound]
  obtain ⟨x, hx, -, hFind, hPlace⟩ | ⟨hFree, hFind, hPlace⟩ :=
    d.place_cases projectId r.fingerprint <;> rw [hFind] at hIs <;> rw [hPlace]
  · obtain ⟨issue, rfl, rfl⟩ := Option.map_eq_some_iff.mp hIs
    have hThere : issue.id ∈ mid.registry.identities.map Issue.Identity.id :=
      List.mem_map_of_mem (hGains.identities_subset hx)
    obtain ⟨after, hTouch, hMore⟩ := hGains.settled.run_touch time hThere
    exact ⟨issue, after, by rw [run_bind hTouch]; rfl, rfl, hGains.and_then hMore⟩
  · obtain rfl := Option.map_eq_none_iff.mp hIs
    obtain ⟨issue, after, hStore, hIdentity, hMore⟩ :=
      hGains.settled.run_storeIssue time (by rwa [hGains.same])
        (by rwa [hGains.nextUuid, hGains.same])
    rw [hGains.same, hGains.nextUuid] at hIdentity
    obtain ⟨final, hReport, hLast⟩ := hMore.settled.run_report .info .events
      ("New issue " ++ Text.intText issue.id ++ " for project " ++ Text.intText projectId)
      [("project_id", .int projectId), ("issue_id", .int issue.id)] none
    refine ⟨issue, final, ?_, hIdentity, ?_⟩
    · have hAttempt : mid.run (Program.registry (.storeIssue (newIssue projectId r time))).attempt =
          (.ok (.ok issue), after) := by rw [mid.run_attempt, hStore]
      refine (run_bind hAttempt).trans ?_
      dsimp only
      rw [run_bind hReport]
      rfl
    · rw [hIdentity] at hMore
      exact (hGains.after_all hMore).and_then hLast

theorem run_identifyIssue_unremembered (h : d.Settled) (time : Instant)
    (hUuid : d.nextUuid ∉ d.registry.identities.map Issue.Identity.uuid)
    (hNone : d.remembered service projectId r = none) :
    ∃ after, d.run (identifyIssue service projectId r time) =
        (.ok ((d.place projectId r.fingerprint).1.id, (d.place projectId r.fingerprint).1.uuid,
          (d.place projectId r.fingerprint).2), after) ∧
      d.Gains (d.placed projectId r.fingerprint) after := by
  obtain ⟨asked, hFind, hAsked⟩ := h.run_findCached service projectId r
  rw [hNone] at hFind
  obtain ⟨_, guarded, hGuard, hGuarded⟩ :=
    hAsked.settled.run_aside (.guard service (cacheKey projectId r.fingerprint))
  -- Up to here nothing was gained, so the report still belongs where it did at first.
  have hBefore := hAsked.and_then hGuarded
  obtain ⟨issue, resolved, hResolve, hIdentity, hResolved⟩ :=
    hBefore.settled.run_resolveIssue projectId r time (by rwa [hBefore.nextUuid, hBefore.same])
  rw [placed, hBefore.place] at hResolved
  rw [hBefore.place] at hResolve hIdentity
  obtain ⟨_, released, hRelease, hReleased⟩ :=
    hResolved.settled.run_aside (.release service (cacheKey projectId r.fingerprint))
  have hAll : d.Gains (d.placed projectId r.fingerprint) released :=
    (hBefore.after_all hResolved).and_then hReleased
  have hNames : released.registry.Names (cacheKey projectId r.fingerprint) issue.id issue.uuid := by
    obtain ⟨hProject, hPrint⟩ := Prod.mk.inj (d.place_group projectId r.fingerprint)
    refine ⟨_, hAll.place_mem, ?_, ?_, congrArg₂ cacheKey hProject hPrint⟩
    · exact congrArg Issue.Identity.id hIdentity.symm
    · exact congrArg Issue.Identity.uuid hIdentity.symm
  obtain ⟨after, hAdd, hAdded⟩ := hAll.settled.run_addCached service hNames
  refine ⟨after, ?_, hAll.and_then hAdded⟩
  rw [← hIdentity]
  unfold identifyIssue
  refine (run_bind hFind).trans ?_
  refine (run_bind hGuard).trans ?_
  refine (run_bind (run_ensure_of_run hResolve hRelease)).trans ?_
  exact run_bind hAdd

/-- A report whose issue is remembered goes to the issue of that identifier. -/
theorem run_identifyIssue_remembered (h : d.Settled) (time : Instant) {known : CachedIssue}
    (hSome : d.remembered service projectId r = some known)
    (hThere : known.issueId ∈ d.registry.identities.map Issue.Identity.id) :
    ∃ after, d.run (identifyIssue service projectId r time) =
      (.ok (known.issueId, known.issueUuid, false), after) ∧ d.Gains [] after := by
  obtain ⟨asked, hFind, hAsked⟩ := h.run_findCached service projectId r
  obtain ⟨after, hTouch, hTouched⟩ := hAsked.settled.run_touch time
    (by rwa [hAsked.same])
  refine ⟨after, ?_, hAsked.and_then hTouched⟩
  rw [hSome] at hFind
  unfold identifyIssue
  refine (run_bind hFind).trans ?_
  dsimp only
  rw [run_bind hTouch]
  rfl

/-- A report whose issue is remembered but is not there cannot be filed. -/
theorem run_identifyIssue_misremembered (h : d.Settled) (time : Instant) {known : CachedIssue}
    (hSome : d.remembered service projectId r = some known)
    (hGone : known.issueId ∉ d.registry.identities.map Issue.Identity.id) :
    ∃ after, d.run (identifyIssue service projectId r time) =
      (.error (.notFound (.issue known.issueId)), after) ∧ d.Gains [] after := by
  obtain ⟨asked, hFind, hAsked⟩ := h.run_findCached service projectId r
  obtain ⟨after, hTouch, hTouched⟩ := hAsked.settled.run_touch_gone time
    (by rwa [hAsked.same])
  refine ⟨after, ?_, hAsked.and_then hTouched⟩
  rw [hSome] at hFind
  unfold identifyIssue
  refine (run_bind hFind).trans ?_
  dsimp only
  rw [run_bind_error hTouch]

/-- A program in a scope of its own has the outcome that it has with a correlation identifier of its
own. -/
theorem run_inScope (h : d.Settled) {p : Program α} {outcome : Except Failure α}
    (hRun : d.correlated.run p = (outcome, mid)) (hMid : mid.Settled) :
    ∃ after, d.run (inScope none p) = (outcome, after) ∧ mid.Gains [] after := by
  have hEnter : d.run (request (.enterScope none)) = (.ok d.correlation.current, d.correlated) := by
    rw [d.run_request, perform_unstaged h.staged]
    rfl
  obtain ⟨_, after, hLeave, hLeft⟩ := hMid.run_aside (.leave d.correlation.current)
  refine ⟨after, ?_, hLeft⟩
  unfold inScope
  exact (run_bind hEnter).trans (run_ensure_of_run hRun hLeave)

theorem correlated (h : d.Settled) : d.correlated.Settled :=
  ⟨⟨h.unit, h.staged, h.there⟩, h.logThere, h.keyed⟩

/-- Once its issue is identified, a report is filed under it. -/
theorem ingest_of_identified (h : d.Settled) (retentionDays : Int) {issueId : Int}
    {issueUuid : String} {created : Bool}
    (hRun : d.correlated.run (identifyIssue service projectId r d.now) =
      (.ok (issueId, issueUuid, created), mid)) (hGains : d.correlated.Gains new mid) :
    ∃ after, d.run (ingest service projectId r retentionDays) =
        (.ok ⟨r.eventId, issueId, created⟩, after) ∧ d.Gains new after ∧
      eventOf projectId issueId issueUuid r retentionDays ∈ after.eventRecords := by
  obtain ⟨stored, hAppend, hStored, hMem⟩ :=
    hGains.settled.run_append (eventOf projectId issueId issueUuid r retentionDays)
  obtain ⟨reported, hReport, hReported⟩ := hStored.settled.run_report .debug .events
    ("Ingested event " ++ r.eventId ++ " into issue " ++ Text.intText issueId)
    [("project_id", .int projectId), ("issue_id", .int issueId)] none
  obtain ⟨after, hAll, hLeft⟩ : ∃ after, d.run (ingest service projectId r retentionDays) =
      (.ok ⟨r.eventId, issueId, created⟩, after) ∧ reported.Gains [] after := by
    refine h.run_inScope ?_ hReported.settled
    refine (run_bind (Deployment.run_now _)).trans ?_
    refine (run_bind hRun).trans ?_
    refine (run_bind hAppend).trans ?_
    exact run_bind hReport
  -- The correlation scope is not part of what is gained.
  have hGained := ((hGains.and_then hStored).and_then hReported).and_then hLeft
  refine ⟨after, hAll, ?_, hLeft.records (hReported.records hMem)⟩
  exact ⟨hGained.settled, hGained.identities, hGained.named, hGained.records, hGained.entries⟩

/-- A report that nothing is remembered about is filed where it belongs. -/
theorem ingest_unremembered (h : d.Settled) (retentionDays : Int)
    (hUuid : d.nextUuid ∉ d.registry.identities.map Issue.Identity.uuid)
    (hNone : d.remembered service projectId r = none) :
    ∃ after, d.run (ingest service projectId r retentionDays) =
        (.ok ⟨r.eventId, (d.place projectId r.fingerprint).1.id,
          (d.place projectId r.fingerprint).2⟩, after) ∧
      d.Gains (d.placed projectId r.fingerprint) after ∧
      eventOf projectId (d.place projectId r.fingerprint).1.id
        (d.place projectId r.fingerprint).1.uuid r retentionDays ∈ after.eventRecords := by
  obtain ⟨mid, hRun, hGains⟩ := h.correlated.run_identifyIssue_unremembered d.now hUuid hNone
  exact h.ingest_of_identified retentionDays hRun hGains

/-- A report whose issue is remembered is filed under the issue of that identifier. -/
theorem ingest_remembered (h : d.Settled) (retentionDays : Int) {known : CachedIssue}
    (hSome : d.remembered service projectId r = some known)
    (hThere : known.issueId ∈ d.registry.identities.map Issue.Identity.id) :
    ∃ after, d.run (ingest service projectId r retentionDays) =
        (.ok ⟨r.eventId, known.issueId, false⟩, after) ∧ d.Gains [] after ∧
      eventOf projectId known.issueId known.issueUuid r retentionDays ∈ after.eventRecords := by
  obtain ⟨mid, hRun, hGains⟩ := h.correlated.run_identifyIssue_remembered d.now hSome hThere
  exact h.ingest_of_identified retentionDays hRun hGains

/-- A report whose issue is remembered but is not there fails. -/
theorem ingest_misremembered (h : d.Settled) (retentionDays : Int) {known : CachedIssue}
    (hSome : d.remembered service projectId r = some known)
    (hGone : known.issueId ∉ d.registry.identities.map Issue.Identity.id) :
    ∃ after, d.run (ingest service projectId r retentionDays) =
        (.error (.notFound (.issue known.issueId)), after) ∧ d.Gains [] after := by
  obtain ⟨mid, hRun, hGains⟩ := h.correlated.run_identifyIssue_misremembered d.now hSome hGone
  obtain ⟨after, hAll, hLeft⟩ : ∃ after, d.run (ingest service projectId r retentionDays) =
      (.error (.notFound (.issue known.issueId)), after) ∧ mid.Gains [] after := by
    refine h.run_inScope ?_ hGains.settled
    refine (run_bind (Deployment.run_now _)).trans ?_
    exact run_bind_error hRun
  have hGained := hGains.and_then hLeft
  exact ⟨after, hAll, hGained.settled, hGained.identities, hGained.named, hGained.records,
    hGained.entries⟩

end Settled
end Deployment
end Triage
