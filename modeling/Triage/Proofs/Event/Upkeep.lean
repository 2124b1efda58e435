import Triage.Proofs.Event.Grouping

/-!
# The cache of a service over time

Reports are taken in one after the other or side by side, time passes, and any call may fail at any
moment.  What happens to the cache of a service is a matter of few requests (`perform_caches`), each
of which keeps it orderly; time does not go back (`perform_elapsed`).  So the cache never holds too
many entries, the oldest come first, nothing expired is left in it when an entry was added or is
answered by it, and each entry names the issue of its key (`cache_in_order`).
-/

namespace Triage

open Events

/-- What a request makes of the cache of a service at a time. -/
def Request.onCache (number : Nat) (now : Int) (c : IssueCache) : Request → IssueCache
  | .findCached service key =>
    if number = service.number then (c.find service.policy now key).2 else c
  | .addCached service key issueId issueUuid =>
    if number = service.number then c.add service.policy now key issueId issueUuid else c
  | .guardKey service key => if number = service.number then c.guard key else c
  | .releaseKey service key => if number = service.number then c.release key else c
  | _ => c

namespace Deployment

variable {d : Deployment} {q : Request}

/-- An event log call changes nothing besides the log and what waits for it. -/
theorem callEventLog_frame (d : Deployment) (call : EventLogCall) :
    ∃ staged events waiting, (d.callEventLog call).2 = { d with staged, events, waiting } := by
  cases call with
  | append record =>
      by_cases hWait : d.appendsWait = true
      · refine ⟨d.staged, d.events, d.waiting ++ [⟨record, d.correlation.current⟩], ?_⟩
        exact congrArg Prod.snd (if_pos hWait)
      · obtain ⟨staged, events, hAfter, -⟩ := d.appendEvent_frame record
        refine ⟨staged, events, d.waiting, ?_⟩
        rw [callEventLog_append (by simpa using hWait), hAfter]
  | _ => exact ⟨d.staged, _, d.waiting, rfl⟩

/-- A change to the cache of a service leaves those of the others. -/
theorem withCache_caches (d : Deployment) (service : Intake) (change : IssueCache → IssueCache)
    (number : Nat) : (d.withCache service change).caches number =
      if number = service.number then change (d.caches number) else d.caches number := by
  by_cases hNumber : number = service.number
  · subst hNumber
    simp [withCache]
  · simp [withCache, hNumber]

/-- The caches and the clock that they go by are changed by requests about them and by pauses. -/
theorem carryOutRequest_caches (d : Deployment) (q : Request) (number : Nat) :
    (d.carryOutRequest q).2.caches number = q.onCache number d.elapsed (d.caches number) ∧
      ((∀ micros, q ≠ .pause micros) → (d.carryOutRequest q).2.elapsed = d.elapsed) := by
  cases q with
  | registry call =>
      obtain ⟨registry, openUnit, issuesNamed, hCall⟩ := d.callRegistry_frame call
      simp [carryOutRequest, hCall, Request.onCache]
  | eventLog call =>
      obtain ⟨staged, events, waiting, hCall⟩ := d.callEventLog_frame call
      simp [carryOutRequest, hCall, Request.onCache]
  | flushEvents =>
      obtain ⟨staged, events, records, hFlush, -⟩ := d.flush_frame
      simp [carryOutRequest, hFlush, Request.onCache]
  | noteChange change =>
      obtain ⟨registry, hNote⟩ := d.noteChange_frame change
      simp [carryOutRequest, hNote, Request.onCache]
  | post p =>
      obtain ⟨posts, outcomes, hPost⟩ := d.sendPost_frame p
      simp [carryOutRequest, hPost, Request.onCache]
  | startWorker instanceId =>
      simp only [carryOutRequest]
      split <;> simp [Request.onCache]
  | findCached service key =>
      refine ⟨?_, fun _ => rfl⟩
      by_cases hNumber : number = service.number <;>
        simp [carryOutRequest, withCache, Request.onCache, hNumber]
  | addCached service key issueId issueUuid =>
      let change (c : IssueCache) := c.add service.policy d.elapsed key issueId issueUuid
      exact ⟨d.withCache_caches service change number, fun _ => rfl⟩
  | guardKey service key => exact ⟨d.withCache_caches service (·.guard key) number, fun _ => rfl⟩
  | releaseKey service key => exact ⟨d.withCache_caches service (·.release key) number, fun _ => rfl⟩
  | pause micros => exact ⟨rfl, fun hPause => absurd rfl (hPause micros)⟩
  | _ => exact ⟨rfl, fun _ => rfl⟩

/-- No failure can be staged for a request about a cache, so it is always carried out. -/
theorem perform_caches (d : Deployment) (q : Request) (number : Nat) :
    (d.perform q).2.caches number = q.onCache number d.elapsed (d.caches number) := by
  cases hTarget : q.target? with
  | none =>
      simp only [perform, hTarget]
      exact (d.carryOutRequest_caches q number).1
  | some target =>
      obtain ⟨e, staged, hFail⟩ | ⟨staged, hDone⟩ := d.perform_eq q
      · rw [hFail]
        cases q <;> simp [Request.target?, Request.onCache] at hTarget ⊢
      · rw [hDone]
        exact ({ d with staged }.carryOutRequest_caches q number).1

theorem perform_elapsed (d : Deployment) (hPause : ∀ micros, q ≠ .pause micros) :
    (d.perform q).2.elapsed = d.elapsed := by
  obtain ⟨e, staged, hFail⟩ | ⟨staged, hDone⟩ := d.perform_eq q
  · rw [hFail]
  · rw [hDone]
    exact ({ d with staged }.carryOutRequest_caches q 0).2 hPause

end Deployment

/-- A cache stays in order under every request, where one service goes by its number. -/
theorem IssueCache.Orderly.onCache {c : IssueCache} {policy : CachePolicy} {now : Int}
    (h : c.Orderly policy now) (hRoom : 1 ≤ policy.maxEntries) {number : Nat} {q : Request}
    (hPolicy : ∀ service key issueId issueUuid, q = .addCached service key issueId issueUuid →
      service.number = number → service.policy = policy) :
    (q.onCache number now c).Orderly policy now := by
  cases q with
  | findCached service key =>
      rw [Request.onCache]
      split
      · exact h.find service.policy now key
      · exact h
  | addCached service key issueId issueUuid =>
      rw [Request.onCache]
      split
      next hNumber =>
        rw [hPolicy service key issueId issueUuid rfl hNumber.symm]
        exact h.add hRoom key issueId issueUuid
      · exact h
  | guardKey service key =>
      rw [Request.onCache]
      split
      · exact ⟨h.few, h.oldestFirst, h.past⟩
      · exact h
  | releaseKey service key =>
      rw [Request.onCache]
      split
      · exact ⟨h.few, h.oldestFirst, h.past⟩
      · exact h
  | _ => exact h

/-- What the cache of a service is used for at a moment is in order: an entry that answers stands
under its key and has not expired, and when an entry was added, it is the youngest one and none has
expired. -/
structure Moment.CacheInOrder {ι : Type} (service : Intake) (m : Moment ι) : Prop where
  answered : ∀ i key known before, m = ⟨i, .findCached service key, .ok (some known), before⟩ →
    known ∈ (before.caches service.number).entries ∧ known.key = key ∧
      before.elapsed - known.since ≤ service.policy.lifetime
  added : ∀ i key issueId issueUuid reply before,
    m = ⟨i, .addCached service key issueId issueUuid, reply, before⟩ →
      let after := (before.perform (.addCached service key issueId issueUuid)).2
      let entries := (after.caches service.number).entries
      entries.getLast? = some ⟨key, issueId, issueUuid, after.elapsed⟩ ∧
        ∀ e ∈ entries, after.elapsed - e.since ≤ service.policy.lifetime

/-- Errands on their way through which the cache of a service stays in order. -/
structure Tended {ι : Type} (errand : ι → Errand) (stored : List EventRecord) (service : Intake)
    (clue : ι → Clue) (trace : List (Moment ι)) (c : Crew ι (Option Receipt)) : Prop
    extends Gathering errand stored clue c where
  orderly : (c.deployment.caches service.number).Orderly service.policy c.deployment.elapsed
  moments : ∀ m ∈ trace, m.CacheInOrder service

namespace Tended

variable {ι : Type} {errand : ι → Errand} {stored : List EventRecord} {service : Intake}
  {clue : ι → Clue} {trace : List (Moment ι)} {c : Crew ι (Option Receipt)} {i : ι} {q : Request}
  {next : Except Failure q.Reply → Program (Option Receipt)}

theorem advance (h : Tended errand stored service clue trace c) {micros : Int}
    (hMicros : 0 ≤ micros) : Tended errand stored service clue trace
      { c with deployment := c.deployment.advance micros } where
  toGathering := h.toGathering.advance micros
  orderly := h.orderly.later (Int.le_add_of_nonneg_right hMicros)
  moments := h.moments

theorem stage (h : Tended errand stored service clue trace c) (failure : StagedFailure) :
    Tended errand stored service clue trace
      { c with deployment := c.deployment.stage failure } where
  toGathering := ⟨⟨h.unit, h.keyed, h.onePerGroup, h.cached⟩, h.keeps, h.told, h.created, h.once,
    h.records⟩
  orderly := h.orderly
  moments := h.moments

variable [DecidableEq ι]

/-- A turn of a task. -/
theorem afterRequest (h : Tended errand stored service clue trace c)
    (hLifetime : 0 ≤ service.policy.lifetime) (hRoom : 1 ≤ service.policy.maxEntries)
    (hOne : ∀ i other, (errand i).service? = some other → other.number = service.number →
      other = service)
    (hProgram : (c.task i).program = .ask q next) :
    Tended errand stored service (c.noted (fun j => (errand j).conduct) clue i q)
      (trace ++ [c.moment i q]) (c.afterRequest i q next) := by
  have hMay : (errand i).mayAsk (clue i) q := Crew.allows_of_keeps h.keeps hProgram
  have hFound : ((c.found i).caches service.number).Orderly service.policy (c.found i).elapsed :=
    h.orderly
  refine ⟨h.toGathering.afterRequest hProgram, ?_, ?_⟩
  -- Only a pause would move the clock, and no errand asks for one.
  · have hElapsed : ((c.found i).perform q).2.elapsed = (c.found i).elapsed :=
      Deployment.perform_elapsed _ fun micros hPause => by
        subst hPause
        rcases hMay with hNow | hAside
        · cases hNow
        · cases hAside
    change (((c.found i).perform q).2.caches service.number).Orderly service.policy
      ((c.found i).perform q).2.elapsed
    rw [hElapsed, Deployment.perform_caches]
    refine hFound.onCache hRoom fun other key issueId issueUuid hAdds hNumber => ?_
    subst hAdds
    rw [hOne i other hMay.2.1 hNumber]
  · intro m hm
    rcases List.mem_append.mp hm with hOld | hNew
    · exact h.moments m hOld
    obtain rfl := List.mem_singleton.mp hNew
    refine ⟨?_, ?_⟩
    · intro j key known before hIs
      obtain ⟨rfl, rfl, hReply, rfl⟩ := Moment.mk.inj hIs
      have hSome : (((c.found i).caches service.number).find service.policy (c.found i).elapsed
        key).1 = some known := Except.ok.inj (eq_of_heq hReply)
      obtain ⟨hMem, hKey⟩ := (IssueCache.find_cases _ _ _ _).2 known hSome
      exact ⟨hMem, hKey, IssueCache.fresh_find hSome⟩
    · intro j key issueId issueUuid reply before hIs
      obtain ⟨rfl, rfl, -, rfl⟩ := Moment.mk.inj hIs
      dsimp only
      rw [Deployment.perform_caches, Deployment.perform_elapsed _ (by simp), Request.onCache,
        if_pos rfl]
      exact ⟨IssueCache.getLast?_add _ _ _ _ _ _, fun e he => hFound.fresh_add hLifetime he⟩

end Tended

/-- Whatever happens to tasks that take in reports, through one service with its cache or others
besides, with calls that fail at any time and clocks that do not go back: the cache of the service
has no more entries than it may have, the oldest ones first, and each of them names the stored issue
of the project and the fingerprint of its key; an entry that answers has not expired, and when an
entry was added, no other one has expired either. -/
theorem cache_in_order {ι : Type} [DecidableEq ι] {d : Deployment} (h : d.Grouped)
    (service : Intake) (hLifetime : 0 ≤ service.policy.lifetime)
    (hRoom : 1 ≤ service.policy.maxEntries)
    (hEmpty : (d.caches service.number).entries = []) (errand : ι → Errand)
    (correlation : ι → Option String)
    (hOne : ∀ i other, (errand i).service? = some other → other.number = service.number →
      other = service)
    (happenings : List (Crew.Happening ι))
    (hForward : ∀ micros, .move (.clock micros) ∈ happenings → 0 ≤ micros) :
    let lived := (Crew.ofErrands d errand correlation).live happenings
    let last := lived.2.deployment
    let cache := last.caches service.number
    (cache.entries.length : Int) ≤ service.policy.maxEntries ∧
      cache.entries.Pairwise (fun older younger => older.since ≤ younger.since) ∧
      (∀ e ∈ cache.entries, e.since ≤ last.elapsed ∧
        (∃ issue ∈ last.registry.issues, cacheKey issue.projectId issue.fingerprint = e.key) ∧
        ∀ issue ∈ last.registry.issues, cacheKey issue.projectId issue.fingerprint = e.key →
          issue.id = e.issueId ∧ issue.uuid = e.issueUuid) ∧
      ∀ m ∈ lived.1, m.CacheInOrder service := by
  intro lived last cache
  have hFirst : Tended errand d.eventRecords service (fun _ => .initial) []
      (Crew.ofErrands d errand correlation) :=
    ⟨Gathering.initial h errand correlation, .of_nil hEmpty hRoom, List.forall_mem_nil _⟩
  obtain ⟨clue, hTended⟩ : ∃ clue, Tended errand d.eventRecords service clue ([] ++ lived.1)
      lived.2 := by
    refine @Crew.live_follows ι _ _ _ (fun trace c =>
      ∃ clue, Tended errand d.eventRecords service clue trace c) happenings ?_ ?_ ?_ _ ⟨_, hFirst⟩
    · exact fun micros hMem ⟨clue, h⟩ => ⟨clue, h.advance (hForward micros hMem)⟩
    · exact fun failure ⟨clue, h⟩ => ⟨clue, h.stage failure⟩
    · exact fun hProgram ⟨clue, h⟩ => ⟨_, h.afterRequest hLifetime hRoom hOne hProgram⟩
  refine ⟨hTended.orderly.few, hTended.orderly.oldestFirst, fun e he => ⟨?_, ?_, ?_⟩, hTended.moments⟩
  · exact hTended.orderly.past e he
  · obtain ⟨x, hx, -, -, hKey⟩ := hTended.cached _ e he
    obtain ⟨issue, hIssue, rfl⟩ := List.mem_map.mp hx
    exact ⟨issue, hIssue, hKey⟩
  · intro issue hIssue hIsKey
    obtain ⟨x, hx, hId, hUuid, hKey⟩ := hTended.cached _ e he
    obtain ⟨hProject, hPrint⟩ := cacheKey_injective (hIsKey.trans hKey.symm)
    obtain rfl : issue.identity = x := hTended.onePerGroup.eq (List.mem_map_of_mem hIssue) hx
      (Prod.ext hProject hPrint)
    exact ⟨hId, hUuid⟩

/-- A service that remembers one issue for five minutes. -/
def forgetful : Intake := ⟨0, ⟨300000000, 1⟩⟩

/-- Two reports of one issue and one of another. -/
def threeReports : Fin 3 → Errand
  | 0 => .takeIn forgetful 1 plainReport 90
  | 1 => .takeIn forgetful 1 { plainReport with eventId := "e2" } 90
  | 2 => .takeIn forgetful 1 { plainReport with eventId := "e3", message := "bang" } 90

/-- The second report is answered by the cache, although its event is not stored then; the issue of
the third one takes the only place. -/
theorem one_place_for_two_issues :
    let d := Deployment.initial ⟨10000000000000000⟩ false
    let reports (i : Fin 3) := List.replicate 30 (Crew.Happening.move (.turn i))
    let outage := Crew.Happening.trouble ⟨"analytics.store_event", 1, .notSent "down"⟩
    let happenings := reports 0 ++ [outage] ++ reports 1 ++ [.move (.clock 60000000)] ++ reports 2
    let lived := (Crew.ofErrands d threeReports fun _ => none).live happenings
    d.Grouped ∧ (∀ m ∈ lived.1, m.CacheInOrder forgetful) ∧
      (lived.2.deployment.caches 0).entries =
        [⟨"1:c701b0edaced33a559f09899bdf1ab4d", 2, "00000000000000000000000000000002", 60000000⟩] ∧
      lived.2.deployment.eventRecords.map (·.eventId) = ["e1", "e3"] := by
  intro d reports outage happenings lived
  have hGrouped := Deployment.grouped_initial ⟨10000000000000000⟩ false
  have hOrder := cache_in_order hGrouped forgetful (by decide) (by decide) rfl threeReports
    (fun _ => none) (by decide) happenings (by simp [happenings, reports, outage])
  exact ⟨hGrouped, hOrder.2.2.2, by decide +kernel, by decide +kernel⟩

end Triage
