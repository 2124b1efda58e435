import Triage.Proofs.Deployment.Requests
import Triage.Proofs.Event.Grouping
import Triage.Proofs.Event.Shares

/-!
# What the counts of tags count

A listing of the tags of an issue counts tags, not events.  A report can have a tag of its own that
follows from its other entries as well, say an environment and a tag with the key `env` and the same
value; it is then among the tags of the event twice, and its value is counted twice
(`one_report_counted_twice`).  In whatever order reports are taken in, this is all that can happen:
the count of a value is the number of events that carry it, and one more for each event whose report
doubles it (`values_count_events`).  Nothing is said of values that the listing leaves out.
-/

namespace Triage

/-! ## The log of a deployment -/

namespace Deployment

variable {d : Deployment}

theorem appendEvent_reached (h : d.events.Reached) (record : EventRecord) :
    (d.appendEvent record).2.events.Reached := by
  obtain ⟨staged, hAfter⟩ := d.takeStaged_eq "analytics._insert"
  unfold appendEvent
  split
  next after hTaken =>
    rw [hTaken] at hAfter
    obtain rfl : after = { d with staged } := hAfter
    exact h
  next after hTaken =>
    rw [hTaken] at hAfter
    obtain rfl : after = { d with staged } := hAfter
    exact h.run (.append record)

theorem flush_reached (h : d.events.Reached) : d.flush.events.Reached := by
  refine List.foldlRecOn (motive := fun d : Deployment => d.events.Reached) _ carryOut h ?_
  intro d h w _
  have hAppend := appendEvent_reached h w.record
  unfold carryOut
  split <;> rename_i hEq <;> rw [hEq] at hAppend <;> exact hAppend

theorem carryOutRequest_reached (h : d.events.Reached) (q : Request) :
    (d.carryOutRequest q).2.events.Reached := by
  cases q with
  | registry call =>
      obtain ⟨registry, openUnit, issuesNamed, hCall⟩ := d.callRegistry_frame call
      rw [carryOutRequest, hCall]
      exact h
  | eventLog call =>
      cases call with
      | append record =>
          cases hWait : d.appendsWait with
          | true =>
              simp only [carryOutRequest, callEventLog, hWait]
              exact h
          | false =>
              rw [carryOutRequest, callEventLog_append hWait]
              exact appendEvent_reached h record
      | _ => exact h.run _
  | flushEvents => exact flush_reached h
  | noteChange change =>
      obtain ⟨registry, hNote⟩ := d.noteChange_frame change
      rw [carryOutRequest, hNote]
      exact h
  | post p =>
      obtain ⟨posts, outcomes, hPost⟩ := d.sendPost_frame p
      rw [carryOutRequest, hPost]
      exact h
  | startWorker instanceId =>
      simp only [carryOutRequest]
      split <;> exact h
  | _ => exact h

/-- Whatever is asked of a deployment, its log is one that comes about. -/
theorem perform_reached (h : d.events.Reached) (q : Request) :
    (d.perform q).2.events.Reached := by
  obtain ⟨e, staged, hFail⟩ | ⟨staged, hDone⟩ := d.perform_eq q
  · rw [hFail]
    exact h
  · rw [hDone]
    exact carryOutRequest_reached (d := { d with staged }) h q

end Deployment

/-! ## Tags that a report gives twice -/

namespace Report

/-- The tags that follow from the other entries of a report. -/
def impliedTags (r : Report) : List (String × String) :=
  derivedTag "env" r.environment ++ derivedTag "level" r.level ++ derivedTag "release" r.release
    ++ derivedTag "server_name" r.serverName ++ derivedTag "user" r.userMark
    ++ derivedTag "os" (r.osName.getD "")

/-- The tags of its own that a report leaves in its event. -/
def ownTags (r : Report) : List (String × String) :=
  (r.tags.filter fun t => !t.1.isEmpty && !t.2.isEmpty).mergeSort fun a b => decide (a.1 ≤ b.1)

/-- A tag is one of a report's own and follows from its other entries as well. -/
def Doubles (r : Report) (pair : String × String) : Prop := pair ∈ r.impliedTags ∧ pair ∈ r.tags

variable {r : Report} {pair : String × String}

theorem eventTags_eq (r : Report) : r.eventTags = r.impliedTags ++ r.ownTags := rfl

theorem mem_derivedTag {key value : String} (h : pair ∈ derivedTag key value) :
    pair = (key, value) ∧ value ≠ "" := by
  unfold derivedTag at h
  split at h
  next => cases h
  next hSome =>
    rw [List.mem_singleton] at h
    exact ⟨h, fun hEmpty => hSome (String.isEmpty_iff.mpr hEmpty)⟩

theorem keys_derivedTag (key value : String) :
    ((derivedTag key value).map Prod.fst).Sublist [key] := by
  unfold derivedTag
  split
  · exact List.nil_sublist _
  · exact List.Sublist.refl _

/-- Implied tags have different keys. -/
theorem nodup_impliedTags (r : Report) : r.impliedTags.Nodup := by
  have hKeys : (r.impliedTags.map Prod.fst).Sublist
      (["env"] ++ ["level"] ++ ["release"] ++ ["server_name"] ++ ["user"] ++ ["os"]) := by
    simp only [impliedTags, List.map_append]
    exact (((((keys_derivedTag _ _).append (keys_derivedTag _ _)).append
      (keys_derivedTag _ _)).append (keys_derivedTag _ _)).append
        (keys_derivedTag _ _)).append (keys_derivedTag _ _)
  exact (hKeys.nodup (by decide)).of_map Prod.fst

theorem mem_ownTags : pair ∈ r.ownTags ↔ pair ∈ r.tags ∧ pair.1 ≠ "" ∧ pair.2 ≠ "" := by
  simp [ownTags, List.mem_mergeSort]

theorem nodup_ownTags (h : (r.tags.map Prod.fst).Nodup) : r.ownTags.Nodup :=
  (List.mergeSort_perm _ _).nodup_iff.mpr ((h.of_map Prod.fst).filter _)

/-- Implied tags have keys and values. -/
theorem ne_empty_of_mem_impliedTags (h : pair ∈ r.impliedTags) : pair.1 ≠ "" ∧ pair.2 ≠ "" := by
  have hDerived : ∃ key value, key ≠ "" ∧ pair ∈ derivedTag key value := by
    simp only [impliedTags, List.mem_append] at h
    rcases h with ((((h | h) | h) | h) | h) | h <;> exact ⟨_, _, by decide, h⟩
  obtain ⟨key, value, hKey, hMem⟩ := hDerived
  obtain ⟨rfl, hValue⟩ := mem_derivedTag hMem
  exact ⟨hKey, hValue⟩

/-- A tag is among those of an event at most twice, and twice exactly if the report doubles it. -/
theorem count_eventTags (h : (r.tags.map Prod.fst).Nodup) :
    r.eventTags.count pair ≤ 2 ∧ (r.eventTags.count pair = 2 ↔ r.Doubles pair) := by
  have hImplied := List.nodup_iff_count_le_one.mp r.nodup_impliedTags pair
  have hOwn := List.nodup_iff_count_le_one.mp (nodup_ownTags h) pair
  have hDoubles : r.Doubles pair ↔ 0 < r.impliedTags.count pair ∧ 0 < r.ownTags.count pair := by
    rw [List.count_pos_iff, List.count_pos_iff, mem_ownTags]
    exact ⟨fun ⟨hMem, hTag⟩ => ⟨hMem, hTag, ne_empty_of_mem_impliedTags hMem⟩,
      fun ⟨hMem, hTag, _⟩ => ⟨hMem, hTag⟩⟩
  rw [eventTags_eq, List.count_append, hDoubles]
  omega

end Report

/-! ## Counts of tags and counts of events -/

namespace StoredEvent

/-- The tags of a stored event. -/
def pairs (e : StoredEvent) : List Tag := e.tags.map StoredTag.tag

/-- The event is that of a report which is taken in on one of some errands. -/
def IsOf (errand : ι → Events.Errand) (e : StoredEvent) (r : Report) : Prop :=
  ∃ i service projectId retentionDays, errand i = .takeIn service projectId r retentionDays ∧
    ∃ issueId issueUuid, e.record = Events.eventOf projectId issueId issueUuid r retentionDays

/-- The event is that of a report which doubles a tag. -/
def IsDoubled (errand : ι → Events.Errand) (e : StoredEvent) (tag : Tag) : Prop :=
  ∃ r, e.IsOf errand r ∧ r.Doubles (tag.key, tag.value)

end StoredEvent

namespace EventLog

variable {tag : Tag}

/-- The number of events of an issue that carry a tag. -/
def carriers (log : EventLog) (c : IssueCriteria) (tag : Tag) : Nat :=
  (log.ofIssue c).countP fun e => tag ∈ e.pairs

/-- The number of events of an issue that carry a tag twice. -/
def doublers (log : EventLog) (c : IssueCriteria) (tag : Tag) : Nat :=
  (log.ofIssue c).countP fun e => e.pairs.count tag = 2

/-- Where no event carries a tag more than twice, it is counted once for each event that carries it,
and once more for each that carries it twice. -/
theorem count_tagsOf {events : List StoredEvent} (h : ∀ e ∈ events, e.pairs.count tag ≤ 2) :
    (tagsOf events).count tag =
      events.countP (fun e => tag ∈ e.pairs) + events.countP fun e => e.pairs.count tag = 2 := by
  induction events with
  | nil => rfl
  | cons e rest ih =>
      have hRest := ih fun other hOther => h other (List.mem_cons_of_mem e hOther)
      have hTwice := h e List.mem_cons_self
      have hSplit : (tagsOf (e :: rest)).count tag =
          e.pairs.count tag + (tagsOf rest).count tag := by
        rw [tagsOf, List.flatMap_cons, List.count_append]
        rfl
      rw [hSplit, hRest, List.countP_cons, List.countP_cons]
      simp only [decide_eq_true_eq, ← List.count_pos_iff]
      split_ifs <;> omega

end EventLog

namespace Events

open EventLog

/-- An event of a report carries the tags of that report. -/
theorem count_pairs {log : EventLog} (h : log.Reached) {e : StoredEvent} (he : e ∈ log.events)
    {errand : ι → Errand} {r : Report} (hOf : e.IsOf errand r) (tag : Tag) :
    e.pairs.count tag = r.eventTags.count (tag.key, tag.value) := by
  obtain ⟨-, -, projectId, retentionDays, -, issueId, issueUuid, hRecord⟩ := hOf
  have hPairs : e.pairs = r.eventTags.map fun pair => ⟨pair.1, pair.2⟩ := by
    rw [StoredEvent.pairs, h.tags_eq he, List.map_map, hRecord]
    exact List.map_id _
  have hInjective : Function.Injective fun pair : String × String => (⟨pair.1, pair.2⟩ : Tag) :=
    fun a b hSame => Prod.ext (congrArg Tag.key hSame) (congrArg Tag.value hSame)
  rw [hPairs]
  exact List.count_map_of_injective _ _ hInjective (tag.key, tag.value)

/-- What the count of a listed value says about the events that the listing is about. -/
structure Tallied (errand : ι → Errand) (log : EventLog) (c : IssueCriteria) (v : ValueShare) :
    Prop where
  count : v.count = log.carriers c ⟨v.key, v.value⟩ + log.doublers c ⟨v.key, v.value⟩
  exact_iff : v.count = log.carriers c ⟨v.key, v.value⟩ ↔
    ∀ e ∈ log.ofIssue c, ¬e.IsDoubled errand ⟨v.key, v.value⟩
  within : (∀ e ∈ log.ofIssue c, ¬e.IsDoubled errand ⟨v.key, v.value⟩) →
    v.count ≤ (log.ofIssue c).length

/-- The own tags of each report have different keys, as the entries of a dictionary do. -/
def DistinctKeys (errand : ι → Errand) : Prop :=
  ∀ i service projectId r retentionDays, errand i = .takeIn service projectId r retentionDays →
    (r.tags.map Prod.fst).Nodup

/-- Every event is that of a report that was taken in. -/
def AllTakenIn (errand : ι → Errand) (log : EventLog) : Prop :=
  ∀ e ∈ log.events, ∃ r, e.IsOf errand r

section Tallied

variable {errand : ι → Errand} {log : EventLog} {e : StoredEvent} {c : IssueCriteria}

/-- An event carries a tag at most twice, and twice exactly if its report doubles it. -/
theorem count_pairs_of_takenIn (hReached : log.Reached) (hKeys : DistinctKeys errand)
    (hTaken : AllTakenIn errand log) (he : e ∈ log.events) (tag : Tag) :
    e.pairs.count tag ≤ 2 ∧ (e.pairs.count tag = 2 ↔ e.IsDoubled errand tag) := by
  have hOf : ∀ r, e.IsOf errand r →
      e.pairs.count tag ≤ 2 ∧ (e.pairs.count tag = 2 ↔ r.Doubles (tag.key, tag.value)) := by
    intro r hOf
    rw [count_pairs hReached he hOf]
    obtain ⟨i, service, projectId, retentionDays, hErrand, -⟩ := hOf
    exact Report.count_eventTags (hKeys i service projectId r retentionDays hErrand)
  obtain ⟨r, hIs⟩ := hTaken e he
  refine ⟨(hOf r hIs).1, fun hCount => ⟨r, hIs, (hOf r hIs).2.mp hCount⟩, ?_⟩
  rintro ⟨other, hOther, hTag⟩
  exact (hOf other hOther).2.mpr hTag

/-- The counts of a log whose events are those of reports. -/
theorem tallied_of_takenIn (hReached : log.Reached) (hKeys : DistinctKeys errand)
    (hTaken : AllTakenIn errand log) {v : ValueShare} (hv : v ∈ listedValues log c) :
    Tallied errand log c v := by
  have hCount := fun e (he : e ∈ log.ofIssue c) =>
    count_pairs_of_takenIn hReached hKeys hTaken (mem_events_of_visible (List.mem_filter.mp he).1)
      ⟨v.key, v.value⟩
  have hSum : v.count = log.carriers c ⟨v.key, v.value⟩ + log.doublers c ⟨v.key, v.value⟩ :=
    ((shares_of_log log c).count v hv).2.trans (count_tagsOf fun e he => (hCount e he).1)
  have hExact : v.count = log.carriers c ⟨v.key, v.value⟩ ↔
      ∀ e ∈ log.ofIssue c, ¬e.IsDoubled errand ⟨v.key, v.value⟩ := by
    rw [hSum, Nat.add_eq_left, doublers, List.countP_eq_zero]
    refine forall₂_congr fun e he => ?_
    rw [decide_eq_true_eq, (hCount e he).2]
  refine ⟨hSum, hExact, fun hNone => ?_⟩
  rw [hExact.mpr hNone]
  exact List.countP_le_length

end Tallied

/-! ## Reports that are taken in -/

section Crew

variable {ι : Type} [DecidableEq ι] (start : Instant) (appendsWait : Bool) (errand : ι → Errand)
  (correlation : ι → Option String) (schedule : List (Move ι))

/-- The deployment in which tasks on their errands find themselves after a schedule that began with
empty stores. -/
def deploymentAfter : Deployment :=
  ((Crew.ofErrands (.initial start appendsWait) errand correlation).run schedule).2.deployment

/-- No failure is staged, and the log has come about by appending. -/
theorem deploymentAfter_undisturbed :
    (deploymentAfter start appendsWait errand correlation schedule).staged = [] ∧
      (deploymentAfter start appendsWait errand correlation schedule).events.Reached := by
  let inv (c : Crew ι (Option Receipt)) : Prop :=
    c.deployment.staged = [] ∧ c.deployment.events.Reached
  refine @Crew.run_keeps ι _ _ _ inv schedule (fun _ _ _ h => h) ?_ ⟨rfl, .empty⟩
  rintro c i q next - ⟨hStaged, hReached⟩
  refine ⟨?_, Deployment.perform_reached (d := c.found i) hReached q⟩
  show ((c.found i).perform q).2.staged = []
  rw [Deployment.perform_unstaged (d := c.found i) hStaged]
  exact Deployment.carryOutRequest_unstaged (d := c.found i) hStaged q

/-- Every event is that of a report that was taken in on one of the errands. -/
theorem deploymentAfter_takenIn :
    AllTakenIn errand (deploymentAfter start appendsWait errand correlation schedule).events := by
  have hEmpty := Deployment.grouped_initial start appendsWait
  obtain ⟨clue, hGathering⟩ := (Gathering.initial hEmpty errand correlation).run schedule
  intro e he
  have hRecord := hGathering.records e.record (Deployment.mem_eventRecords.mpr (.inl ⟨e, he, rfl⟩))
  obtain hThere | ⟨i, x, -, -, hEvent⟩ := hRecord
  · cases hThere
  · cases hErrand : errand i with
    | flush =>
        rw [hErrand] at hEvent
        cases hEvent
    | takeIn service projectId r retentionDays =>
        rw [hErrand] at hEvent
        exact ⟨r, i, service, projectId, retentionDays, hErrand, x.id, x.uuid,
          (Option.some.inj hEvent).symm⟩

/-- Reports are taken in through whichever services, into stores that are empty at first, with their
requests in any order and any time in between.  Then the count of a value in a listing of an issue
is the number of events in the window that carry it, and one more for each event whose report
doubles it.  So it is the number of events that carry it exactly if no report of an event in the
window doubles it, and then it is at most the number of events in the window. -/
theorem values_count_events (hKeys : DistinctKeys errand) (c : IssueCriteria) :
    let d := deploymentAfter start appendsWait errand correlation schedule
    ∃ totals values, d.run (listFields c) = (.ok (totals, values), d) ∧
      ∀ v ∈ values, Tallied errand d.events c v := by
  obtain ⟨hStaged, hReached⟩ := deploymentAfter_undisturbed start appendsWait errand correlation
    schedule
  have hTaken := deploymentAfter_takenIn start appendsWait errand correlation schedule
  exact ⟨_, _, run_listFields hStaged hReached.dropped_eq c,
    fun v hv => tallied_of_takenIn hReached hKeys hTaken hv⟩

end Crew

/-- A service that takes in some reports for one project. -/
def intake (reports : List Report) (i : Fin reports.length) : Errand :=
  .takeIn ⟨0, .usual⟩ 1 reports[i] 90

theorem distinctKeys_intake {reports : List Report}
    (h : ∀ r ∈ reports, (r.tags.map Prod.fst).Nodup) : DistinctKeys (intake reports) := by
  intro i service projectId r retentionDays hErrand
  obtain ⟨-, -, rfl, -⟩ := Errand.takeIn.inj hErrand
  exact h _ (List.getElem_mem _)

/-- A report from production of which little else is known. -/
def productionReport (level : String) (tags : List (String × String)) : Report :=
  { plainReport with level, environment := "prod", user := .unknown, tags }

/-- The deployment after some reports were taken in one after the other. -/
def afterReports (reports : List Report) : Deployment :=
  deploymentAfter ⟨10000000000000000⟩ false (intake reports) (fun _ => none)
    ((List.finRange reports.length).flatMap fun i => List.replicate 20 (.turn i))

/-- The first issue of that project, in a window that is wide enough. -/
def firstIssue : IssueCriteria := ⟨1, 1, ⟨⟨0⟩, ⟨20000000000000000⟩⟩, ""⟩

theorem run_listFields_afterReports (reports : List Report) (c : IssueCriteria) :
    (afterReports reports).run (listFields c) = (.ok ((afterReports reports).events.tagTotals c,
      listedValues (afterReports reports).events c), afterReports reports) := by
  obtain ⟨hStaged, hReached⟩ := deploymentAfter_undisturbed ⟨10000000000000000⟩ false
    (intake reports) (fun _ => none)
    ((List.finRange reports.length).flatMap fun i => List.replicate 20 (.turn i))
  exact run_listFields hStaged hReached.dropped_eq c

/-- The most frequent of some tags is listed. -/
theorem exists_listed_of_tags {log : EventLog} {c : IssueCriteria} {tags : List Tag} {tag : Tag}
    (hTags : tagsOf (log.ofIssue c) = tags) (hMem : tag ∈ tags)
    (hMost : ∀ other ∈ tags, other ≠ tag → tags.count other < tags.count tag) :
    ∃ v ∈ listedValues log c, counted v = (tag, tags.count tag) := by
  subst hTags
  exact exists_listed_of_most hMem hMost

/-- Two reports from one environment that differ in a tag of their own are counted as two. -/
theorem two_reports_counted :
    let reports := [productionReport "" [("zone", "eu")], productionReport "" [("zone", "us")]]
    let d := afterReports reports
    DistinctKeys (intake reports) ∧
      ∃ totals values, d.run (listFields firstIssue) = (.ok (totals, values), d) ∧
        ∃ v ∈ values, Tallied (intake reports) d.events firstIssue v ∧
          counted v = (⟨"env", "prod"⟩, 2) ∧ d.events.carriers firstIssue ⟨"env", "prod"⟩ = 2 := by
  intro reports d
  have hKeys : DistinctKeys (intake reports) := distinctKeys_intake (by decide)
  obtain ⟨totals, values, hRun, hTallied⟩ := values_count_events ⟨10000000000000000⟩ false
    (intake reports) (fun _ => none)
    ((List.finRange reports.length).flatMap fun i => List.replicate 20 (.turn i)) hKeys firstIssue
  have hAnswer := hRun.symm.trans (run_listFields_afterReports reports firstIssue)
  obtain ⟨rfl, rfl⟩ := Prod.mk.inj (Except.ok.inj (congrArg Prod.fst hAnswer))
  have hTags : tagsOf (d.events.ofIssue firstIssue) =
      [⟨"env", "prod"⟩, ⟨"zone", "eu"⟩, ⟨"env", "prod"⟩, ⟨"zone", "us"⟩] := by
    decide +kernel
  obtain ⟨v, hv, hCounted⟩ : ∃ v ∈ listedValues d.events firstIssue,
      counted v = (⟨"env", "prod"⟩, 2) := exists_listed_of_tags hTags (by decide) (by decide)
  exact ⟨hKeys, _, _, hRun, v, hv, hTallied v hv, hCounted, by decide +kernel⟩

/-- A report whose own tag follows from its environment as well is counted as two. -/
theorem one_report_counted_twice :
    let d := afterReports [productionReport "error" [("env", "prod")]]
    ∃ totals values, d.run (listFields firstIssue) = (.ok (totals, values), d) ∧
      ∃ v ∈ values, counted v = (⟨"env", "prod"⟩, 2) ∧
        d.events.carriers firstIssue ⟨"env", "prod"⟩ = 1 ∧
          (d.events.ofIssue firstIssue).length = 1 := by
  intro d
  have hTags : tagsOf (d.events.ofIssue firstIssue) =
      [⟨"env", "prod"⟩, ⟨"level", "error"⟩, ⟨"env", "prod"⟩] := by
    decide +kernel
  obtain ⟨v, hv, hCounted⟩ : ∃ v ∈ listedValues d.events firstIssue,
      counted v = (⟨"env", "prod"⟩, 2) := exists_listed_of_tags hTags (by decide) (by decide)
  exact ⟨_, _, run_listFields_afterReports _ firstIssue, v, hv, hCounted, by decide +kernel,
    by decide +kernel⟩

end Events
end Triage
