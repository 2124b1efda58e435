import Triage.Proofs.EventLog.Tally

/-!
# The order of appending

The number of an event says when it was appended.  Lists of events are looked up and paged by it;
whatever counts, ranks or compares events is not.  Two logs with the same events under other numbers
give the same answers to all such queries, so the answers do not depend on the order in which the
records were appended (`aggregates_ignore_order`).
-/

namespace Triage

/-- An operation that picks, of two entries, the one that comes first. -/
structure Chooses (before : κ → κ → Bool) (choose : κ → κ → κ) : Prop where
  left : ∀ a b, before (choose a b) a = true
  right : ∀ a b, before (choose a b) b = true
  either : ∀ a b, choose a b = a ∨ choose a b = b

namespace Chooses

variable {before : κ → κ → Bool} {choose : κ → κ → κ}

theorem foldl_mem (h : Chooses before choose) (first : κ) (rest : List κ) :
    rest.foldl choose first ∈ first :: rest := by
  induction rest generalizing first with
  | nil => simp
  | cons next rest ih =>
      have hMem := ih (choose first next)
      rw [List.foldl_cons]
      rcases List.mem_cons.mp hMem with hHead | hTail
      · rcases h.either first next with hFirst | hNext
        · rw [hHead, hFirst]
          exact List.mem_cons_self
        · rw [hHead, hNext]
          exact List.mem_cons_of_mem _ List.mem_cons_self
      · exact List.mem_cons_of_mem _ (List.mem_cons_of_mem _ hTail)

theorem foldl_before (h : Chooses before choose) (hRanks : Ranks before) (first : κ)
    (rest : List κ) : ∀ x ∈ first :: rest, before (rest.foldl choose first) x = true := by
  induction rest generalizing first with
  | nil =>
      intro x hx
      rw [List.mem_singleton.mp hx]
      exact hRanks.before_self first
  | cons next rest ih =>
      have hChosen := ih (choose first next)
      have hHead := hChosen _ List.mem_cons_self
      intro x hx
      rcases List.mem_cons.mp hx with rfl | hx
      · exact hRanks.trans _ _ _ hHead (h.left x next)
      rcases List.mem_cons.mp hx with rfl | hx
      · exact hRanks.trans _ _ _ hHead (h.right first x)
      · exact hChosen x (List.mem_cons_of_mem _ hx)

/-- What is chosen from some entries depends on nothing but which entries there are. -/
theorem foldl_eq (h : Chooses before choose) (hRanks : Ranks before) {first first' : κ}
    {rest rest' : List κ} (hSame : ∀ x, x ∈ first :: rest ↔ x ∈ first' :: rest') :
    rest.foldl choose first = rest'.foldl choose first' :=
  hRanks.antisymm _ _
    (h.foldl_before hRanks first rest _ ((hSame _).mpr (h.foldl_mem first' rest')))
    (h.foldl_before hRanks first' rest' _ ((hSame _).mp (h.foldl_mem first rest)))

end Chooses

/-- Where entries are ranked, the choice between two is made by asking once. -/
theorem Ranks.chooses {before : κ → κ → Bool} {choose : κ → κ → κ} (h : Ranks before)
    (hAsk : ∀ a b, choose a b = if before a b = true then a else b) : Chooses before choose where
  left a b := by
    rw [hAsk]
    split
    · exact h.before_self a
    next hNot => exact (Bool.or_eq_true _ _ ▸ h.total a b).resolve_left hNot
  right a b := by
    rw [hAsk]
    split
    next hBefore => exact hBefore
    · exact h.before_self b
  either a b := by
    rw [hAsk]
    exact ite_eq_or_eq _ a b

theorem chooses_earlier :
    Chooses (fun a b : Instant => decide (a ≤ b)) fun a b => if b < a then b else a :=
  ranks_instant.chooses fun a b => by
    simp only [decide_eq_true_eq, ← Instant.not_le, ite_not]

theorem chooses_later :
    Chooses (fun a b : Instant => decide (b ≤ a)) fun a b => if a < b then b else a :=
  ranks_instant.flip.chooses fun a b => by
    simp only [decide_eq_true_eq, ← Instant.not_le, ite_not]

section

variable {first first' : Instant} {times times' : List Instant}

theorem earliest_eq (hSame : ∀ t, t ∈ first :: times ↔ t ∈ first' :: times') :
    earliest first times = earliest first' times' :=
  chooses_earlier.foldl_eq ranks_instant hSame

theorem latest_eq (hSame : ∀ t, t ∈ first :: times ↔ t ∈ first' :: times') :
    latest first times = latest first' times' :=
  chooses_later.foldl_eq ranks_instant.flip hSame

theorem mem_headD_cons_iff {xs ys : List κ} (h : xs.Perm ys) (none : κ) (x : κ) :
    x ∈ xs.headD none :: xs ↔ x ∈ ys.headD none :: ys := by
  cases xs with
  | nil => rw [List.nil_perm.mp h]
  | cons head tail =>
      cases ys with
      | nil => cases h.length_eq
      | cons head' tail' =>
          have hMem := h.mem_iff (a := x)
          simpa using hMem

end

/-- An event without its number. -/
def StoredEvent.unnumbered (e : StoredEvent) : StoredEvent := { e with id := 0 }

/-- The same events, in whatever order and under whatever numbers. -/
def SameEvents (events events' : List StoredEvent) : Prop :=
  (events.map StoredEvent.unnumbered).Perm (events'.map StoredEvent.unnumbered)

namespace SameEvents

variable {events events' : List StoredEvent}

theorem map {f : StoredEvent → β} (h : SameEvents events events')
    (hReads : ∀ e, f e.unnumbered = f e) : (events.map f).Perm (events'.map f) := by
  have hMap : ∀ es : List StoredEvent, (es.map StoredEvent.unnumbered).map f = es.map f := by
    intro es
    rw [List.map_map]
    exact List.map_congr_left fun e _ => hReads e
  rw [← hMap events, ← hMap events']
  exact List.Perm.map f h

theorem flatMap {f : StoredEvent → List β} (h : SameEvents events events')
    (hReads : ∀ e, f e.unnumbered = f e) : (events.flatMap f).Perm (events'.flatMap f) := by
  rw [List.flatMap_def, List.flatMap_def]
  exact (h.map hReads).flatten

theorem filter {keep : StoredEvent → Bool} (h : SameEvents events events')
    (hReads : ∀ e, keep e.unnumbered = keep e) :
    SameEvents (events.filter keep) (events'.filter keep) := by
  have hFilter : ∀ es : List StoredEvent, (es.map StoredEvent.unnumbered).filter keep =
      (es.filter keep).map StoredEvent.unnumbered := by
    intro es
    have hKeep : keep ∘ StoredEvent.unnumbered = keep := funext hReads
    rw [List.filter_map, hKeep]
  rw [SameEvents, ← hFilter, ← hFilter]
  exact List.Perm.filter keep h

theorem length_eq (h : SameEvents events events') : events.length = events'.length := by
  simpa using List.Perm.length_eq h

theorem tagsOf (h : SameEvents events events') :
    (EventLog.tagsOf events).Perm (EventLog.tagsOf events') :=
  h.flatMap fun _ => rfl

end SameEvents

namespace EventLog

/-- The metrics of some events of a group, if there are any. -/
def groupMetrics? (groupId : Int) : List StoredEvent → Option IssueMetrics
  | [] => none
  | first :: rest => some (metricsOf groupId first rest)

theorem groupMetrics?_eq {events events' : List StoredEvent} (h : SameEvents events events')
    (groupId : Int) : groupMetrics? groupId events = groupMetrics? groupId events' := by
  have hLength := h.length_eq
  have hUsers := (h.map (f := fun e => e.record.user) fun _ => rfl).filter
    fun user => !user.isEmpty
  have hTimes := h.map (f := StoredEvent.createdAt) fun _ => rfl
  cases events with
  | nil =>
      cases events' with
      | nil => rfl
      | cons first' rest' => cases hLength
  | cons first rest =>
      cases events' with
      | nil => cases hLength
      | cons first' rest' =>
          have hSame : ∀ t, t ∈ first.createdAt :: rest.map StoredEvent.createdAt ↔
              t ∈ first'.createdAt :: rest'.map StoredEvent.createdAt := fun t => hTimes.mem_iff
          have hCount := (eraseDups_perm hUsers).length_eq
          simp only [groupMetrics?, metricsOf, hLength, hCount, earliest_eq hSame,
            latest_eq hSame]

theorem keyCounts_eq {events events' : List StoredEvent} (h : SameEvents events events') :
    keyCounts events = keyCounts events' := by
  rw [keyCounts, keyCounts, mostFrequent_tally_eq_of_perm ranks_textBefore (h.tagsOf.map Tag.key)]

section

variable {log log' : EventLog} (h : SameEvents log.visible log'.visible)

include h

theorem found_same (c : IssuesCriteria) : SameEvents (log.found c) (log'.found c) :=
  h.filter fun _ => rfl

theorem ofIssue_same (c : IssueCriteria) : SameEvents (log.ofIssue c) (log'.ofIssue c) :=
  h.filter fun _ => rfl

theorem ofProjects_same (c : ProjectsCriteria) (isInside : Window → Instant → Bool) :
    SameEvents (log.ofProjects c isInside) (log'.ofProjects c isInside) :=
  h.filter fun _ => rfl

theorem matching_same (c : EventsCriteria) : SameEvents (log.matching c) (log'.matching c) :=
  h.filter fun _ => rfl

theorem metrics_eq_of_same (c : IssuesCriteria) : log.metrics c = log'.metrics c := by
  have hFound := found_same h c
  have hGroups := ranks_le.mergeSort_eq_of_perm
    (eraseDups_perm (hFound.map (f := fun e => e.record.groupId) fun _ => rfl))
  have hMetrics : ∀ groupId, groupMetrics? groupId (ofGroup (log.found c) groupId) =
      groupMetrics? groupId (ofGroup (log'.found c) groupId) :=
    fun groupId => groupMetrics?_eq (hFound.filter fun _ => rfl) groupId
  rw [metrics_eq, metrics_eq, hGroups]
  exact List.filterMap_congr fun groupId _ => hMetrics groupId

theorem valueShares_eq_of_same (c : IssueCriteria) : log.valueShares c = log'.valueShares c := by
  have hEvents := ofIssue_same h c
  have hCounts := mostFrequent_tally_eq_of_perm ranks_tagBefore hEvents.tagsOf
  simp only [valueShares, hCounts]
  refine List.map_congr_left fun row _ => ?_
  have hTagged : SameEvents
      ((log.ofIssue c).filter fun e => e.tags.any fun t => decide (t.tag = row.1))
      ((log'.ofIssue c).filter fun e => e.tags.any fun t => decide (t.tag = row.1)) :=
    hEvents.filter fun _ => rfl
  have hTimes := hTagged.map (f := StoredEvent.createdAt) fun _ => rfl
  have hSame := mem_headD_cons_iff hTimes (⟨0⟩ : Instant)
  simp only [earliest_eq hSame, latest_eq hSame]

theorem tagTotals_eq_of_same (c : IssueCriteria) : log.tagTotals c = log'.tagTotals c := by
  rw [tagTotals, tagTotals, keyCounts_eq (ofIssue_same h c)]

theorem countEvents_eq_of_same (c : EventsCriteria) : log.countEvents c = log'.countEvents c :=
  (matching_same h c).length_eq

theorem groupIds_eq_of_same (c : SearchCriteria) : log.groupIds c = log'.groupIds c := by
  let keep (e : StoredEvent) : Bool :=
    c.projectIds.contains e.record.projectId && c.window.covers e.createdAt && c.tokens.all e.fits
  have hFits : SameEvents (log.visible.filter keep) (log'.visible.filter keep) :=
    h.filter fun _ => rfl
  exact ranks_le.mergeSort_eq_of_perm
    (eraseDups_perm (hFits.map (f := fun e => e.record.groupId) fun _ => rfl))

theorem perDay_eq_of_same (c : IssueCriteria) : log.perDay c = log'.perDay c := by
  have hDays := (ofIssue_same h c).map (f := fun e => e.createdAt.startOfDay) fun _ => rfl
  rw [perDay_eq, perDay_eq, mergeSort_tally_eq_of_perm ranks_instant.flip hDays]

theorem perHour_eq_of_same (c : ProjectsCriteria) : log.perHour c = log'.perHour c := by
  have hKeys := (ofProjects_same h c Window.opens).map
    (f := fun e => (e.createdAt.startOfHour, e.record.projectId)) fun _ => rfl
  rw [perHour_eq, perHour_eq, mergeSort_tally_eq_of_perm ranks_hourBefore hKeys]

theorem popularTags_eq_of_same (c : ProjectsCriteria) : log.popularTags c = log'.popularTags c := by
  rw [popularTags, popularTags, keyCounts_eq (ofProjects_same h c Window.covers)]

theorem tagValues_eq_of_same (c : TagCriteria) : log.tagValues c = log'.tagValues c := by
  have hTags := ((ofProjects_same h c.projects Window.covers).tagsOf.filter
    fun t => t.key = c.key).map Tag.value
  have hCounts := mostFrequent_tally_eq_of_perm ranks_textBefore hTags
  simp only [tagValues, hCounts]

theorem suggestedFilters_eq_of_same (c : ProjectsCriteria) :
    log.suggestedFilters c = log'.suggestedFilters c := by
  have hTags := (ofProjects_same h c Window.opens).tagsOf
  rw [suggestedFilters, suggestedFilters, mostFrequent_tally_eq_of_perm ranks_tagBefore hTags]

end

end EventLog

/-- Whether a call counts, ranks or compares events, rather than show them or append one. -/
def EventLogCall.aggregates : EventLogCall → Bool
  | .metrics _ | .valueShares _ | .tagTotals _ | .countEvents _ | .groupIds _ | .perDay _
  | .perHour _ | .popularTags _ | .tagValues _ | .suggestedFilters _ => true
  | .append _ | .issueEvent _ | .listEvents _ | .tableSizes | .slowStatements
  | .errorCounts _ => false

namespace EventLog

/-- Logs with the same events give the same answer to every call that aggregates. -/
theorem apply_eq_of_same {log log' : EventLog} (h : SameEvents log.visible log'.visible)
    {call : EventLogCall} (hAggregates : call.aggregates = true) :
    (log.apply call).1 = (log'.apply call).1 := by
  cases call with
  | metrics c => exact metrics_eq_of_same h c
  | valueShares c => exact valueShares_eq_of_same h c
  | tagTotals c => exact tagTotals_eq_of_same h c
  | countEvents c => exact countEvents_eq_of_same h c
  | groupIds c => exact groupIds_eq_of_same h c
  | perDay c => exact perDay_eq_of_same h c
  | perHour c => exact perHour_eq_of_same h c
  | popularTags c => exact popularTags_eq_of_same h c
  | tagValues c => exact tagValues_eq_of_same h c
  | suggestedFilters c => exact suggestedFilters_eq_of_same h c
  | append | issueEvent | listEvents | tableSizes | slowStatements | errorCounts =>
      cases hAggregates

/-- Appends records one after the other, as long as the log takes them. -/
def appendAll (log : EventLog) : List EventRecord → Except Failure EventLog
  | [] => .ok log
  | r :: rest =>
      match log.run (.append r) with
      | (.ok (), after) => after.appendAll rest
      | (.error failure, _) => .error failure

/-- A log with its tables takes every record, and what it holds afterwards of a record says nothing
but the record itself and a number. -/
theorem appendAll_eq_ok {log : EventLog} (hTables : log.dropped = false)
    (records : List EventRecord) :
    ∃ after, log.appendAll records = .ok after ∧ after.dropped = false ∧
      after.events.map StoredEvent.unnumbered =
        log.events.map StoredEvent.unnumbered ++ records.map fun r => r.stored 0 := by
  induction records generalizing log with
  | nil => exact ⟨log, rfl, hTables, by simp⟩
  | cons r rest ih =>
      have hStill : (log.append r).dropped = false := hTables
      obtain ⟨after, hAppend, hDropped, hEvents⟩ := ih hStill
      have hRun : log.run (.append r) = (.ok (), log.append r) := by
        simp [run, hTables, apply]
      refine ⟨after, by rw [appendAll, hRun]; exact hAppend, hDropped, ?_⟩
      rw [hEvents, append, List.map_append, List.append_assoc]
      rfl

/-- The same records appended in another order leave the same events. -/
theorem visible_same_of_perm {records reordered : List EventRecord} {log log' : EventLog}
    (h : records.Perm reordered)
    (hEvents : log.events.map StoredEvent.unnumbered = records.map fun r => r.stored 0)
    (hEvents' : log'.events.map StoredEvent.unnumbered = reordered.map fun r => r.stored 0) :
    SameEvents log.visible log'.visible := by
  refine SameEvents.filter ?_ fun _ => rfl
  rw [SameEvents, hEvents, hEvents']
  exact h.map _

/-- Whatever counts, ranks or compares events answers the same, in whatever order the records were
appended. -/
theorem aggregates_ignore_order {records reordered : List EventRecord}
    (h : records.Perm reordered) :
    ∃ log log', empty.appendAll records = .ok log ∧ empty.appendAll reordered = .ok log' ∧
      ∀ call : EventLogCall, call.aggregates = true →
        ∃ answer, (log.run call).1 = .ok answer ∧ (log'.run call).1 = .ok answer := by
  have hEmpty : empty.dropped = false := rfl
  obtain ⟨log, hLog, hTables, hEvents⟩ := appendAll_eq_ok hEmpty records
  obtain ⟨log', hLog', hTables', hEvents'⟩ := appendAll_eq_ok hEmpty reordered
  refine ⟨log, log', hLog, hLog', fun call hAggregates => ⟨(log.apply call).1, ?_, ?_⟩⟩
  · simp [run, hTables]
  · have hSame := visible_same_of_perm h hEvents hEvents'
    simp [run, hTables', apply_eq_of_same hSame hAggregates]

/-- A record of an event at a fixed time on an operating system. -/
def recordOn (system : String) : EventRecord :=
  ⟨"", 1, 7, ⟨1000⟩, 90, "python", "error", "prod", "1.0", "", "", "", "", "boom", "boom", "", "", "",
    [], [⟨"os", system⟩]⟩

/-- Two events that agree in their time, so that their tags occur equally often. -/
theorem aggregates_ignore_order_of_ties :
    [recordOn "Linux", recordOn "macOS"].Perm [recordOn "macOS", recordOn "Linux"] ∧
      ∃ log log', empty.appendAll [recordOn "Linux", recordOn "macOS"] = .ok log ∧
        empty.appendAll [recordOn "macOS", recordOn "Linux"] = .ok log' ∧
        ∀ call : EventLogCall, call.aggregates = true →
          ∃ answer, (log.run call).1 = .ok answer ∧ (log'.run call).1 = .ok answer :=
  ⟨.swap _ _ [], aggregates_ignore_order (.swap _ _ [])⟩

end EventLog
end Triage
