import Triage.Proofs.Alert.Checks
import Triage.Proofs.Event.Filing
import Triage.Proofs.EventLog.Metrics

/-!
# What a tick decides

A tick looks at events through the issues that were seen in the window of an alert.  Because every
event is filed under an issue that was seen no earlier than the event happened, this finds every
event of the window, and the status that is stored is the one that counting the events themselves
gives (`decides_by_the_events`).
-/

namespace Triage

open Program

/-- The events of a project in a closed window. -/
def EventLog.inside (log : EventLog) (projectId : Int) (window : Window) : List StoredEvent :=
  log.events.filter fun e => decide (e.record.projectId = projectId) && window.covers e.createdAt

/-- Counting the events themselves, an alert is breached now. -/
def Deployment.Breaches (d : Deployment) (a : Alert) : Prop :=
  a.BreachedBy (d.events.inside a.projectId (a.windowAt d.now))

/-- What a decision about an alert is read from: its row as it was listed, and events that are filed
under issues seen no earlier. -/
structure Deployment.Shows (d : Deployment) (a : Alert) : Prop extends d.Quiet where
  logThere : d.events.dropped = false
  row : d.registry.alert? a.id = some a
  evaluated : a.isEvaluated = true
  seen : ∀ i ∈ d.registry.issues, i.lastSeen ≤ d.now
  filed : ∀ e ∈ d.events.events, e.deleted = false ∧ ∃ i ∈ d.registry.issues,
    i.id = e.record.groupId ∧ i.projectId = e.record.projectId ∧ e.createdAt ≤ i.lastSeen
  window : (a.windowAt d.now).start.representable = true

/-- An alert that a worker can decide about: no lease on it is live, and one of the worker's own can
be written. -/
structure Worker.Due (w : Worker) (a : Alert) (d : Deployment) : Prop extends d.Shows a where
  free : ∀ l ∈ d.registry.leases, l.alertId = a.id → l.expiresAt < d.now
  lease : (d.now.shift w.leaseMicros).representable = true

/-- It has been decided whether an alert is triggered. -/
structure Deployment.Decided (d : Deployment) (a : Alert) (breached : Prop) : Prop
    extends d.Quiet where
  decided : ∃ row, d.registry.alert? a.id = some row ∧ (row.status = Alert.triggered ↔ breached)

namespace Worker

variable {w : Worker} {a : Alert} {d before : Deployment}

/-- What is due stays due while the alert is not disturbed. -/
theorem Due.undisturbed (h : w.Due a before) (hLeft : before.Undisturbed a.id d) : w.Due a d where
  toQuiet := hLeft.toQuiet
  logThere := by rw [hLeft.events]; exact h.logThere
  row := by rw [hLeft.row]; exact h.row
  evaluated := h.evaluated
  seen := by rw [hLeft.issues, hLeft.now]; exact h.seen
  filed := by rw [hLeft.events, hLeft.issues]; exact h.filed
  free l hl hAlert := by rw [hLeft.now]; exact h.free l (hLeft.leases l hl hAlert) hAlert
  window := by rw [hLeft.now]; exact h.window
  lease := by rw [hLeft.now]; exact h.lease

end Worker

namespace Deployment

variable {a : Alert} {d before : Deployment}

theorem Undisturbed.breaches_eq (h : before.Undisturbed a.id d) : d.Breaches a = before.Breaches a := by
  rw [Breaches, Breaches, h.events, h.now]

/-- A decision stands through a program that spares the alert. -/
theorem Decided.ends {breached : Prop} (h : d.Decided a breached) {p : Program α}
    (hAsks : p.Asks (Worker.Spares a.id)) : p.Ends d fun _ after => after.Decided a breached := by
  refine Ends.mono (Undisturbed.ends hAsks (.refl h.toQuiet a.id)) fun _ after hLeft => ?_
  exact ⟨hLeft.toQuiet, by rw [hLeft.row]; exact h.decided⟩

/-- The issues that were seen in the window lead to every event in it. -/
theorem Shows.found_eq_inside (h : d.Shows a) :
    let seen := Registry.issuesSeen d.registry.issues a.projectId (a.windowAt d.now)
    d.events.found ⟨[a.projectId], seen.map Issue.id, a.windowAt d.now⟩
      = d.events.inside a.projectId (a.windowAt d.now) := by
  intro seen
  have hVisible : d.events.visible = d.events.events :=
    List.filter_eq_self.mpr fun e he => by rw [(h.filed e he).1]; rfl
  rw [EventLog.found, EventLog.inside, hVisible]
  refine List.filter_congr fun e he => ?_
  -- The issue of the event was seen between the event and now, so an event in the window has its
  -- issue among the listed ones.
  obtain ⟨-, i, hi, hId, hProject, hTime⟩ := h.filed e he
  rw [Bool.eq_iff_iff]
  simp only [Bool.and_eq_true, List.contains_eq_mem, decide_eq_true_eq, List.mem_singleton]
  constructor
  · rintro ⟨⟨-, hCovers⟩, hAbout⟩
    exact ⟨hAbout, hCovers⟩
  · rintro ⟨hAbout, hCovers⟩
    refine ⟨⟨?_, hCovers⟩, hAbout⟩
    have hStart : (a.windowAt d.now).start ≤ e.createdAt := by
      simp only [Window.covers, Bool.and_eq_true, decide_eq_true_eq] at hCovers
      exact hCovers.1
    have hSeen : Registry.wasSeen (a.windowAt d.now).start (a.windowAt d.now).stop i = true := by
      have hFrom : (a.windowAt d.now).start ≤ i.lastSeen := Int.le_trans hStart hTime
      have hUntil : i.lastSeen ≤ (a.windowAt d.now).stop := h.seen i hi
      simp [Registry.wasSeen, hFrom, hUntil]
    exact List.mem_map.mpr
      ⟨i, Registry.mem_issuesSeen.mpr ⟨hi, hProject.trans hAbout, hSeen⟩, hId⟩

/-- The verdict is the one of counting the events in the window. -/
theorem Shows.verdict (h : d.Shows a) :
    ∃ breached, d.verdict? a = some breached ∧ (breached = true ↔ d.Breaches a) := by
  let seen := Registry.issuesSeen d.registry.issues a.projectId (a.windowAt d.now)
  let c : IssuesCriteria := ⟨[a.projectId], seen.map Issue.id, a.windowAt d.now⟩
  have hBreached : a.isBreached (d.events.metrics c) = true ↔ d.Breaches a := by
    rw [EventLog.isBreached_metrics, h.found_eq_inside]
    rfl
  by_cases hNone : seen.isEmpty = true
  · -- Without issues the query would find no events.
    have hQuiet : ¬d.Breaches a := by
      rw [← hBreached, EventLog.isBreached_metrics]
      rintro ⟨e, he, -⟩
      simp [c, List.isEmpty_iff.mp hNone, EventLog.found] at he
    refine ⟨false, ?_, iff_of_false Bool.false_ne_true hQuiet⟩
    simp [verdict?, Alert.verdict?, h.window, seen, hNone]
  · refine ⟨_, ?_, hBreached⟩
    simp only [verdict?, Alert.verdict?, h.window, Bool.not_true, Bool.false_eq_true, if_false,
      EventLog.run, h.logThere, Bool.false_and]
    exact if_neg hNone

end Deployment

namespace Worker

open Deployment

variable {w : Worker} {a : Alert} {d : Deployment}

/-- An evaluation decides about the alert by counting the events in its window. -/
theorem evaluate_decides (h : d.Shows a) :
    (w.evaluate a d.now).Ends d fun _ after => after.Decided a (d.Breaches a) := by
  obtain ⟨breached, hVerdict, hBreached⟩ := h.verdict
  refine (evaluate_carries h.toQuiet h.row).mono fun _ after hCarries => ?_
  have hId : (d.evaluated a).id = a.id := a.evaluated_id _ _ _
  refine ⟨hCarries.toQuiet, d.evaluated a, hId ▸ hCarries.row, ?_⟩
  rw [evaluated_of_verdict hVerdict]
  exact (Alert.settle_status h.evaluated d.now breached).trans hBreached

/-- A check decides about an alert that is due. -/
theorem checkAlert_decides (h : w.Due a d) :
    (w.checkAlert a).Ends d fun _ after => after.Decided a (d.Breaches a) := by
  obtain ⟨hLease, -⟩ | ⟨⟨l, hMem, hAlert, hRuns⟩, -⟩ | ⟨-, -, hLeads⟩ :=
    checkAlert_cases h.toQuiet w a
  · simp [h.lease] at hLease
  · exact absurd (h.free l hMem hAlert) (Instant.not_lt.mpr hRuns)
  -- Being granted the lease changes the ledger only.
  have hShows : (w.leased a d).Shows a :=
    ⟨⟨h.unit, h.staged, h.there⟩, h.logThere, h.row, h.evaluated, h.seen, h.filed, h.window⟩
  refine hLeads.ends (Ends.ensure (evaluate_decides hShows) fun outcome after hDecided => ?_)
  refine (hDecided.ends (releaseLease_spares w a.id)).mono fun ended final hFinal => ?_
  cases ended <;> exact hFinal

/-- Attending to an alert that is due decides about it. -/
theorem attend_decides (h : w.Due a d) :
    (w.attend a).Ends d fun _ after => after.Decided a (d.Breaches a) := by
  rw [attend, if_pos h.evaluated]
  refine Ends.attempt_bind (checkAlert_decides h) fun checked after hDecided => ?_
  refine hDecided.ends ?_
  cases checked with
  | ok _ => exact asks_pure _
  | error e => exact report_spares ..

/-- Checking alerts decides about each one that is due: the checks before leave it due, and the
checks after leave it decided. -/
theorem checkAlerts_decides {alerts : List Alert} (h : w.Due a d) (hMem : a ∈ alerts)
    (hKeys : (alerts.map Alert.id).Nodup) :
    (w.checkAlerts alerts).Ends d fun _ after => after.Decided a (d.Breaches a) := by
  induction alerts generalizing d with
  | nil => cases hMem
  | cons b rest ih =>
      rw [List.map_cons, List.nodup_cons] at hKeys
      rw [checkAlerts_cons]
      refine Ends.of_run (run_attend d w b) ?_
      rcases List.mem_cons.mp hMem with rfl | hLater
      · -- It is the turn of the alert itself; the rest is about other alerts.
        have hRest : (w.checkAlerts rest).Asks (Spares a.id) := checkAlerts_spares fun b hb hEq =>
          hKeys.1 (hEq ▸ List.mem_map_of_mem hb)
        exact Decided.ends (attend_decides h) hRest
      · -- Another alert comes first, and whatever becomes of its check, this one stays due.
        have hOther : b.id ≠ a.id := fun hEq => hKeys.1 (hEq ▸ List.mem_map_of_mem hLater)
        have hLeft : d.Undisturbed a.id (d.run (w.attend b)).2 :=
          Undisturbed.ends (attend_spares hOther) (.refl h.toQuiet a.id)
        rw [← hLeft.breaches_eq]
        exact ih (h.undisturbed hLeft) hLater hKeys.2

/-- A tick decides about every due alert that it lists. -/
theorem processAlerts_decides (h : w.Due a d) (hKeyed : d.registry.Keyed)
    (hPage : a ∈ page 0 alertBatch (newestFirst Alert.createdAt Alert.id d.registry.alerts)) :
    (w.processAlerts).Ends d fun _ after => after.Decided a (d.Breaches a) := by
  -- Cleaning up removes leases and does nothing else.
  have hLeft : d.Undisturbed a.id d.tidied :=
    ⟨⟨h.unit, h.staged, h.there⟩, rfl, rfl, rfl, rfl, fun l hl _ => List.mem_of_mem_filter hl⟩
  have hDecides : (w.checkAlerts d.listed).Ends d.tidied fun _ after =>
      after.Decided a (d.tidied.Breaches a) :=
    checkAlerts_decides (h.undisturbed hLeft) hPage (listed_rows hKeyed).1
  rw [hLeft.breaches_eq] at hDecides
  exact (processAlerts_leads h.toQuiet w).ends hDecides

end Worker

/-- After reports have been taken in and alerts created, one after the other, a tick that can write
its times decides about each of the newest alerts without a live lease as counting does: afterwards
the alert is triggered exactly if, among the events of its project in its window, there is a group
of which it counts more than its threshold. -/
theorem decides_by_the_events {start : Instant} {d : Deployment} (hFed : d.Fed start) (w : Worker)
    {a : Alert}
    (hPage : a ∈ page 0 alertBatch (newestFirst Alert.createdAt Alert.id d.registry.alerts))
    (hFree : ∀ l ∈ d.registry.leases, l.alertId = a.id → l.expiresAt < d.now)
    (hWindow : (a.windowAt d.now).start.representable = true)
    (hLease : (d.now.shift w.leaseMicros).representable = true) :
    ∃ row, (d.run w.processAlerts).2.registry.alert? a.id = some row ∧
      (row.status = Alert.triggered ↔
        a.BreachedBy (d.events.inside a.projectId (a.windowAt d.now))) := by
  have hCoherent := hFed.coherent
  have hMem : a ∈ d.registry.alerts :=
    (List.mergeSort_perm _ _).mem_iff.mp ((Registry.page_sublist ..).subset hPage)
  have hShows : d.Shows a := ⟨hCoherent.toQuiet, hCoherent.logThere,
    hCoherent.keyed.alert?_eq hMem, hCoherent.evaluated a hMem, hCoherent.seen, hCoherent.filed,
    hWindow⟩
  exact (Worker.processAlerts_decides ⟨hShows, hFree, hLease⟩ hCoherent.keyed hPage).decided

/-- A report of one user. -/
def firstReport : Report :=
  ⟨"e1", ⟨10000000000000000⟩, "boom", "error", "python", "", "", "", [], ⟨"u1", "", "", "", ""⟩,
    ⟨"", ""⟩, [], none⟩

/-- An alert on more than no users within an hour. -/
def anyUser : AlertDraft :=
  { projectId := some 1, teamId := some 1, ruleName := some "Any user", threshold := some 0,
    condition := some 2, timeframe := some 4 }

/-- A minute after a report has been taken in and an alert created. -/
def minuteAfter : Deployment :=
  (((Deployment.initial ⟨10000000000000000⟩ false).run
    (Events.ingest ⟨0, .usual⟩ 1 firstReport 90)).2.run
      (Program.registry (.createAlert anyUser))).2.advance 60000000

/-- A tick that finds the report triggers the alert. -/
theorem report_triggers :
    let a : Alert := ⟨1, 1, 1, "Any user", none, Alert.active, 0, 2, 4, false, none, none,
      ⟨10000000000000000⟩, ⟨10000000000000000⟩⟩
    let w : Worker := ⟨"worker-a", Worker.usualLeaseMicros, ⟨none⟩⟩
    minuteAfter.Fed ⟨10000000000000000⟩ ∧
      a ∈ page 0 alertBatch (newestFirst Alert.createdAt Alert.id minuteAfter.registry.alerts) ∧
      ∃ row, (minuteAfter.run w.processAlerts).2.registry.alert? 1 = some row ∧
        row.status = Alert.triggered := by
  intro a w
  have hFed : minuteAfter.Fed ⟨10000000000000000⟩ :=
    .advance (.createAlert (.ingest .initial _ _ _ _ (by decide)) _ (by simp [anyUser])) _ (by decide)
  have hPage : a ∈ page 0 alertBatch
      (newestFirst Alert.createdAt Alert.id minuteAfter.registry.alerts) := by decide +kernel
  have hFree : ∀ l ∈ minuteAfter.registry.leases, l.alertId = 1 → l.expiresAt < minuteAfter.now := by
    decide +kernel
  have hBreached : a.BreachedBy
      (minuteAfter.events.inside 1 (a.windowAt minuteAfter.now)) := by decide +kernel
  obtain ⟨row, hRow, hStatus⟩ :=
    decides_by_the_events hFed w hPage hFree (by decide +kernel) (by decide +kernel)
  exact ⟨hFed, hPage, row, hRow, hStatus.mpr hBreached⟩

/-- Two minutes before the last representable instant no lease of five minutes can be written, and a
triggered alert without any event stays triggered. -/
theorem no_lease_at_the_end_of_time :
    let start : Instant := ⟨Instant.limit - 120000000⟩
    let d := ((Deployment.initial start false).run (Program.registry
      (.createAlert { anyUser with status := some Alert.triggered }))).2
    let a : Alert := ⟨1, 1, 1, "Any user", none, Alert.triggered, 0, 2, 4, false, none, none, start,
      start⟩
    let w : Worker := ⟨"worker-a", Worker.usualLeaseMicros, ⟨none⟩⟩
    d.Fed start ∧
      a ∈ page 0 alertBatch (newestFirst Alert.createdAt Alert.id d.registry.alerts) ∧
      d.registry.leases = [] ∧ (a.windowAt d.now).start.representable = true ∧
      (d.run w.processAlerts).2.registry.alert? 1 = some a ∧
      ¬a.BreachedBy (d.events.inside 1 (a.windowAt d.now)) := by
  intro start d a w
  have hFed : d.Fed start := .createAlert .initial _ (by simp)
  exact ⟨hFed, by decide +kernel, rfl, by decide +kernel, by decide +kernel, by decide +kernel⟩

end Triage
