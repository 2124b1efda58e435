import Triage.Proofs.Alert.Undisturbed
import Triage.Proofs.Deployment.Requests

/-!
# What a check settles

A check cannot write a lease, or is refused it, or evaluates its alert under it (`checkAlert_cases`).
An evaluation reads a verdict from the issues, the events and the time; then the status of the alert
decides whether a transition is stored and announced (`evaluate_cases`, `respond_carries`).  So a check
leaves its alert idle (`checkAlert_rests`): the alert cannot be evaluated, or no verdict can be had,
or the stored status is the one of the verdict.  Whatever keeps aloof from the alert leaves it idle
(`Rests.apart`), and a check of an idle alert sends nothing and writes nothing but leases
(`Idle.checks_harmlessly`).
-/

namespace Triage

open Program

/-- A request that sends nothing and writes no table but the leases. -/
structure Request.Harmless (q : Request) : Prop where
  sends : q.post? = none
  writes : ∀ call, q.call? = some call → call.writes ⊆ [.leases]

theorem Request.harmless_call {call : RegistryCall} (h : call.writes ⊆ [.leases]) :
    Request.Harmless (.registry call) :=
  ⟨rfl, fun _ hCall => Option.some.inj hCall ▸ h⟩

theorem Request.harmless_elsewhere {q : Request} (hPost : q.post? = none) (hCall : q.call? = none) :
    q.Harmless :=
  ⟨hPost, fun call hIs => by simp [hCall] at hIs⟩

/-- The window of an alert that is evaluated at a time. -/
def Alert.windowAt (a : Alert) (time : Instant) : Window :=
  ⟨time.shift (-(Rule.windowSeconds a.timeframe * Instant.second)), time⟩

/-- The issues of a project that were seen in a window, in the order in which they are listed. -/
def Registry.issuesSeen (issues : List Issue) (projectId : Int) (window : Window) : List Issue :=
  (issues.filter fun i => i.projectId = projectId && wasSeen window.start window.stop i).mergeSort
    fun a b => decide (b.lastSeen < a.lastSeen)
      || (decide (a.lastSeen = b.lastSeen) && decide (a.id ≤ b.id))

theorem Registry.listIssues_eq (r : Registry) (now : Instant) (freshUuid : String) (projectId : Int)
    (window : Window) :
    r.apply now freshUuid (.listIssues [projectId] window.start window.stop none) =
      (.ok (issuesSeen r.issues projectId window), r) := by
  simp [apply, issuesSeen]

theorem Registry.mem_issuesSeen {issues : List Issue} {projectId : Int} {window : Window}
    {i : Issue} : i ∈ issuesSeen issues projectId window ↔
      i ∈ issues ∧ i.projectId = projectId ∧ wasSeen window.start window.stop i = true := by
  simp [issuesSeen]

/-- Whether an alert is breached at a time as an evaluation finds it from the issues and the events,
if it finds that out. -/
def Alert.verdict? (a : Alert) (issues : List Issue) (log : EventLog) (time : Instant) :
    Option Bool :=
  let window := a.windowAt time
  let seen := Registry.issuesSeen issues a.projectId window
  if !window.start.representable then none
  else if seen.isEmpty then some false
  else
    let metrics := (log.run (.metrics ⟨[a.projectId], seen.map Issue.id, window⟩)).1
    metrics.toOption.map a.isBreached

theorem Alert.verdict?_of_window {a : Alert} {time : Instant}
    (hStart : (a.windowAt time).start.representable = true) (issues : List Issue) (log : EventLog) :
    a.verdict? issues log time =
      let seen := Registry.issuesSeen issues a.projectId (a.windowAt time)
      let metrics := (log.run (.metrics ⟨[a.projectId], seen.map Issue.id, a.windowAt time⟩)).1
      if seen.isEmpty then some false else metrics.toOption.map a.isBreached := by
  simp [verdict?, hStart]

/-- An alert as a verdict at a time leaves it. -/
def Alert.settle (a : Alert) (time : Instant) (breached : Bool) : Alert :=
  if breached && a.status = Alert.active then a.trigger time
  else if !breached && a.status = Alert.triggered then a.resolve time
  else a

/-- An alert as an evaluation at a time leaves it, if all that it asks succeeds. -/
def Alert.evaluated (a : Alert) (issues : List Issue) (log : EventLog) (time : Instant) : Alert :=
  ((a.verdict? issues log time).map (a.settle time)).getD a

/-- A verdict leaves an alert as it is, or flips it. -/
theorem Alert.settle_cases (a : Alert) (time : Instant) (breached : Bool) :
    a.settle time breached = a ∨ a.Flips (a.settle time breached) := by
  unfold settle
  split
  next h =>
    rw [Bool.and_eq_true, decide_eq_true_eq] at h
    exact .inr (.trigger time h.2)
  next =>
    split
    next h =>
      rw [Bool.and_eq_true, decide_eq_true_eq] at h
      exact .inr (.resolve time h.2)
    next => exact .inl rfl

theorem Alert.evaluated_cases (a : Alert) (issues : List Issue) (log : EventLog) (time : Instant) :
    a.evaluated issues log time = a ∨ a.Flips (a.evaluated issues log time) := by
  unfold evaluated
  cases a.verdict? issues log time with
  | none => exact .inl rfl
  | some breached => exact a.settle_cases time breached

theorem Alert.evaluated_id (a : Alert) (issues : List Issue) (log : EventLog) (time : Instant) :
    (a.evaluated issues log time).id = a.id :=
  (a.evaluated_cases issues log time).elim (congrArg Alert.id) Alert.Flips.id_eq

/-- The status of an evaluated alert is the one of the verdict afterwards. -/
theorem Alert.settle_status {a : Alert} (hEvaluated : a.isEvaluated = true) (time : Instant)
    (breached : Bool) : (a.settle time breached).status = Alert.triggered ↔ breached = true := by
  have hDistinct : Alert.active ≠ Alert.triggered := by decide
  have hStatus : a.status = Alert.active ∨ a.status = Alert.triggered := by
    simpa [isEvaluated] using hEvaluated
  rcases hStatus with hIs | hIs <;> cases breached <;>
    simp [settle, trigger, resolve, hIs, hDistinct, hDistinct.symm]

namespace Deployment

/-- The verdict about an alert now. -/
def verdict? (d : Deployment) (a : Alert) : Option Bool :=
  a.verdict? d.registry.issues d.events d.now

/-- An alert as an evaluation now leaves it. -/
def evaluated (d : Deployment) (a : Alert) : Alert := a.evaluated d.registry.issues d.events d.now

theorem evaluated_of_verdict {d : Deployment} {a : Alert} {breached : Bool}
    (hVerdict : d.verdict? a = some breached) : d.evaluated a = a.settle d.now breached := by
  rw [verdict?] at hVerdict
  rw [evaluated, Alert.evaluated, hVerdict]
  rfl

theorem evaluated_of_none {d : Deployment} {a : Alert} (hNone : d.verdict? a = none) :
    d.evaluated a = a := by
  rw [verdict?] at hNone
  rw [evaluated, Alert.evaluated, hNone]
  rfl

/-- A quiet deployment that has a row for its alert, and the issues, the events and the time of an
earlier one. -/
structure Carries (before : Deployment) (row : Alert) (d : Deployment) : Prop extends d.Quiet where
  now : d.now = before.now
  events : d.events = before.events
  issues : d.registry.issues = before.registry.issues
  row : d.registry.alert? row.id = some row

/-- The deployment without the leases that have expired. -/
def tidied (d : Deployment) : Deployment :=
  { d with registry :=
      { d.registry with leases := d.registry.leases.filter fun l => !decide (l.expiresAt < d.now) } }

theorem tidied_keyed {d : Deployment} (h : d.registry.Keyed) : d.tidied.registry.Keyed :=
  ⟨h.alerts, h.leases.sublist (List.filter_sublist.map _), h.issues⟩

/-- The alerts that a tick lists. -/
def listed (d : Deployment) : List Alert :=
  page 0 alertBatch (newestFirst Alert.createdAt Alert.id d.registry.alerts)

/-- A tick lists no alert twice. -/
theorem listed_nodup {d : Deployment} (hKeys : (d.registry.alerts.map Alert.id).Nodup) :
    (d.listed.map Alert.id).Nodup := by
  have hPerm : (newestFirst Alert.createdAt Alert.id d.registry.alerts).Perm d.registry.alerts :=
    List.mergeSort_perm _ _
  have hPage : d.listed.Sublist (newestFirst Alert.createdAt Alert.id d.registry.alerts) :=
    Registry.page_sublist ..
  exact ((hPerm.map Alert.id).nodup_iff.mpr hKeys).sublist (hPage.map _)

/-- A tick lists rows of the registry. -/
theorem mem_alerts_of_listed {d : Deployment} {a : Alert} (ha : a ∈ d.listed) :
    a ∈ d.registry.alerts := by
  have hPerm : (newestFirst Alert.createdAt Alert.id d.registry.alerts).Perm d.registry.alerts :=
    List.mergeSort_perm _ _
  exact hPerm.mem_iff.mp ((Registry.page_sublist ..).subset ha)

/-- A tick lists rows of the registry, each alert once. -/
theorem listed_rows {d : Deployment} (hKeyed : d.registry.Keyed) :
    (d.listed.map Alert.id).Nodup ∧ ∀ a ∈ d.listed, d.registry.alert? a.id = some a :=
  ⟨listed_nodup hKeyed.alerts, fun _ ha => hKeyed.alert?_eq (mem_alerts_of_listed ha)⟩

/-- The status of the alert is the one of the verdict, if there is one. -/
def Agrees (d : Deployment) (a : Alert) : Prop :=
  ∀ breached, d.verdict? a = some breached → (a.status = Alert.triggered ↔ breached = true)

variable {a b : Alert} {d before : Deployment}

/-- What was stored stands through a program that spares its alert. -/
theorem Carries.ends (h : before.Carries b d) {p : Program α} (hAsks : p.Asks (Worker.Spares b.id)) :
    p.Ends d fun _ after => before.Carries b after := by
  refine Ends.mono (Undisturbed.ends hAsks (.refl h.toQuiet b.id)) fun _ after hLeft => ?_
  exact ⟨hLeft.toQuiet, hLeft.now.trans h.now, hLeft.events.trans h.events,
    hLeft.issues.trans h.issues, hLeft.row.trans h.row⟩

theorem verdict?_congr (hNow : d.now = before.now) (hEvents : d.events = before.events)
    (hIssues : d.registry.issues = before.registry.issues) (a : Alert) :
    d.verdict? a = before.verdict? a := by
  rw [verdict?, verdict?, hNow, hEvents, hIssues]

/-- A transition does not change what an evaluation finds. -/
theorem verdict?_flips (h : a.Flips b) : d.verdict? b = d.verdict? a := by
  cases h <;> rfl

end Deployment

namespace Worker

open Deployment

variable {w : Worker} {a b : Alert} {d before : Deployment}

theorem run_requireInstant {t : Instant} (h : t.representable = true) (d : Deployment) :
    d.run (requireInstant t) = (.ok t, d) := by
  rw [requireInstant, if_pos h]
  rfl

theorem run_requireInstant_error {t : Instant} (h : t.representable = false) (d : Deployment) :
    d.run (requireInstant t) = (.error .dateOutOfRange, d) := by
  rw [requireInstant, if_neg (Bool.eq_false_iff.mp h)]
  rfl

/-- What is done about an alert once there is a verdict. -/
def respond (w : Worker) (a : Alert) (time : Instant) (breached : Bool) : Program Alert :=
  if breached && a.status = Alert.active then w.trigger a time
  else if !breached && a.status = Alert.triggered then w.resolve a time
  else return a

/-- Where the status is the one of the verdict, nothing is done. -/
theorem respond_agreeing {breached : Bool} (h : a.status = Alert.triggered ↔ breached = true)
    (time : Instant) : w.respond a time breached = pure a := by
  have hDistinct : Alert.triggered ≠ Alert.active := by decide
  cases breached with
  | true => simp [respond, h.mpr rfl, hDistinct]
  | false =>
      have hNot : a.status ≠ Alert.triggered := fun hIs => Bool.false_ne_true (h.mp hIs)
      simp [respond, hNot]

/-- A transition of an alert that has a row can be stored. -/
theorem update_carries (h : d.Quiet) (hRow : d.registry.alert? a.id = some a) (hFlips : a.Flips b) :
    ∃ after, d.perform (.registry (.updateAlert b.draft)) = (.ok (), after) ∧ d.Carries b after := by
  rw [← hFlips.id_eq] at hRow
  obtain ⟨registry, hRun⟩ := Registry.updateAlert_ok h.there d.now d.nextUuid hRow
  have hThere := d.registry.run_dropped d.now d.nextUuid (.updateAlert b.draft)
  have hIssues := d.registry.run_sameRows (t := .issues) d.now d.nextUuid (.updateAlert b.draft)
    (by simp [RegistryCall.writes])
  obtain ⟨row, hWas, hRows⟩ := Registry.updateAlert_rows hRun
  rw [hRun] at hThere hIssues
  rw [Registry.run_eq_apply h.there] at hRun
  obtain ⟨issuesNamed, hStored⟩ := h.run_call hRun
  have hOver : b.over row = b := by
    obtain rfl := Option.some.inj (hRow.symm.trans hWas)
    cases hFlips <;> rfl
  refine ⟨{ d with registry, issuesNamed }, (d.run_request _).symm.trans hStored, ?_⟩
  refine ⟨⟨h.unit, h.staged, hThere.trans h.there⟩, rfl, rfl, hIssues, ?_⟩
  rw [hRows b.id, if_pos rfl, hOver]

/-- A transition is stored, and nothing that follows changes that. -/
theorem transition_carries (h : d.Quiet) (hRow : d.registry.alert? a.id = some a) (hFlips : a.Flips b)
    (kind : String) : (w.transition b kind).Ends d fun _ after => d.Carries b after := by
  have hNoted : d.run (request (.noteChange (.alert b))) = (.ok (), d) := by
    rw [d.run_noteChange, noteChange_eq h.unit]
  obtain ⟨after, hStored, hCarries⟩ := update_carries h hRow hFlips
  unfold transition
  refine Ends.of_run hNoted (Ends.of_run ((d.run_request _).trans hStored) (hCarries.ends ?_))
  exact (report_spares ..).bind fun _ => (notifyTeam_spares w b kind).bind fun _ => asks_pure _

/-- A response to a verdict leaves the alert as the verdict does. -/
theorem respond_carries (h : d.Quiet) (hRow : d.registry.alert? a.id = some a) (time : Instant)
    (breached : Bool) :
    (w.respond a time breached).Ends d fun _ after => d.Carries (a.settle time breached) after := by
  unfold respond Alert.settle
  split
  next hTriggers =>
    rw [Bool.and_eq_true, decide_eq_true_eq] at hTriggers
    exact transition_carries h hRow (.trigger time hTriggers.2) _
  next =>
    split
    next hResolves =>
      rw [Bool.and_eq_true, decide_eq_true_eq] at hResolves
      exact transition_carries h hRow (.resolve time hResolves.2) _
    next => exact ends_pure ⟨h, rfl, rfl, rfl, hRow⟩

/-- An evaluation that only reads comes to no verdict and fails, or goes on to respond to it. -/
theorem evaluate_cases (h : d.Quiet) (w : Worker) (a : Alert) :
    (d.verdict? a = none ∧ ∃ e, Leads Request.Harmless d (w.evaluate a d.now) d (throw e)) ∨
      ∃ breached, d.verdict? a = some breached ∧
        Leads Request.Harmless d (w.evaluate a d.now) d (w.respond a d.now breached) := by
  let window := a.windowAt d.now
  let issues := Registry.issuesSeen d.registry.issues a.projectId window
  let c : IssuesCriteria := ⟨[a.projectId], issues.map Issue.id, window⟩
  have hRequires : d.AsksOnly Request.Harmless (requireInstant window.start) :=
    asksOnly_of_asks (requireInstant_asks _)
  cases hStart : window.start.representable with
  | false =>
      refine .inl ⟨?_, .dateOutOfRange, .bind_error hRequires (run_requireInstant_error hStart d)⟩
      simp [verdict?, Alert.verdict?, window, hStart]
  | true =>
      have hReading : d.AsksOnly Request.Harmless
          (registry (.listIssues [a.projectId] window.start window.stop none)) :=
        asksOnly_request (Request.harmless_call (by simp [RegistryCall.writes]))
      have hIssues := h.run_read (d.registry.listIssues_eq d.now d.nextUuid a.projectId window) rfl
      -- What is left once the issues are known.
      let rest : Program Alert :=
        if issues.isEmpty then (if a.status = Alert.triggered then w.resolve a d.now else return a)
        else do
          let metrics : List IssueMetrics ← eventLog (.metrics c)
          w.respond a d.now (a.isBreached metrics)
      have hRead : Leads Request.Harmless d (w.evaluate a d.now) d rest :=
        (Leads.bind hRequires (run_requireInstant hStart d)).trans (.bind hReading hIssues)
      by_cases hNone : issues.isEmpty = true
      · have hRest : rest = w.respond a d.now false := by simp [rest, hNone, respond]
        refine .inr ⟨false, ?_, hRest ▸ hRead⟩
        exact (Alert.verdict?_of_window hStart ..).trans (if_pos hNone)
      have hRest : rest = (eventLog (.metrics c) >>= fun metrics : List IssueMetrics =>
          w.respond a d.now (a.isBreached metrics)) := if_neg hNone
      rw [hRest] at hRead
      have hCounting : d.AsksOnly Request.Harmless (eventLog (.metrics c)) :=
        asksOnly_request (Request.harmless_elsewhere rfl rfl)
      have hMetrics : d.run (eventLog (.metrics c)) = ((d.events.run (.metrics c)).1, d) :=
        run_question h.staged _ (by simp)
      have hVerdict : d.verdict? a =
          ((d.events.run (.metrics c)).1.toOption : Option (List IssueMetrics)).map a.isBreached :=
        (Alert.verdict?_of_window hStart ..).trans (if_neg hNone)
      cases hReply : (d.events.run (.metrics c)).1 with
      | error e =>
          rw [hReply] at hMetrics hVerdict
          exact .inl ⟨hVerdict, e, hRead.trans (.bind_error hCounting hMetrics)⟩
      | ok metrics =>
          rw [hReply] at hMetrics hVerdict
          exact .inr ⟨a.isBreached metrics, hVerdict, hRead.trans (.bind hCounting hMetrics)⟩

/-- The lease that a worker asks for to check an alert. -/
def leaseOn (w : Worker) (a : Alert) (time : Instant) : Lease :=
  ⟨a.id, w.instanceId, time, time.shift w.leaseMicros⟩

/-- The deployment in which a worker has been granted the lease on an alert. -/
def leased (w : Worker) (a : Alert) (d : Deployment) : Deployment :=
  { d with registry :=
      { d.registry with leases := (Registry.acquire d.registry.leases (w.leaseOn a d.now)).2 } }

/-- What a check does once its lease has been granted or refused. -/
def proceed (w : Worker) (a : Alert) (time : Instant) (acquired : Bool) : Program Alert := do
  if acquired then (w.evaluate a time).ensure (w.releaseLease a.id)
  else
    report .debug .worker
      ("Alert " ++ Text.intText a.id ++ " is locked by another instance, skipping")
      [("alert_id", .int a.id)] none
    return a

/-- A check fails because no lease can be written, or finds a lease that runs and leaves the alert,
or evaluates the alert under a lease of its own. -/
theorem checkAlert_cases (h : d.Quiet) (w : Worker) (a : Alert) :
    ((d.now.shift w.leaseMicros).representable = false ∧
        Leads Request.Harmless d (w.checkAlert a) d (throw .dateOutOfRange)) ∨
      ((∃ l ∈ d.registry.leases, l.alertId = a.id ∧ d.now ≤ l.expiresAt) ∧
        ∃ records, Leads Request.Harmless d (w.checkAlert a) { d with records } (pure a)) ∨
      ((d.now.shift w.leaseMicros).representable = true ∧
        (Registry.acquire d.registry.leases (w.leaseOn a d.now)).1 = true ∧
        Leads Request.Harmless d (w.checkAlert a) (w.leased a d)
          ((w.evaluate a d.now).ensure (w.releaseLease a.id))) := by
  have hNow : d.run Program.now = (.ok d.now, d) := d.run_request .now
  have hReads : d.AsksOnly Request.Harmless Program.now :=
    asksOnly_request (Request.harmless_elsewhere rfl rfl)
  have hRequires : d.AsksOnly Request.Harmless (requireInstant (d.now.shift w.leaseMicros)) :=
    asksOnly_of_asks (requireInstant_asks _)
  cases hLease : (d.now.shift w.leaseMicros).representable with
  | false =>
      refine .inl ⟨rfl, (Leads.bind hReads hNow).trans ?_⟩
      exact .bind_error hRequires (run_requireInstant_error hLease d)
  | true =>
      have hAsks : d.AsksOnly Request.Harmless
          (registry (.acquireLease (w.leaseOn a d.now).draft)) :=
        asksOnly_request (Request.harmless_call (by simp [RegistryCall.writes]))
      have hAcquire : d.run (registry (.acquireLease (w.leaseOn a d.now).draft)) =
          (.ok (Registry.acquire d.registry.leases (w.leaseOn a d.now)).1, w.leased a d) := by
        have hApply := Registry.run_acquireLease h.there d.now d.nextUuid (w.leaseOn a d.now)
        rw [Registry.run_eq_apply h.there] at hApply
        refine (d.run_request _).trans ?_
        rw [h.perform_eq_apply, hApply]
        rfl
      have hRest : Leads Request.Harmless d (w.checkAlert a) (w.leased a d)
          (w.proceed a d.now (Registry.acquire d.registry.leases (w.leaseOn a d.now)).1) :=
        (Leads.bind hReads hNow).trans ((Leads.bind hRequires (run_requireInstant hLease d)).trans
          (.bind hAsks hAcquire))
      obtain hGranted | ⟨hRefused, hRuns⟩ := Registry.acquire_cases d.registry.leases (w.leaseOn a d.now)
      · rw [hGranted] at hRest
        exact .inr (.inr ⟨rfl, hGranted, hRest⟩)
      · have hSame : w.leased a d = d := by rw [leased, hRefused]
        rw [hSame, hRefused] at hRest
        refine .inr (.inl ⟨hRuns, _, hRest.trans (.bind ?_ (d.run_request (.record _)))⟩)
        exact asksOnly_request (Request.harmless_elsewhere rfl rfl)

/-- What keeps a worker from doing anything about an alert of a row. -/
inductive Idle (w : Worker) (d : Deployment) (a : Alert) : Prop
  | unevaluated (h : a.isEvaluated = false)
  | unleasable (h : (d.now.shift w.leaseMicros).representable = false)
  | contended (l : Lease) (hMem : l ∈ d.registry.leases) (hAlert : l.alertId = a.id)
      (hRuns : d.now ≤ l.expiresAt)
  | agrees (h : d.Agrees a)

/-- A worker has nothing to do about an alert, as its row is now. -/
def Rests (w : Worker) (d : Deployment) (alertId : Int) : Prop :=
  ∀ row, d.registry.alert? alertId = some row → w.Idle d row

theorem Idle.apart (h : w.Idle before a) (hApart : before.Apart a.id d) : w.Idle d a := by
  cases h with
  | unevaluated h => exact .unevaluated h
  | unleasable h => exact .unleasable (by rwa [hApart.now])
  | contended l hMem hAlert hRuns =>
      exact .contended l (hApart.kept l hMem hAlert hRuns) hAlert (by rwa [hApart.now])
  | agrees h =>
      refine .agrees fun breached hVerdict => h breached ?_
      rwa [← verdict?_congr hApart.now hApart.events hApart.issues]

theorem Rests.apart {alertId : Int} (h : w.Rests before alertId) (hApart : before.Apart alertId d) :
    w.Rests d alertId := by
  intro row hRow
  have hId : row.id = alertId := by simpa using List.find?_some hRow
  exact (h row (hApart.row ▸ hRow)).apart (hId ▸ hApart)

/-- Where nothing fails but what the deployment itself makes fail, an evaluation leaves the alert as
its verdict does, if there is one, and otherwise as it is. -/
theorem evaluate_carries (h : d.Quiet) (hRow : d.registry.alert? a.id = some a) :
    (w.evaluate a d.now).Ends d fun _ after => d.Carries (d.evaluated a) after := by
  obtain ⟨hNone, e, hLeads⟩ | ⟨breached, hVerdict, hLeads⟩ := evaluate_cases h w a
  · rw [evaluated_of_none hNone]
    exact hLeads.ends ⟨h, rfl, rfl, rfl, hRow⟩
  · rw [evaluated_of_verdict hVerdict]
    exact hLeads.ends (respond_carries h hRow _ breached)

/-- After a check nothing is left to do about the alert. -/
theorem checkAlert_rests (h : d.Quiet) (hRow : d.registry.alert? a.id = some a)
    (hEvaluated : a.isEvaluated = true) :
    (w.checkAlert a).Ends d fun _ after => w.Rests after a.id := by
  obtain ⟨hLease, hLeads⟩ | ⟨⟨l, hMem, hAlert, hRuns⟩, records, hLeads⟩ | ⟨-, -, hLeads⟩ :=
    checkAlert_cases h w a
  · exact hLeads.ends fun row _ => .unleasable hLease
  · refine hLeads.ends fun row hFound => .contended l hMem ?_ hRuns
    obtain rfl := Option.some.inj (hRow.symm.trans hFound)
    exact hAlert
  · have hQuiet : (w.leased a d).Quiet := ⟨h.unit, h.staged, h.there⟩
    let b := d.evaluated a
    have hBecame : b = a ∨ a.Flips b := a.evaluated_cases _ _ _
    have hId : b.id = a.id := a.evaluated_id _ _ _
    refine hLeads.ends (Ends.ensure (evaluate_carries hQuiet hRow) fun outcome after hCarries => ?_)
    refine (hCarries.ends (w.releaseLease_spares a.id)).mono fun ended final hFinal => ?_
    have hSame : final.verdict? b = d.verdict? a :=
      (verdict?_congr hFinal.now hFinal.events hFinal.issues b).trans
        (hBecame.elim (congrArg d.verdict?) verdict?_flips)
    have hRests : w.Rests final a.id := fun row hFound => by
      obtain rfl : b = row := Option.some.inj (hFinal.row.symm.trans (hId ▸ hFound))
      refine .agrees fun breached hVerdict => ?_
      rw [show b = _ from evaluated_of_verdict (hSame.symm.trans hVerdict)]
      exact Alert.settle_status hEvaluated d.now breached
    cases ended <;> exact hRests

/-- Checking an alert about which there is nothing to do sends nothing and writes nothing but
leases. -/
theorem Idle.checks_harmlessly (hIdle : w.Idle d a) (hEvaluated : a.isEvaluated = true)
    (h : d.Quiet) (hKeyed : d.registry.Keyed) : d.AsksOnly Request.Harmless (w.checkAlert a) := by
  obtain ⟨-, hLeads⟩ | ⟨-, records, hLeads⟩ | ⟨hLease, hGranted, hLeads⟩ := checkAlert_cases h w a
  · exact hLeads.asksOnly (List.forall_mem_nil _)
  · exact hLeads.asksOnly (List.forall_mem_nil _)
  cases hIdle with
  | unevaluated hNot => simp [hEvaluated] at hNot
  | unleasable hNot => simp [hLease] at hNot
  | contended l hMem hAlert hRuns =>
      rw [Registry.acquire_refused hKeyed.leases hMem hAlert.symm hRuns] at hGranted
      cases hGranted
  | agrees hAgrees =>
      have hQuiet : (w.leased a d).Quiet := ⟨h.unit, h.staged, h.there⟩
      have hEvaluates : (w.leased a d).AsksOnly Request.Harmless (w.evaluate a d.now) := by
        obtain ⟨-, e, hRead⟩ | ⟨breached, hVerdict, hRead⟩ := evaluate_cases hQuiet w a
        · exact hRead.asksOnly (List.forall_mem_nil _)
        · refine hRead.asksOnly ?_
          rw [respond_agreeing (hAgrees breached hVerdict)]
          exact List.forall_mem_nil _
      have hReleases : (w.releaseLease a.id).Asks Request.Harmless := by
        unfold releaseLease
        exact (asks_request (Request.harmless_call (by simp [RegistryCall.writes]))).attempt_bind
          (fun _ => asks_pure _) fun e => asks_request (Request.harmless_elsewhere rfl rfl)
      exact hLeads.asksOnly (hEvaluates.ensure fun _ _ _ => asksOnly_of_asks hReleases)

theorem cleanUp_harmless (d : Deployment) :
    d.AsksOnly Request.Harmless (do registry (.cleanUpLeases (← Program.now)) : Program Nat) := by
  refine (asksOnly_request (Request.harmless_elsewhere rfl rfl)).bind fun time after _ => ?_
  exact asksOnly_request (Request.harmless_call (by simp [RegistryCall.writes]))

/-- A tick that can clean up goes on to check the alerts that it lists. -/
theorem processAlerts_leads (h : d.Quiet) (w : Worker) :
    Leads Request.Harmless d w.processAlerts d.tidied (w.checkAlerts d.listed) := by
  have hCleanUp : d.run (do registry (.cleanUpLeases (← Program.now)) : Program Nat) =
      (.ok (d.registry.leases.countP fun l => decide (l.expiresAt < d.now)), d.tidied) := by
    refine (run_bind (d.run_request .now)).trans ((d.run_request _).trans ?_)
    rw [h.perform_eq_apply]
    rfl
  have hTidied : d.tidied.Quiet := ⟨h.unit, h.staged, h.there⟩
  have hList := hTidied.run_read
    (d.tidied.registry.listAlerts_all d.tidied.now d.tidied.nextUuid alertBatch) rfl
  unfold processAlerts
  refine (Leads.attempt_bind (cleanUp_harmless d) hCleanUp).trans (.attempt_bind ?_ hList)
  exact asksOnly_request (Request.harmless_call (by simp [RegistryCall.writes]))

end Worker
end Triage
